import SatSearch.Bench.Row
import SatSearch.Csv.Writer
import SatSearch.Files
import SatSearch.Text.Utf8

/-!
# The table of results

Results are kept in a table with a line for each row (`Row.fields`).
-/

namespace SatSearch

/-- The columns of the table. -/
def Row.columns : List String :=
  ["name", "source", "num_vars", "n_clauses", "status", "wall_time_s", "decisions",
   "unit_propagations", "backtracks", "max_depth", "error", "expected_status", "is_correct"]

/-- The fields of a row, in the order of the columns. -/
def Row.fields (r : Row) : List (Option Value) :=
  [some (.word r.name), some (.word r.source), some (.whole r.variableCount),
   some (.whole r.clauseCount), some (.word r.status), some (.real r.wallTime),
   some (.whole r.decisions), some (.whole r.unitPropagations), some (.whole r.backtracks),
   some (.whole r.maxDepth), some (.word r.error), r.expected.map .word, r.isCorrect.map .truth]

/-- The text of the table. -/
def resultTable (rows : List Row) : List Char :=
  Csv.table Row.columns (rows.map Row.fields)

/-- The directory that the file at a path lies in. -/
def directoryOf (path : String) : List Char :=
  match (Files.splitLast path.toList).1 with
  | [] => ['.']
  | directory => directory

/-- Writes the table to a file and makes the directories it lies in. -/
def Files.saveResults (fs : Files) (rows : List Row) (path : String) : Except FileError Files := do
  let fs ← fs.makeDirectories (directoryOf path)
  fs.write path (Text.encode (resultTable rows))

end SatSearch
