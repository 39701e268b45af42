import SatSearch.Bench.Row
import SatSearch.Compare.Table

/-!
# Times of several runs

A run left a table of results. `Series.addRun` adds the times of a run to those of others: one series for the
run, or one for each status expected in it.
-/

namespace SatSearch

/-- The file with the table of a run, given the file itself or its directory. -/
def runFile (run : String) : Path :=
  let path := Path.ofString run
  if path.suffix = ".csv" then path else path.append ["metrics.csv"]

/-- The name of a run: that of its directory. -/
def runName (run : String) : String :=
  let path := Path.ofString run
  if path.suffix = ".csv" then path.parent.name else path.name

/-- Which rows of a run count, how they are grouped, and what reads the table. -/
structure RunOptions where
  /-- One series for each expected status. -/
  byStatus : Bool
  solvedOnly : Bool
  reader : TableReader := readTable

/-- The table of a run. -/
def readRun (reader : TableReader) (fs : Files) (run : String) : Except RunError Frame :=
  reader fs (runFile run)

/-- The values of a column that has to be there. -/
def columnOf (t : Frame) (name : String) : Except RunError (List (Option Value)) :=
  match t.column? name with
  | none => .error (.missingColumn name)
  | some column => .ok column

/-- Whether a field holds an answer. -/
def isAnswerValue : Option Value → Bool
  | some (.word s) => isAnswer s
  | _ => false

/-- Keeps the elements whose flag is set. -/
def keepFlagged {α : Type} (flags : List Bool) (as : List α) : List α :=
  ((flags.zip as).filter (·.1)).map (·.2)

/-- A field that was missing shows as a number that is none. -/
def shown (v : Option Value) : Value :=
  v.getD (.real Decimal.notANumber)

/-- What a group of rows is named for when the expected status is missing. -/
def groupOf (v : Option Value) : Value :=
  v.getD (.word "unknown")

/-- Whether one group comes before another: words come last. -/
def groupLe : Value → Value → Bool
  | .whole m, .whole n => m ≤ n
  | .real x, .real y => x ≤ y
  | .truth a, .truth b => a ≤ b
  | .word s, .word t => s ≤ t
  | .word _, _ => false
  | _, _ => true

/-- Whether two rows belong to the same group: numbers as numbers, all else by the text. -/
def sameGroup : Value → Value → Bool
  | .real x, .real y => x == y
  | v, w => v.text == w.text

/-- The groups that occur, each once as it came first. -/
def distinctGroups : List Value → List Value
  | [] => []
  | v :: rest => v :: (distinctGroups rest).filter (!sameGroup v ·)

/-- Times by label, in the order in which the labels came. -/
abbrev Series := List (String × List Value)

namespace Series

/-- Puts times under a label; a label that is there keeps its place. -/
def put (label : String) (times : List Value) : Series → Series
  | [] => [(label, times)]
  | (l, old) :: rest => if l = label then (l, times) :: rest else (l, old) :: put label times rest

/-- Adds series for the groups of the rows. -/
def putGroups (name : String) (groups : List Value) (times : List Value) (s : Series) : Series :=
  ((distinctGroups groups).mergeSort groupLe).foldl
    (fun s group =>
      s.put (name ++ " " ++ group.text) (keepFlagged (groups.map (sameGroup group)) times))
    s

/-- Adds the times of a run. Where there is nothing to group, the times are not looked for. -/
def addRun (fs : Files) (options : RunOptions) (s : Series) (run : String) : Except RunError Series := do
  let t ← readRun options.reader fs run
  let keep ←
    if options.solvedOnly then
      let statuses ← columnOf t "status"
      pure (keepFlagged (statuses.map isAnswerValue))
    else pure id
  if options.byStatus then
    let expected ← columnOf t "expected_status"
    let groups := (keep expected).map groupOf
    if groups.isEmpty then return s
    let times ← columnOf t "wall_time_s"
    return s.putGroups (runName run) groups ((keep times).map shown)
  else
    let times ← columnOf t "wall_time_s"
    return s.put (runName run) ((keep times).map shown)

end Series

end SatSearch
