import SatSearch.Bench.Row
import SatSearch.Decimal.Fixed

/-!
# Summaries of results

A summary compares the expected answers with those found, if some are known, and gives the mean time of the
instances with each answer.
-/

namespace SatSearch

/-- A number of seconds, or a share, with three places. -/
def threePlaces (x : Float) : String :=
  Decimal.fixed 3 x

/-- The sum of numbers, from left to right. -/
def sum (xs : List Float) : Float :=
  xs.foldl (· + ·) 0.0

/-- The rows whose answer was known beforehand. -/
def labelled (rows : List Row) : List Row :=
  rows.filter Row.isLabelled

/-- The number of rows whose status is the expected one. -/
def correctCount (rows : List Row) : Nat :=
  (labelled rows).countP fun r => r.expected == some r.status

/-- The number of rows with this expected answer and this outcome. -/
def confusion (rows : List Row) (expected : Status) (o : Outcome) : Nat :=
  (labelled rows).countP fun r => r.expected == some expected.text && r.hasOutcome o

/-- The line with the share of correct answers. -/
def accuracyLine (rows : List Row) : String :=
  let correct := correctCount rows
  let total := (labelled rows).length
  s!"Labeled accuracy: {correct}/{total} = " ++ threePlaces (correct.toFloat / total.toFloat)

/-- The line with the outcomes of the rows with this expected answer. -/
def confusionLine (rows : List Row) (expected : Status) : String :=
  "Expected " ++ expected.text ++ ": predicted " ++
    ", ".intercalate (Outcome.all.map fun o => s!"{o.text}={confusion rows expected o}")

/-- The times of the rows with this answer. -/
def timesOf (rows : List Row) (s : Status) : List Float :=
  (rows.filter (Row.hasOutcome (.answered s))).map (·.wallTime)

/-- The line with the mean time of the rows with this answer, if there are any. -/
def meanLine (rows : List Row) (s : Status) : List String :=
  match timesOf rows s with
  | [] => []
  | times =>
    ["Mean time (predicted " ++ s.text ++ "): " ++ threePlaces (sum times / times.length.toFloat) ++
      s!"s over {times.length} instances"]

/-- The lines of the summary. -/
def summary (rows : List Row) : List String :=
  (if (labelled rows).isEmpty then []
    else accuracyLine rows :: [Status.sat, Status.unsat].map (confusionLine rows)) ++
    [Status.sat, Status.unsat].flatMap (meanLine rows)

end SatSearch
