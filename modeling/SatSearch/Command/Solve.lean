import SatSearch.Command.Arguments
import SatSearch.Command.Result
import SatSearch.Decimal.Fixed
import SatSearch.Dimacs.Log

/-!
# Solving a file

`solveFile` reads a formula, searches, and prints the answer with the times that reading and searching took.
-/

namespace SatSearch

/-- What reading the file of a formula leads to. -/
inductive Reading where
  | formula (f : Dimacs.Formula)
  | refused (message : String)
  | failed (error : FileError)

/-- Reads a formula from what stands in a file. -/
def readFormula : Except FileError (List UInt8) → Reading
  | .error .zeroCharacter => .failed .zeroCharacter
  | .error e => .refused e.message
  | .ok bytes =>
    match Dimacs.parseFile bytes with
    | .ok f => .formula f
    | .error e => .refused e.message

/-- What reading a formula reports. -/
def readingLog : Except FileError (List UInt8) → List LogLine
  | .ok bytes => Dimacs.fileLog bytes
  | .error _ => []

/-- A number of seconds with six places. -/
def sixPlaces (x : Float) : String :=
  Decimal.fixed 6 x ++ " seconds"

/-- The lines with the counters of a search. -/
def counterLines (cs : Counters) : List String :=
  Counter.all.map fun c => s!"{c.text}: {cs.get c}"

/-- The lines that the command prints, for the times before reading, before and after the search. -/
def answerLines (status : Status) (cs : Counters) (stats : Bool) (started parsed solved : Float) :
    List String :=
  ["Finished with result: " ++ status.text,
   "Parsed in: " ++ sixPlaces (parsed - started),
   "Solved in: " ++ sixPlaces (solved - parsed),
   "Total time: " ++ sixPlaces (solved - started)] ++ if stats then counterLines cs else []

/-- The status a run answered with. -/
def Run.status (r : Run) : Except CommandError Status :=
  match r.ending with
  | .answered s => .ok s
  | .stuck e => .error (.search e)
  | .expired => .error .expired

/-- The result for a file that is refused with a message. -/
def refusedResult (fs : Files) (threshold : Nat) (log : List LogLine) (message : String) : CommandResult :=
  { exit := 1
    stdout := ""
    stderr := showLog threshold log ++ unlines ["error: " ++ message]
    files := fs
    alarms := []
    drawings := [] }

/-- The result for a file whose formula was searched. -/
def solvedResult (fs : Files) (threshold : Nat) (log : List LogLine) (run : Run) (stats : Bool)
    (started parsed solved : Float) : Except Aborted CommandResult :=
  (orAbort [] id run.status).map fun status =>
    { exit := 0
      stdout := unlines (answerLines status run.state.counters stats started parsed solved)
      stderr := showLog threshold (log ++ run.log)
      files := fs
      alarms := []
      drawings := [] }

/-- Solves the formula in a file. -/
def solveFile (w : World) (a : SolveArguments) : Except Aborted CommandResult := do
  let threshold ← orAbort [] .level (chooseThreshold a.logLevel w.levelVariable)
  let content := w.files.read a.file
  let log := readingLog content
  let (started, s) := w.surroundings.readClock
  match readFormula content with
  | .failed e => throw { error := .file e, stdout := "" }
  | .refused message => return refusedResult w.files threshold log message
  | .formula f =>
    let (parsed, s) := s.readClock
    let run := (State.initial f.toClauses).search none
    let (solved, _) := s.readClock
    solvedResult w.files threshold log run a.stats started parsed solved

end SatSearch
