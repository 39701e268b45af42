import SatSearch.Bench.Measure
import SatSearch.Chart
import SatSearch.Compare.Runs
import SatSearch.LogThreshold
import SatSearch.Random.Draw

/-!
# What commands need and leave

A command starts from a `World` and leaves a `CommandResult`, or it breaks off (`Aborted`).
-/

namespace SatSearch

/-- What a command finds. -/
structure World where
  files : Files
  surroundings : Surroundings
  /-- The level of the log that the environment names. -/
  levelVariable : Option String

/-- What a command leaves. -/
structure CommandResult where
  exit : Nat
  stdout : String
  stderr : String
  files : Files
  alarms : List Int
  drawings : List Drawing

/-- Why a command breaks off. -/
inductive CommandError where
  | level (error : UnknownLevel)
  | file (error : FileError)
  | generation (error : GenerationError)
  | run (error : RunError)
  | search (error : SearchError)
  /-- The time of a search that has no limit was over. -/
  | expired

/-- The text that reports why a command broke off. -/
def CommandError.message : CommandError → String
  | level e => e.message
  | file e => e.message
  | generation e => e.message
  | run e => e.message
  | search e => e.message
  | expired => ""

/-- The end of a command that broke off, and what it had printed. -/
structure Aborted where
  error : CommandError
  stdout : String

/-- Lines as text. -/
def unlines (lines : List String) : String :=
  String.join (lines.map (· ++ "\n"))

/-- Lets a command break off that had printed some lines. -/
def orAbort {ε α : Type} (stdout : List String) (wrap : ε → CommandError) (x : Except ε α) :
    Except Aborted α :=
  x.mapError fun e => { error := wrap e, stdout := unlines stdout }

end SatSearch
