import SatSearch.Log
import SatSearch.Text.Quoted
import SatSearch.Text.UpperCase

/-!
# Choosing what the log shows

The threshold of the log is chosen by the name of a level, in upper or lower case: the name given as an
argument, else the one in the environment, else `WARNING`.
-/

namespace SatSearch

/-- The names of thresholds with their ranks. -/
def thresholds : List (String × Nat) :=
  [("CRITICAL", 50), ("FATAL", 50), ("ERROR", 40), ("WARN", 30), ("WARNING", 30), ("INFO", 20),
   ("DEBUG", 10), ("NOTSET", 0)]

/-- A name, in upper case, that stands for no threshold. -/
structure UnknownLevel where
  name : String
deriving DecidableEq

/-- The text that reports an unknown level. -/
def UnknownLevel.message (e : UnknownLevel) : String :=
  "Unknown level: " ++ Text.quoted e.name

/-- The threshold of a log for which nothing was chosen. -/
def defaultThreshold : Nat := Level.rank .warning

/-- The name that decides: the argument unless it is empty, else the one in the environment. -/
def levelName (argument environment : Option String) : String :=
  match argument.filter (· ≠ "") with
  | some name => name
  | none => environment.getD (Level.text .warning)

/-- The threshold that argument and environment choose. -/
def chooseThreshold (argument environment : Option String) : Except UnknownLevel Nat :=
  let name := Text.upper (levelName argument environment)
  match thresholds.lookup name with
  | some rank => .ok rank
  | none => .error { name }

end SatSearch
