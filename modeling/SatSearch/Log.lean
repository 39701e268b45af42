/-!
# Log lines

What the search and the reader report goes into a log. Each line carries a level; a logger shows the lines
at or above its threshold.
-/

namespace SatSearch

/-- The levels of log lines. -/
inductive Level where
  | debug
  | info
  | warning
  | error
deriving DecidableEq

namespace Level

/-- The rank that thresholds are compared with. -/
def rank : Level → Nat
  | debug => 10
  | info => 20
  | warning => 30
  | error => 40

/-- The word that stands for a level in the log. -/
def text : Level → String
  | debug => "DEBUG"
  | info => "INFO"
  | warning => "WARNING"
  | error => "ERROR"

end Level

/-- A line of the log. -/
structure LogLine where
  level : Level
  message : String
deriving DecidableEq

/-- The lines that a logger with this threshold shows, each ended by a line feed. -/
def showLog (threshold : Nat) (log : List LogLine) : String :=
  String.join ((log.filter (threshold ≤ ·.level.rank)).map fun line =>
    line.level.text ++ ": " ++ line.message ++ "\n")

end SatSearch
