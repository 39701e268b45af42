import SatSearch.Status

/-!
# Results of runs

A `Row` records how one instance was solved. Its status is the text of an `Outcome`; rows that come from
elsewhere may hold any text there.
-/

namespace SatSearch

/-- How solving an instance ends. -/
inductive Outcome where
  | answered (status : Status)
  | timeout
  | error
deriving DecidableEq

namespace Outcome

/-- All outcomes, in the order in which reports list them. -/
def all : List Outcome :=
  [answered .sat, answered .unsat, timeout, error]

/-- The word that reports use for an outcome. -/
def text : Outcome → String
  | answered s => s.text
  | timeout => "TIMEOUT"
  | error => "ERROR"

end Outcome

/-- The result for one instance. -/
structure Row where
  name : String
  source : String
  variableCount : Int
  clauseCount : Int
  status : String
  /-- The seconds it took. -/
  wallTime : Float
  decisions : Int
  unitPropagations : Int
  backtracks : Int
  maxDepth : Int
  /-- What went wrong, empty if nothing did. -/
  error : String
  expected : Option String
  isCorrect : Option Bool

/-- Whether a text is the word of an answer. -/
def isAnswer (s : String) : Bool :=
  s == Status.sat.text || s == Status.unsat.text

namespace Row

/-- Whether the run ended with an answer. -/
def isSolved (r : Row) : Bool :=
  isAnswer r.status

/-- Whether the answer was known beforehand. -/
def isLabelled (r : Row) : Bool :=
  r.expected.any isAnswer

/-- Whether the run ended with this outcome. -/
def hasOutcome (o : Outcome) (r : Row) : Bool :=
  r.status == o.text

end Row

end SatSearch
