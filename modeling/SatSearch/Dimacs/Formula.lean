import SatSearch.Cnf
import SatSearch.Text.Utf8

/-!
# Formulas in DIMACS form

A DIMACS text declares the number of variables and of clauses in a header and then lists the clauses.
`Formula` is what such a text says; `Error` is why a text is refused.
-/

namespace SatSearch.Dimacs

/-- The two numbers that a header declares. -/
structure Header where
  variableCount : Int
  clauseCount : Int
deriving DecidableEq

/-- What a DIMACS text says. -/
structure Formula extends Header where
  clauses : Cnf
  /-- The variables that occur, in ascending order, each once. -/
  «variables» : List Nat
deriving DecidableEq

/-- The clauses to start a search from. -/
def Formula.toClauses (f : Formula) : List Clause :=
  f.clauses.map Clause.ofLiterals

/-- Why a text or a file is refused. -/
inductive Error where
  /-- There is no header, or it does not declare two integers. -/
  | malformed
  /-- The first line is no header of a formula in conjunctive normal form. -/
  | notCnf (line : String)
  /-- A word of a clause is no integer. -/
  | notANumber (word : String)
  /-- The header declares another number of clauses. -/
  | clauseCount (declared : Int) (found : Nat)
  /-- The header declares another number of variables. -/
  | variableCount (declared : Int) (found : Nat)
  | notText (error : Text.Utf8Error)
deriving DecidableEq

/-- The text that reports an error. -/
def Error.message : Error → String
  | malformed => "Invalid input. Make sure it is in DIMACS format"
  | notCnf line => "Invalid input. Expected \"p cnf\". Got: " ++ line
  | notANumber word => "Invalid input. Expected a number. Got: " ++ word
  | clauseCount declared found =>
    s!"Invalid input. Expected {declared} clauses, got {found} clauses."
  | variableCount declared found =>
    s!"Invalid input. Expected {declared} variables, got {found} variables."
  | notText e => s!"Invalid input. Not a text file: {e.fault.text} at byte {e.offset}"

end SatSearch.Dimacs
