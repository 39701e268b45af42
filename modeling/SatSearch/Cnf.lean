import SatSearch.Clause

/-!
# Formulas in conjunctive normal form

`Cnf.variables` lists the variables of a formula in ascending order, each once. A valuation gives every
variable a truth value; `Valuation.cnf` says whether a formula is true under one.
-/

namespace SatSearch

/-- Drops every element that equals the one after it. -/
def dropRepeats : List Nat → List Nat
  | a :: b :: rest => if a = b then dropRepeats (b :: rest) else a :: dropRepeats (b :: rest)
  | s => s

/-- The numbers of a list in ascending order, each once. -/
def sortedDistinct (ns : List Nat) : List Nat :=
  dropRepeats (ns.mergeSort (· ≤ ·))

/-- The variables of a formula in ascending order, each once. -/
def Cnf.variables (f : Cnf) : List Nat :=
  sortedDistinct (f.flatMap (List.map Int.natAbs))

/-- A truth value for every variable. -/
abbrev Valuation := Nat → Bool

namespace Valuation

/-- The valuation with one variable changed. -/
def set (v : Valuation) (x : Nat) (truth : Bool) : Valuation :=
  fun y => if y = x then truth else v y

/-- The truth of a literal. Only a positive literal asks for its variable to be true. -/
def literal (v : Valuation) (l : Literal) : Bool :=
  v l.natAbs == decide (0 < l)

/-- The truth of a clause. -/
def clause (v : Valuation) (c : List Literal) : Bool :=
  c.any v.literal

/-- The truth of a formula. -/
def cnf (v : Valuation) (f : Cnf) : Bool :=
  f.all v.clause

end Valuation

end SatSearch
