import SatSearch.Cnf
import SatSearch.Status

/-!
# Deciding by enumeration

`Cnf.enumerate` tries every valuation of the variables of a formula. It is only meant for small formulas
and shares nothing with the search.
-/

namespace SatSearch

/-- Whether `p` holds of a valuation that agrees with `v` outside the given variables. -/
def existsValuation (p : Valuation → Bool) : List Nat → Valuation → Bool
  | [], v => p v
  | x :: xs, v => existsValuation p xs (v.set x false) || existsValuation p xs (v.set x true)

/-- The answer for a formula, by trying every valuation of its variables. -/
def Cnf.enumerate (f : Cnf) : Status :=
  if existsValuation (·.cnf f) f.variables (fun _ => false) then .sat else .unsat

end SatSearch
