import SatSearch.Clause

/-!
# The pigeonhole principle

`pigeonhole m n` says that `m` pigeons sit in `n` holes, no two of them in one. It cannot be satisfied if
there are more pigeons than holes.
-/

namespace SatSearch

/-- The variable that says pigeon `p` sits in hole `h`, of `holes` holes. -/
def sits (holes p h : Nat) : Literal :=
  p * holes + h + 1

/-- The pairs of numbers below `n`, the smaller one first, in ascending order. -/
def pairsBelow (n : Nat) : List (Nat × Nat) :=
  (List.range n).flatMap fun p => ((List.range n).filter (p < ·)).map fun q => (p, q)

/-- Each pigeon has a hole, and no hole holds two pigeons. -/
def pigeonhole (pigeons holes : Nat) : Cnf :=
  ((List.range pigeons).map fun p => (List.range holes).map (sits holes p)) ++
    (List.range holes).flatMap fun h =>
      (pairsBelow pigeons).map fun (p, q) => [-sits holes p h, -sits holes q h]

end SatSearch
