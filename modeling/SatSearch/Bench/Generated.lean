import SatSearch.Bench.Instance
import SatSearch.Decimal.Fixed
import SatSearch.Enumeration
import SatSearch.Generate.Pigeonhole
import SatSearch.Generate.RandomCnf

/-!
# Generated instances

Random formulas with three literals a clause are labelled by enumeration if they have few variables.
Pigeonhole formulas with one pigeon too many are known to be unsatisfiable.
-/

namespace SatSearch

variable {σ : Type}

/-- The number of clauses for a number of variables: the nearest integer to the ratio times it, a half to
the even one, and at least one. -/
def clauseCountFor (variableCount : Int) (ratio : Float) : Except GenerationError Int :=
  let count := Float.ofInt variableCount
  if count.isInf then .error .tooManyVariables
  else
    match Decimal.roundToInt (count * ratio) with
    | .ok n => .ok (max 1 n)
    | .error .infinite => .error .infiniteRatio
    | .error .notANumber => .error .ratioNotANumber

/-- A random formula as an instance, the `number`-th of its kind. -/
def randomInstance (variableCount clauseCount labelLimit : Int) (number : Nat) (f : Cnf) : Instance :=
  { name := s!"random_v{variableCount}_c{clauseCount}_{number}"
    source := "random"
    load := .ofCnf f
    expected := if variableCount ≤ labelLimit then some f.enumerate.text else none }

/-- Random instances; those with at most `labelLimit` variables are labelled. -/
def randomInstances (draws : Draws σ) (count variableCount : Int) (ratio : Float) (labelLimit : Int) :
    Draw σ (List Instance) := do
  let clauseCount ← clauseCountFor variableCount ratio
  (List.range count.toNat).mapM fun i => do
    let f ← randomCnf draws variableCount clauseCount 3
    return randomInstance variableCount clauseCount labelLimit (i + 1) f

/-- The instance with `holes + 1` pigeons. -/
def pigeonholeInstance (holes : Int) : Instance :=
  { name := s!"php_{holes + 1}_{holes}"
    source := "pigeonhole"
    load := .ofCnf (pigeonhole (holes + 1).toNat holes.toNat)
    expected := some Status.unsat.text }

/-- The instances with these numbers of holes. -/
def pigeonholeInstances (sizes : List Int) : Except GenerationError (List Instance) :=
  if sizes.any fun holes => Text.hasLongText (holes + 1) || Text.hasLongText holes then .error .nameTooLong
  else .ok (sizes.map pigeonholeInstance)

end SatSearch
