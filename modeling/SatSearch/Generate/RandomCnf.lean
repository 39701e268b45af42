import SatSearch.Clause
import SatSearch.Random.Draw

/-!
# Random formulas

`randomCnf` draws clauses with `k` different variables each and a random sign for every variable.
-/

namespace SatSearch

variable {σ : Type}

/-- A variable with a random sign. -/
def randomSign (draws : Draws σ) (x : Int) : Draw σ Literal := do
  let r ← draws.unit
  return if r < 0.5 then x else -x

/-- A clause: its variables are drawn first, then their signs. -/
def randomClause (draws : Draws σ) (variableCount k : Int) : Draw σ (List Literal) := do
  let chosen ← draws.sample variableCount k
  chosen.mapM (randomSign draws)

/-- A formula with `clauseCount` clauses over the variables from one to `variableCount`. -/
def randomCnf (draws : Draws σ) (variableCount clauseCount k : Int) : Draw σ Cnf := do
  if variableCount < k then throw (.tooFewVariables k variableCount)
  (List.replicate clauseCount.toNat ()).mapM fun _ => randomClause draws variableCount k

end SatSearch
