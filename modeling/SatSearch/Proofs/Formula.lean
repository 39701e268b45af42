import SatSearch.Proofs.Answer
import SatSearch.Proofs.Stuck

/-!
# Solving formulas

The live clauses that a search for a formula starts from are satisfiable when the formula is true under
some valuation (`satisfiable_ofLiterals_iff`). The two readings of the literal 0 do not differ here: in a
live clause it is true, in a formula it is true when the variable 0 is false, and as no other literal
has that variable it may be false (`Valuation.literal_set_zero`). Main statement: the search for a
formula answers, and rightly (`Cnf.exists_answer`).
-/

namespace SatSearch

/-- Some valuation makes the formula true. -/
def Cnf.Satisfiable (f : Cnf) : Prop :=
  ∃ v : Valuation, v.cnf f = true

namespace Valuation

theorem cnf_iff (v : Valuation) (f : Cnf) : v.cnf f = true ↔ ∀ c ∈ f, v.clause c = true :=
  List.all_eq_true

theorem literal_set_zero (v : Valuation) (l : Literal) : (v.set 0 false).literal l = v.untouched l := by
  by_cases h : l = 0
  · subst h
    rfl
  · have habs : l.natAbs ≠ 0 := Int.natAbs_ne_zero.2 h
    simp [literal, untouched, set, h, habs]

theorem untouched_of_literal {v : Valuation} {l : Literal} (h : v.literal l = true) :
    v.untouched l = true := by
  rw [untouched, h, Bool.or_true]

/-- A clause that nothing was done with is true when one of its literals is. -/
theorem live_ofLiterals (v : Valuation) (ls : List Literal) :
    v.live (Clause.ofLiterals ls) = ls.any v.untouched := by
  cases ls with
  | nil => rfl
  | cons l ls =>
    have hopen : (Clause.ofLiterals (l :: ls)).unassigned = l :: ls := by
      simp [Clause.ofLiterals, Clause.ofElements, Clause.unassigned, List.filterMap_map,
        Function.comp_def, Element.literal?]
    rw [live, hopen]
    rfl

end Valuation

theorem satisfiable_ofLiterals_iff (f : Cnf) :
    Satisfiable (f.map Clause.ofLiterals) ↔ f.Satisfiable := by
  constructor
  · rintro ⟨v, hv⟩
    -- With the variable 0 false, the literal 0 is true in the formula too.
    refine ⟨v.set 0 false, (Valuation.cnf_iff _ f).2 ?_⟩
    intro c hc
    have hlive := List.forall_mem_map.1 hv c hc
    rw [Valuation.live_ofLiterals] at hlive
    rwa [Valuation.clause, funext v.literal_set_zero]
  · rintro ⟨v, hv⟩
    refine ⟨v, List.forall_mem_map.2 ?_⟩
    intro c hc
    obtain ⟨l, hl, htrue⟩ := List.any_eq_true.1 ((Valuation.cnf_iff v f).1 hv c hc)
    rw [Valuation.live_ofLiterals]
    exact List.any_eq_true.2 ⟨l, hl, Valuation.untouched_of_literal htrue⟩

namespace Cnf

/-- The search for a formula always answers, and its answer is right. -/
theorem exists_answer (f : Cnf) :
    ∃ status, f.solve = .answered status ∧ (status = .sat ↔ f.Satisfiable) := by
  rcases Search.answered_or_stuck (State.initial (f.map Clause.ofLiterals)) with ⟨status, h⟩ | ⟨e, h⟩
  · refine ⟨status, h, ?_⟩
    rw [(recurses_search _).sat_iff h]
    exact satisfiable_ofLiterals_iff f
  · exact absurd h (f.solve_ne_stuck e)

end Cnf

end SatSearch
