import SatSearch.Enumeration
import SatSearch.Proofs.Formula
import SatSearch.Proofs.Variables

/-!
# Search and enumeration agree

Enumeration tries the valuations of the variables that occur. That is enough: the truth of a formula
depends on no other variable (`Valuation.cnf_congr`). Main statement: the search for a formula gives the
answer of the enumeration (`Cnf.solve_eq_enumerate`).
-/

namespace SatSearch

theorem Status.eq_of_sat_iff {a b : Status} (h : a = .sat ↔ b = .sat) : a = b := by
  cases a <;> cases b <;> simp_all

/-- The truth of a formula depends on the variables that occur only. -/
theorem Valuation.cnf_congr {v w : Valuation} {f : Cnf} (h : ∀ x ∈ f.variables, w x = v x) :
    w.cnf f = v.cnf f := by
  rw [Bool.eq_iff_iff, cnf_iff, cnf_iff]
  refine forall₂_congr fun c hc => ?_
  rw [clause, clause, List.any_eq_true, List.any_eq_true]
  refine exists_congr fun l => and_congr_right fun hl => ?_
  rw [literal, literal, h l.natAbs (Cnf.mem_variables.2 ⟨c, hc, l, hl, rfl⟩)]

/-! ### Enumeration -/

/-- Enumeration finds a valuation among those that agree with the given one on all other variables. -/
theorem existsValuation_iff (p : Valuation → Bool) (xs : List Nat) (v : Valuation) :
    existsValuation p xs v = true ↔ ∃ w : Valuation, (∀ x, x ∉ xs → w x = v x) ∧ p w = true := by
  induction xs generalizing v with
  | nil =>
    constructor
    · intro hp
      exact ⟨v, fun x _ => rfl, hp⟩
    · rintro ⟨w, hw, hp⟩
      obtain rfl : w = v := funext fun x => hw x List.not_mem_nil
      exact hp
  | cons x xs ih =>
    rw [existsValuation, Bool.or_eq_true, ih, ih]
    constructor
    · rintro (⟨w, hw, hp⟩ | ⟨w, hw, hp⟩)
      all_goals
        refine ⟨w, ?_, hp⟩
        intro y hy
        rw [List.mem_cons, not_or] at hy
        rw [hw y hy.2, Valuation.set, if_neg hy.1]
    · rintro ⟨w, hw, hp⟩
      have hset : ∀ y, y ∉ xs → w y = v.set x (w x) y := by
        intro y hy
        by_cases hyx : y = x
        · rw [hyx, Valuation.set, if_pos rfl]
        · rw [Valuation.set, if_neg hyx]
          exact hw y (by simp [hyx, hy])
      cases hx : w x with
      | false => exact .inl ⟨w, hx ▸ hset, hp⟩
      | true => exact .inr ⟨w, hx ▸ hset, hp⟩

namespace Cnf

theorem enumerate_eq_sat_iff (f : Cnf) : f.enumerate = .sat ↔ f.Satisfiable := by
  have hfind : f.enumerate = .sat ↔
      existsValuation (·.cnf f) f.variables (fun _ => false) = true := by
    rw [enumerate]
    split_ifs with h
    · exact iff_of_true rfl h
    · exact iff_of_false (by decide) h
  rw [hfind, existsValuation_iff]
  constructor
  · rintro ⟨w, -, hw⟩
    exact ⟨w, hw⟩
  · rintro ⟨v, hv⟩
    -- The variables that do not occur may be false.
    refine ⟨fun x => if x ∈ f.variables then v x else false, ?_, ?_⟩
    · intro x hx
      exact if_neg hx
    · show Valuation.cnf _ f = true
      rw [Valuation.cnf_congr (v := v), hv]
      intro x hx
      exact if_pos hx

/-- The search and the enumeration give the same answer, for every formula. -/
theorem solve_eq_enumerate (f : Cnf) : f.solve = .answered f.enumerate := by
  obtain ⟨status, hsolve, hstatus⟩ := f.exists_answer
  rw [← f.enumerate_eq_sat_iff] at hstatus
  rw [hsolve, Status.eq_of_sat_iff hstatus]

end Cnf

end SatSearch
