import SatSearch.Cnf
import SatSearch.Proofs.Assignment

/-!
# Satisfiable live clauses

`Valuation.live` is the truth of a live clause: it is decided true or holds an untouched literal that
is true. Places that were resolved before count as false, and the literal 0, which is its own
negation, counts as true (`Valuation.untouched`). Making a true literal true changes no truth
(`live_assign`), so propagation keeps satisfiability (`satisfiable_under_unitLiterals`) and branching
splits it into two cases (`satisfiable_iff_branch`).
-/

namespace SatSearch

namespace Valuation

/-- The truth of an untouched literal. The literal 0 is true under every valuation. -/
def untouched (v : Valuation) (l : Literal) : Bool :=
  l == 0 || v.literal l

/-- The truth of a live clause. -/
def live (v : Valuation) (c : Clause) : Bool :=
  c.isSatisfied || c.unassigned.any v.untouched

/-! ### Literals -/

theorem untouched_or_untouched_neg (v : Valuation) (l : Int) :
    v.untouched l = true ∨ v.untouched (-l) = true := by
  rcases Int.lt_trichotomy l 0 with h | rfl | h
  · have hl : ¬ 0 < l := by omega
    have hn : 0 < -l := by omega
    cases hv : v l.natAbs <;> simp only [untouched, literal, Int.natAbs_neg, hl, hn, hv] <;> simp
  · exact .inl rfl
  · have hn : ¬ 0 < -l := by omega
    cases hv : v l.natAbs <;> simp only [untouched, literal, Int.natAbs_neg, h, hn, hv] <;> simp

/-- Only the literal 0 is true together with its negation. -/
theorem eq_zero_of_untouched_neg {v : Valuation} {l : Int} (h : v.untouched l = true)
    (hn : v.untouched (-l) = true) : l = 0 := by
  by_contra h0
  have hn0 : -l ≠ 0 := by omega
  simp only [untouched, literal, Int.natAbs_neg, Bool.or_eq_true, beq_iff_eq, h0, hn0,
    false_or] at h hn
  rw [h, decide_eq_decide] at hn
  have hsign : (0 : Int) < l ↔ (0 : Int) < -l := hn
  omega

/-- A valuation can be changed at one variable so that a literal becomes true. -/
theorem exists_untouched (v : Valuation) (l : Literal) :
    ∃ w : Valuation, w.untouched l = true ∧
      ∀ m : Literal, m.natAbs ≠ l.natAbs → w.untouched m = v.untouched m := by
  refine ⟨v.set l.natAbs (decide (0 < l)), ?_, ?_⟩
  · simp [untouched, literal, set]
  · intro m hm
    simp [untouched, literal, set, hm]

/-! ### Clauses -/

theorem live_iff (v : Valuation) (c : Clause) :
    v.live c = true ↔ c.isSatisfied = true ∨ ∃ l ∈ c.unassigned, v.untouched l = true := by
  rw [live, Bool.or_eq_true, List.any_eq_true]

theorem live_congr {v w : Valuation} {c : Clause}
    (h : ∀ l ∈ c.unassigned, w.untouched l = v.untouched l) : w.live c = v.live c := by
  rw [Bool.eq_iff_iff, live_iff, live_iff]
  apply or_congr_right
  apply exists_congr
  intro l
  apply and_congr_right
  intro hl
  rw [h l hl]

/-- Making a true literal true does not change the truth of a clause. -/
theorem live_assign {v : Valuation} {l : Literal} (h : v.untouched l = true) (c : Clause) :
    v.live (c.assign l true) = v.live c := by
  rw [Bool.eq_iff_iff, live_iff, live_iff, Clause.isSatisfied_assign]
  constructor
  · rintro ((hc | hl) | ⟨m, hm, hv⟩)
    · exact .inl hc
    · exact .inr ⟨l, hl, h⟩
    · exact .inr ⟨m, ((c.mem_unassigned_assign l m).1 hm).1, hv⟩
  · rintro (hc | ⟨m, hm, hv⟩)
    · exact .inl (.inl hc)
    by_cases hl : l ∈ c.unassigned
    · exact .inl (.inr hl)
    have hml : m ≠ l := fun e => hl (e ▸ hm)
    have hmn : m ≠ -l := by
      rintro rfl
      have h0 := eq_zero_of_untouched_neg h hv
      exact hml (by rw [h0]; rfl)
    refine .inr ⟨m, (c.mem_unassigned_assign l m).2 ⟨hm, hl, ?_⟩, hv⟩
    rw [Ne, Int.natAbs_eq_natAbs_iff, not_or]
    exact ⟨hml, hmn⟩

theorem live_under {v : Valuation} {trail : List Literal}
    (h : ∀ l ∈ trail, v.untouched l = true) (c : Clause) : v.live (c.under trail) = v.live c := by
  induction trail with
  | nil => rfl
  | cons l older ih =>
    rw [Clause.under, live_assign (h l List.mem_cons_self)]
    apply ih
    intro m hm
    exact h m (List.mem_cons_of_mem l hm)

theorem untouched_of_unit? {v : Valuation} {c : Clause} {l : Literal} (h : c.unit? = some l)
    (hv : v.live c = true) : v.untouched l = true := by
  have hu := Clause.unassigned_of_unit? h
  rcases (live_iff v c).1 hv with hc | ⟨m, hm, hvm⟩
  · cases c <;> simp_all [Clause.isSatisfied, Clause.unassigned]
  · rw [hu, List.mem_singleton] at hm
    exact hm ▸ hvm

/-- A valuation of the clauses makes every literal true that a pass of propagation makes true. -/
theorem untouched_of_mem_unitLiterals {v : Valuation} {trail : List Literal} {cs : List Clause}
    (ht : ∀ l ∈ trail, v.untouched l = true) (hcs : ∀ c ∈ cs, v.live c = true) :
    ∀ l ∈ unitLiterals trail cs, v.untouched l = true := by
  induction cs generalizing trail with
  | nil => exact ht
  | cons c cs ih =>
    have hrest : ∀ d ∈ cs, v.live d = true := by
      intro d hd
      exact hcs d (List.mem_cons_of_mem c hd)
    rw [unitLiterals]
    split
    · next l hl =>
      have hc : v.live (c.under trail) = true := by
        rw [live_under ht]
        exact hcs c List.mem_cons_self
      exact ih (List.forall_mem_cons.2 ⟨untouched_of_unit? hl hc, ht⟩) hrest
    · exact ih ht hrest

end Valuation

/-! ### Clause lists -/

/-- Some valuation makes every live clause true. -/
def Satisfiable (cs : List Clause) : Prop :=
  ∃ v : Valuation, ∀ c ∈ cs, v.live c = true

theorem satisfiable_of_isSatisfied {cs : List Clause} (h : cs.all Clause.isSatisfied = true) :
    Satisfiable cs := by
  refine ⟨fun _ => false, ?_⟩
  intro c hc
  rw [Valuation.live_iff]
  exact .inl (List.all_eq_true.1 h c hc)

theorem not_satisfiable_of_isFalsified {cs : List Clause} (h : cs.any Clause.isFalsified = true) :
    ¬ Satisfiable cs := by
  rintro ⟨v, hv⟩
  obtain ⟨c, hc, hf⟩ := List.any_eq_true.1 h
  have hc := hv c hc
  cases c <;> simp_all [Clause.isFalsified, Valuation.live, Clause.isSatisfied, Clause.unassigned]

theorem satisfiable_assign_of_untouched {cs : List Clause} {v : Valuation} {l : Literal}
    (hl : v.untouched l = true) (h : ∀ c ∈ cs, v.live c = true) :
    Satisfiable (cs.map (Clause.assign l true)) := by
  refine ⟨v, List.forall_mem_map.2 ?_⟩
  intro c hc
  rw [Valuation.live_assign hl]
  exact h c hc

/-- A valuation after an assignment can be changed to make the literal true, since its variable
no longer occurs. -/
theorem satisfiable_of_assign {cs : List Clause} {l : Literal}
    (h : Satisfiable (cs.map (Clause.assign l true))) : Satisfiable cs := by
  obtain ⟨v, hv⟩ := h
  obtain ⟨w, hw, hagree⟩ := v.exists_untouched l
  refine ⟨w, ?_⟩
  intro c hc
  rw [← Valuation.live_assign hw, Valuation.live_congr (v := v)]
  · exact List.forall_mem_map.1 hv c hc
  · intro m hm
    exact hagree m ((c.mem_unassigned_assign l m).1 hm).2.2

theorem satisfiable_iff_branch (cs : List Clause) (l : Literal) :
    Satisfiable cs ↔
      Satisfiable (cs.map (Clause.assign l true)) ∨ Satisfiable (cs.map (Clause.assign (-l) true)) := by
  constructor
  · rintro ⟨v, hv⟩
    rcases v.untouched_or_untouched_neg l with hl | hl
    · exact .inl (satisfiable_assign_of_untouched hl hv)
    · exact .inr (satisfiable_assign_of_untouched hl hv)
  · rintro (h | h) <;> exact satisfiable_of_assign h

theorem satisfiable_of_under {cs : List Clause} {trail : List Literal}
    (h : Satisfiable (cs.map (Clause.under trail))) : Satisfiable cs := by
  induction trail with
  | nil => rwa [show cs.map (Clause.under []) = cs from List.map_id cs] at h
  | cons l older ih =>
    rw [map_under_cons] at h
    exact ih (satisfiable_of_assign h)

theorem satisfiable_under_unitLiterals (cs : List Clause) :
    Satisfiable (cs.map (Clause.under (unitLiterals [] cs))) ↔ Satisfiable cs := by
  constructor
  · exact satisfiable_of_under
  · rintro ⟨v, hv⟩
    have hunits := Valuation.untouched_of_mem_unitLiterals (List.forall_mem_nil _) hv
    refine ⟨v, List.forall_mem_map.2 ?_⟩
    intro c hc
    rw [Valuation.live_under hunits]
    exact hv c hc

end SatSearch
