import Mathlib
import SatSearch.Search.Progress

/-!
# Making literals true

What making a literal true does to a clause is read off two facts: when the clause becomes true
(`isSatisfied_assign`) and which untouched literals it keeps (`mem_unassigned_assign`). A trail is
`Fresh` when every one of its variables was still open when its literal was made true. Main
statements: the variables of a fresh trail are distinct (`Fresh.nodup`), each of them is one open
variable less (`Fresh.card_add_length_le`), and a pass of propagation makes a fresh trail longer
(`Fresh.append_unitLiterals`).
-/

namespace SatSearch

/-! ### One clause -/

namespace Clause

theorem any_satisfiedBy_iff (es : List Element) (l : Literal) :
    es.any (Element.satisfiedBy l true) = true ↔ l ∈ es.filterMap Element.literal? := by
  simp only [List.any_eq_true, List.mem_filterMap]
  refine exists_congr fun e => and_congr_right fun _ => ?_
  cases e with
  | literal m => simp [Element.satisfiedBy, Element.literal?]
  | resolved b => simp [Element.satisfiedBy, Element.literal?]

theorem all_isNone_iff (es : List Element) :
    es.all (·.literal?.isNone) = true ↔ es.filterMap Element.literal? = [] := by
  simp [List.filterMap_eq_nil_iff]

/-- A clause becomes true exactly when it holds the literal untouched. -/
theorem isSatisfied_assign (c : Clause) (l : Literal) :
    (c.assign l true).isSatisfied = true ↔ c.isSatisfied = true ∨ l ∈ c.unassigned := by
  cases c with
  | decided b => simp [assign, isSatisfied, unassigned]
  | undecided es =>
    rw [assign]
    split_ifs with hsat hnone
    · exact iff_of_true rfl (.inr ((any_satisfiedBy_iff es l).1 hsat))
    all_goals
      rw [any_satisfiedBy_iff] at hsat
      simp [isSatisfied, unassigned, hsat]

/-- A clause that stays undecided loses its places of the assigned variable and no others. -/
theorem mem_unassigned_assign (c : Clause) (l m : Literal) :
    m ∈ (c.assign l true).unassigned ↔
      m ∈ c.unassigned ∧ l ∉ c.unassigned ∧ m.natAbs ≠ l.natAbs := by
  have habs : m.natAbs = l.natAbs ↔ m = l ∨ m = -l := Int.natAbs_eq_natAbs_iff
  cases c with
  | decided b => simp [assign, unassigned]
  | undecided es =>
    have hmap := filterMap_literal?_map_assign l true es
    rw [assign]
    split_ifs with hsat hnone
    · rw [any_satisfiedBy_iff] at hsat
      simp [unassigned, hsat]
    · rw [all_isNone_iff, hmap, List.filter_eq_nil_iff] at hnone
      refine iff_of_false (by simp [unassigned]) ?_
      rintro ⟨hm, -, hne⟩
      apply hnone m hm
      simpa [habs, not_or] using hne
    · rw [any_satisfiedBy_iff] at hsat
      simp only [unassigned, hmap, List.mem_filter, Bool.and_eq_true, bne_iff_ne, ne_eq, habs,
        not_or]
      exact and_congr_right fun _ => (and_iff_right hsat).symm

theorem mem_unassigned_under {c : Clause} {trail : List Literal} {m : Literal}
    (h : m ∈ (c.under trail).unassigned) :
    m ∈ c.unassigned ∧ m.natAbs ∉ trail.map Int.natAbs := by
  induction trail with
  | nil => exact ⟨h, List.not_mem_nil⟩
  | cons l older ih =>
    obtain ⟨hm, -, hne⟩ := (mem_unassigned_assign _ l m).1 h
    obtain ⟨hc, hout⟩ := ih hm
    refine ⟨hc, ?_⟩
    rw [List.map_cons, List.mem_cons, not_or]
    exact ⟨hne, hout⟩

/-- A clause that a trail made true holds one of its literals. -/
theorem exists_mem_of_isSatisfied_under {c : Clause} {trail : List Literal}
    (h : (c.under trail).isSatisfied = true) :
    c.isSatisfied = true ∨ ∃ l ∈ c.unassigned, l ∈ trail := by
  induction trail with
  | nil => exact .inl h
  | cons l older ih =>
    rcases (isSatisfied_assign _ l).1 h with hold | hmem
    · rcases ih hold with hc | ⟨m, hm, hmo⟩
      · exact .inl hc
      · exact .inr ⟨m, hm, List.mem_cons_of_mem l hmo⟩
    · exact .inr ⟨l, (mem_unassigned_under hmem).1, List.mem_cons_self⟩

theorem unassigned_of_unit? {c : Clause} {l : Literal} (h : c.unit? = some l) :
    c.unassigned = [l] := by
  unfold unit? at h
  split at h
  · next m hm =>
    rw [hm, Option.some.inj h]
  · cases h

end Clause

theorem map_under_cons (l : Literal) (older : List Literal) (cs : List Clause) :
    cs.map (Clause.under (l :: older)) = (cs.map (Clause.under older)).map (Clause.assign l true) :=
  (List.map_map ..).symm

theorem map_under_append (newer older : List Literal) (cs : List Clause) :
    cs.map (Clause.under (newer ++ older)) =
      (cs.map (Clause.under older)).map (Clause.under newer) := by
  rw [List.map_map]
  apply List.map_congr_left
  intro c _
  exact c.under_append newer older

/-! ### Open variables -/

/-- The variables that occur untouched in undecided clauses. -/
def openVariables (cs : List Clause) : Finset Nat :=
  ((unassignedLiterals cs).map Int.natAbs).toFinset

theorem mem_openVariables {cs : List Clause} {x : Nat} :
    x ∈ openVariables cs ↔ ∃ c ∈ cs, ∃ l ∈ c.unassigned, l.natAbs = x := by
  simp only [openVariables, unassignedLiterals, List.mem_toFinset, List.mem_map, List.mem_flatMap]
  constructor
  · rintro ⟨l, ⟨c, hc, hl⟩, hx⟩
    exact ⟨c, hc, l, hl, hx⟩
  · rintro ⟨c, hc, l, hl, hx⟩
    exact ⟨l, ⟨c, hc, hl⟩, hx⟩

theorem openVariables_assign_subset (cs : List Clause) (l : Literal) :
    openVariables (cs.map (Clause.assign l true)) ⊆ (openVariables cs).erase l.natAbs := by
  intro x hx
  obtain ⟨_, hd, m, hm, rfl⟩ := mem_openVariables.1 hx
  obtain ⟨c, hc, rfl⟩ := List.mem_map.1 hd
  obtain ⟨hmc, -, hne⟩ := (c.mem_unassigned_assign l m).1 hm
  exact Finset.mem_erase.2 ⟨hne, mem_openVariables.2 ⟨c, hc, m, hmc, rfl⟩⟩

theorem card_openVariables_assign_lt {cs : List Clause} {l : Literal}
    (h : l.natAbs ∈ openVariables cs) :
    (openVariables (cs.map (Clause.assign l true))).card < (openVariables cs).card :=
  (Finset.card_le_card (openVariables_assign_subset cs l)).trans_lt
    (Finset.card_erase_lt_of_mem h)

theorem natAbs_mem_openVariables {cs : List Clause} {l : Literal} (h : l ∈ unassignedLiterals cs) :
    l.natAbs ∈ openVariables cs :=
  List.mem_toFinset.2 (List.mem_map_of_mem h)

/-! ### Fresh trails -/

/-- Every variable of the trail, newest first, was open when its literal was made true. -/
def Fresh (cs : List Clause) : List Literal → Prop
  | [] => True
  | l :: older => l.natAbs ∈ openVariables (cs.map (Clause.under older)) ∧ Fresh cs older

namespace Fresh

variable {cs : List Clause} {trail : List Literal}

theorem of_append {newer older : List Literal} (h : Fresh cs (newer ++ older)) : Fresh cs older := by
  induction newer with
  | nil => exact h
  | cons l newer ih => exact ih h.2

/-- The variables of a fresh trail are pairwise distinct. -/
theorem nodup (h : Fresh cs trail) : (trail.map Int.natAbs).Nodup := by
  induction trail with
  | nil => exact List.nodup_nil
  | cons l older ih =>
    obtain ⟨_, hc, m, hm, hml⟩ := mem_openVariables.1 h.1
    obtain ⟨c, -, rfl⟩ := List.mem_map.1 hc
    rw [List.map_cons, List.nodup_cons, ← hml]
    exact ⟨(Clause.mem_unassigned_under hm).2, ih h.2⟩

/-- Each literal of a fresh trail leaves one open variable less. -/
theorem card_add_length_le (h : Fresh cs trail) :
    (openVariables (cs.map (Clause.under trail))).card + trail.length ≤ (openVariables cs).card := by
  induction trail with
  | nil =>
    show (openVariables (cs.map id)).card ≤ (openVariables cs).card
    rw [List.map_id]
  | cons l older ih =>
    have hlt := card_openVariables_assign_lt h.1
    have hle := ih h.2
    rw [map_under_cons, List.length_cons]
    omega

/-- A pass over live clauses only makes literals true whose variables are open. -/
theorem append_unitLiterals (pass : List Literal) {older : List Literal} {ds : List Clause}
    (h : Fresh cs (pass ++ older)) (hds : ∀ d ∈ ds, d ∈ cs.map (Clause.under older)) :
    Fresh cs (unitLiterals pass ds ++ older) := by
  induction ds generalizing pass with
  | nil => exact h
  | cons d ds ih =>
    have hrest : ∀ e ∈ ds, e ∈ cs.map (Clause.under older) := by
      intro e he
      exact hds e (List.mem_cons_of_mem d he)
    rw [unitLiterals]
    split
    · next l hl =>
      -- The unit clause is a clause of the start under the pass and the older trail.
      have hopen : l.natAbs ∈ openVariables (cs.map (Clause.under (pass ++ older))) := by
        refine mem_openVariables.2 ⟨d.under pass, ?_, l, Clause.mem_unassigned_of_unit? hl, rfl⟩
        rw [map_under_append]
        exact List.mem_map_of_mem (hds d List.mem_cons_self)
      exact ih (l :: pass) ⟨hopen, h⟩ hrest
    · exact ih pass h hrest

theorem unitLiterals (cs : List Clause) : Fresh cs (unitLiterals [] cs) := by
  rw [← List.append_nil (SatSearch.unitLiterals [] cs)]
  refine append_unitLiterals [] (show Fresh cs [] from trivial) ?_
  intro d hd
  exact List.mem_map.2 ⟨d, hd, rfl⟩

end Fresh

end SatSearch
