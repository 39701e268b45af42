import SatSearch.Proofs.ClosedForm
import SatSearch.Proofs.Passes
import SatSearch.Proofs.Stuck
import SatSearch.Proofs.Trail

/-!
# Propagation until nothing is left

Passes are repeated until one makes no literal true (`State.PropagatesTo`). Where that ends is a matter of the
trail of all literals made true: each was forced when its turn came, and no unit clause is left (`Saturates`). Of
two such trails for the same clauses, one that falsifies no clause holds every literal of the other
(`Saturates.subset_of_forced`). Main statement: where clauses stand in another order, either both ends hold a false
clause, or none does and they are the same clauses in that order (`propagatesTo_rearranged`).
-/

namespace SatSearch

/-! ### Trails and one clause -/

namespace Clause

theorem under_decided (truth : Bool) (trail : List Literal) :
    (decided truth).under trail = decided truth := by
  induction trail with
  | nil => rfl
  | cons l older ih => rw [under, ih, assign]

/-- The order of a trail of distinct variables does not matter. -/
theorem under_perm {trail trail' : List Literal} (h : trail.Perm trail')
    (hnodup : (trail.map Int.natAbs).Nodup) (c : Clause) : c.under trail = c.under trail' := by
  induction h with
  | nil => rfl
  | cons l _ ih => rw [under, under, ih (List.nodup_cons.1 hnodup).2]
  | swap l m older =>
    have hne : l.natAbs ≠ m.natAbs := by
      intro h
      apply (List.nodup_cons.1 hnodup).1
      rw [List.map_cons, h]
      exact List.mem_cons_self
    simp only [under]
    exact (c.under older).assign_comm hne true true
  | trans h _ ih ih' => rw [ih hnodup, ih' ((h.map Int.natAbs).nodup_iff.1 hnodup)]

variable {c : Clause} {l m : Literal}

theorem unassigned_assign_of_ne (hc : c.unassigned = [l]) (h : l.natAbs ≠ m.natAbs) :
    (c.assign m true).unassigned = [l] := by
  have hlm : m ∉ c.unassigned := by
    rw [hc, List.mem_singleton]
    rintro rfl
    exact h rfl
  have hmem : l ∈ (c.assign m true).unassigned :=
    (c.mem_unassigned_assign m l).2 ⟨hc ▸ List.mem_singleton_self l, hlm, h⟩
  rcases c.unassigned_assign m true with hnil | hfilter
  · rw [hnil] at hmem
    cases hmem
  · rw [hfilter, hc] at hmem ⊢
    rw [List.filter_eq_self]
    intro k hk
    rw [List.mem_singleton.1 hk]
    exact (List.mem_filter.1 hmem).2

/-- A trail leaves the last untouched literal of a clause alone if its variable is not on it. -/
theorem unassigned_under_of_not_mem {trail : List Literal} (hc : c.unassigned = [l])
    (h : l.natAbs ∉ trail.map Int.natAbs) : (c.under trail).unassigned = [l] := by
  induction trail with
  | nil => exact hc
  | cons m older ih =>
    rw [List.map_cons, List.mem_cons, not_or] at h
    exact unassigned_assign_of_ne (ih h.2) h.1

/-- Making its last untouched literal false falsifies a clause. -/
theorem assign_eq_decided_false (hc : c.unassigned = [l]) (hne : m ≠ l) (habs : m.natAbs = l.natAbs) :
    c.assign m true = decided false := by
  have hm : m ∉ c.unassigned := by
    rw [hc, List.mem_singleton]
    exact hne
  cases c with
  | decided b => cases hc
  | undecided es =>
    have hsat : ¬es.any (Element.satisfiedBy m true) = true := by
      rw [any_satisfiedBy_iff]
      exact hm
    have hnone : (es.map (Element.assign m true)).all (·.literal?.isNone) = true := by
      rw [all_isNone_iff, filterMap_literal?_map_assign]
      show (undecided es).unassigned.filter _ = []
      rw [hc, List.filter_eq_nil_iff]
      intro k hk
      obtain rfl := List.mem_singleton.1 hk
      rcases Int.natAbs_eq_natAbs_iff.1 habs with rfl | rfl
      · exact absurd rfl hne
      · simp
    rw [assign, if_neg hsat, if_pos hnone]

/-- A trail falsifies a clause if it makes the last untouched literal of it false. -/
theorem under_eq_decided_false {trail : List Literal} (hc : c.unassigned = [l]) (hm : m ∈ trail) (hne : m ≠ l)
    (habs : m.natAbs = l.natAbs) (hnodup : (trail.map Int.natAbs).Nodup) :
    c.under trail = decided false := by
  obtain ⟨newer, older, rfl⟩ := List.append_of_mem hm
  have hout : l.natAbs ∉ older.map Int.natAbs := by
    rw [List.map_append, List.map_cons] at hnodup
    rw [← habs]
    exact (List.nodup_cons.1 (List.nodup_append.1 hnodup).2.1).1
  have hfalse : c.under (m :: older) = decided false :=
    assign_eq_decided_false (unassigned_under_of_not_mem hc hout) hne habs
  rw [under_append, hfalse, under_decided]

/-- What a trail does to a clause can be done after what a part of it does. -/
theorem exists_under_eq {older trail : List Literal} (hnodup : (trail.map Int.natAbs).Nodup)
    (holder : (older.map Int.natAbs).Nodup) (h : older ⊆ trail) :
    ∃ newer, newer ⊆ trail ∧ (newer.map Int.natAbs).Nodup ∧
      ∀ c : Clause, c.under trail = (c.under older).under newer := by
  obtain ⟨part, hpart, hsub⟩ := List.subperm_of_subset (holder.of_map Int.natAbs) h
  obtain ⟨newer, hnewer⟩ := hsub.exists_perm_append
  have hperm : trail.Perm (newer ++ older) :=
    (hnewer.trans (hpart.append_right newer)).trans List.perm_append_comm
  refine ⟨newer, ?_, ?_, ?_⟩
  · intro l hl
    exact hperm.mem_iff.2 (List.mem_append_left older hl)
  · have hall := (hperm.map Int.natAbs).nodup_iff.1 hnodup
    rw [List.map_append] at hall
    exact (List.nodup_append.1 hall).1
  · intro c
    rw [under_perm hperm hnodup, under_append]

end Clause

/-! ### Forced trails -/

section Forced

variable {cs ds : List Clause} {trail older : List Literal} {l : Literal}

theorem unitsForced_cons : UnitsForced cs ((l :: older).map .unit) ↔
    (∃ c ∈ cs, (c.under older).unit? = some l) ∧ UnitsForced cs (older.map .unit) := by
  rw [List.map_cons, UnitsForced, Mark.map_literal_unit]

/-- The last untouched literal of a clause is about an open variable. -/
theorem UnitsForced.fresh (h : UnitsForced cs (trail.map .unit)) : Fresh cs trail := by
  induction trail with
  | nil => trivial
  | cons l older ih =>
    obtain ⟨⟨c, hc, hl⟩, holder⟩ := unitsForced_cons.1 h
    have hopen : l.natAbs ∈ openVariables (cs.map (Clause.under older)) :=
      mem_openVariables.2
        ⟨c.under older, List.mem_map_of_mem hc, l, Clause.mem_unassigned_of_unit? hl, rfl⟩
    exact ⟨hopen, ih holder⟩

theorem UnitsForced.mono (h : UnitsForced cs (trail.map .unit)) (hsub : cs ⊆ ds) :
    UnitsForced ds (trail.map .unit) := by
  induction trail with
  | nil => trivial
  | cons l older ih =>
    obtain ⟨⟨c, hc, hl⟩, holder⟩ := unitsForced_cons.1 h
    exact unitsForced_cons.2 ⟨⟨c, hsub hc, hl⟩, ih holder⟩

/-- Every literal of the trail was forced, and no clause forces one more. -/
structure Saturates (cs : List Clause) (trail : List Literal) : Prop where
  forced : UnitsForced cs (trail.map .unit)
  idle : ∀ c ∈ cs, (c.under trail).unit? = none

namespace Saturates

theorem nodup (h : Saturates cs trail) : (trail.map Int.natAbs).Nodup :=
  h.forced.fresh.nodup

theorem mono (h : Saturates cs trail) (hsub : cs ⊆ ds) (hsub' : ds ⊆ cs) : Saturates ds trail where
  forced := h.forced.mono hsub
  idle c hc := h.idle c (hsub' hc)

variable {trail' : List Literal}

/-- A trail that falsifies no clause and leaves none unit holds whatever literals can be forced. -/
theorem subset_of_forced (h : Saturates cs trail) (hlive : ∀ c ∈ cs, c.under trail ≠ .decided false)
    (hforced : UnitsForced cs (trail'.map .unit)) : trail' ⊆ trail := by
  induction trail' with
  | nil => exact List.nil_subset trail
  | cons l older ih =>
    obtain ⟨⟨c, hc, hl⟩, holder⟩ := unitsForced_cons.1 hforced
    have hlone : (c.under older).unassigned = [l] := Clause.unassigned_of_unit? hl
    obtain ⟨newer, hnewer, hnodup, hunder⟩ :=
      Clause.exists_under_eq h.nodup holder.fresh.nodup (ih holder)
    refine List.cons_subset.2 ⟨?_, ih holder⟩
    by_contra hout
    -- The clause is down to `l` under `older`, and the rest of the trail either makes `l` false or leaves it.
    by_cases hmem : l.natAbs ∈ newer.map Int.natAbs
    · obtain ⟨m, hm, habs⟩ := List.mem_map.1 hmem
      have hne : m ≠ l := by
        rintro rfl
        exact hout (hnewer hm)
      apply hlive c hc
      rw [hunder]
      exact Clause.under_eq_decided_false hlone hm hne habs hnodup
    · have hidle := h.idle c hc
      rw [hunder, Clause.unit?, Clause.unassigned_under_of_not_mem hlone hmem] at hidle
      cases hidle

/-- If one trail falsifies no clause, neither does another one for the same clauses, and both do the same. -/
theorem under_eq (h : Saturates cs trail) (h' : Saturates cs trail')
    (hlive : ∀ c ∈ cs, c.under trail ≠ .decided false) (c : Clause) :
    c.under trail' = c.under trail := by
  have hsub := h.subset_of_forced hlive h'.forced
  obtain ⟨newer, -, -, hunder⟩ := Clause.exists_under_eq h.nodup h'.nodup hsub
  have hlive' : ∀ c ∈ cs, c.under trail' ≠ .decided false := by
    intro c hc hfalse
    apply hlive c hc
    rw [hunder, hfalse, Clause.under_decided]
  have hsub' := h'.subset_of_forced hlive' h.forced
  have hperm : trail'.Perm trail := by
    rw [List.perm_ext_iff_of_nodup (h'.nodup.of_map Int.natAbs) (h.nodup.of_map Int.natAbs)]
    exact fun l => ⟨fun hl => hsub hl, fun hl => hsub' hl⟩
  exact Clause.under_perm hperm h'.nodup c

end Saturates

end Forced

/-! ### Passes until one does nothing -/

namespace State

/-- Passes are repeated from `s` until one makes no literal true; then the state is `t`. -/
inductive PropagatesTo : State → State → Prop
  | done {s t : State} (last : s.propagate = (false, t)) : PropagatesTo s t
  | pass {s next t : State} (made : s.propagate = (true, next)) (rest : PropagatesTo next t) :
      PropagatesTo s t

/-- Every pass but the last one leaves fewer untouched places. -/
theorem exists_propagatesTo (s : State) : ∃ t, s.PropagatesTo t := by
  induction hn : openPlaces s.clauses using Nat.strong_induction_on generalizing s with
  | _ n ih =>
    by_cases hunits : unitLiterals [] s.clauses = []
    · exact ⟨s, .done (propagate_of_no_units hunits)⟩
    · have hlt : openPlaces s.propagated.clauses < n := hn ▸ openPlaces_under_lt hunits
      obtain ⟨t, ht⟩ := ih _ hlt s.propagated rfl
      exact ⟨t, .pass (propagate_of_units hunits) ht⟩

namespace PropagatesTo

variable {s t u : State}

theorem eq (h : s.PropagatesTo t) (h' : s.PropagatesTo u) : u = t := by
  induction h with
  | done last =>
    cases h' with
    | done last' =>
      rw [last] at last'
      cases last'
      rfl
    | pass made rest =>
      rw [last] at made
      cases made
  | pass made rest ih =>
    cases h' with
    | done last =>
      rw [made] at last
      cases last
    | pass made' rest' =>
      rw [made] at made'
      cases made'
      exact ih rest'

/-- The literals made true in all passes are a trail that saturates the clauses. -/
theorem exists_saturates {cs : List Clause} {older : List Literal} (h : s.PropagatesTo t)
    (hclauses : s.clauses = cs.map (Clause.under older)) (hforced : UnitsForced cs (older.map .unit)) :
    ∃ trail, Saturates cs trail ∧ t.clauses = cs.map (Clause.under trail) := by
  induction h generalizing older with
  | @done s t last =>
    obtain ⟨hunits, rfl⟩ := eq_self_of_propagate last
    refine ⟨older, ⟨hforced, ?_⟩, hclauses⟩
    intro c hc
    apply Clause.unit?_eq_none_iff.2
    apply unitLiterals_eq_nil_iff.1 hunits
    rw [hclauses]
    exact List.mem_map_of_mem hc
  | @pass s next t made rest ih =>
    obtain ⟨-, rfl⟩ := eq_propagated_of_propagate made
    apply @ih (unitLiterals [] s.clauses ++ older)
    · rw [map_under_append, ← hclauses]
      rfl
    · rw [List.map_append]
      apply UnitsForced.append_unitLiterals [] hforced
      intro d hd
      rwa [Mark.map_literal_unit, ← hclauses]

end PropagatesTo

theorem isFalsified_eq_false_iff {s : State} :
    s.isFalsified = false ↔ ∀ c ∈ s.clauses, c ≠ .decided false := by
  rw [isFalsified, List.any_eq_false]
  simp only [Clause.isFalsified_iff, ne_eq]

/-- The end of the passes, and the trail that leads there. -/
theorem exists_end (s : State) :
    ∃ t trail, (∀ u, s.PropagatesTo u ↔ u = t) ∧ Saturates s.clauses trail ∧
      t.clauses = s.clauses.map (Clause.under trail) := by
  obtain ⟨t, ht⟩ := s.exists_propagatesTo
  have hclauses : s.clauses = s.clauses.map (Clause.under []) := (List.map_id s.clauses).symm
  obtain ⟨trail, hsat, hend⟩ := ht.exists_saturates hclauses trivial
  refine ⟨t, trail, ?_, hsat, hend⟩
  intro u
  constructor
  · exact ht.eq
  · rintro rfl
    exact ht

/-- If no clause ends up false on one side, each clause ends up the same on both sides. -/
theorem same_ends {s s' t t' : State} {trail trail' : List Literal} (hst : s.clauses ⊆ s'.clauses)
    (hts : s'.clauses ⊆ s.clauses) (hsat : Saturates s.clauses trail)
    (hsat' : Saturates s'.clauses trail') (hend : t.clauses = s.clauses.map (Clause.under trail))
    (hend' : t'.clauses = s'.clauses.map (Clause.under trail')) (hlive : t.isFalsified = false) :
    t'.isFalsified = false ∧ Clause.under trail' = Clause.under trail := by
  have hnone : ∀ c ∈ s.clauses, c.under trail ≠ .decided false := by
    intro c hc
    apply isFalsified_eq_false_iff.1 hlive
    rw [hend]
    exact List.mem_map_of_mem hc
  have heq : Clause.under trail' = Clause.under trail := by
    funext c
    exact hsat.under_eq (hsat'.mono hts hst) hnone c
  refine ⟨?_, heq⟩
  rw [isFalsified_eq_false_iff, hend', heq, List.forall_mem_map]
  exact fun c hc => hnone c (hts hc)

/-- Whether the passes end in a false clause, and where they end if not, does not depend on the clauses' order. -/
theorem propagatesTo_rearranged {n : Nat} (cs : Fin n → Clause) (σ : Equiv.Perm (Fin n)) (s s' : State) :
    ∃ t t',
      (∀ u, ({ s with clauses := List.ofFn cs } : State).PropagatesTo u ↔ u = t) ∧
      (∀ u, ({ s' with clauses := List.ofFn (cs ∘ σ) } : State).PropagatesTo u ↔ u = t') ∧
      ((t.isFalsified = true ∧ t'.isFalsified = true) ∨
        (t.isFalsified = false ∧ t'.isFalsified = false ∧
          ∃ ds : Fin n → Clause, t.clauses = List.ofFn ds ∧ t'.clauses = List.ofFn (ds ∘ σ))) := by
  obtain ⟨t, trail, ht, hsat, hend⟩ := exists_end { s with clauses := List.ofFn cs }
  obtain ⟨t', trail', ht', hsat', hend'⟩ := exists_end { s' with clauses := List.ofFn (cs ∘ σ) }
  have hsub : List.ofFn cs ⊆ List.ofFn (cs ∘ σ) := by
    intro c hc
    obtain ⟨i, rfl⟩ := (List.mem_ofFn' cs c).1 hc
    exact (List.mem_ofFn' _ _).2 ⟨σ.symm i, by simp⟩
  have hsub' : List.ofFn (cs ∘ σ) ⊆ List.ofFn cs := by
    intro c hc
    obtain ⟨i, rfl⟩ := (List.mem_ofFn' _ c).1 hc
    exact (List.mem_ofFn' _ _).2 ⟨σ i, rfl⟩
  refine ⟨t, t', ht, ht', ?_⟩
  cases hfalse : t.isFalsified with
  | false =>
    obtain ⟨hlive', hunder⟩ := same_ends hsub hsub' hsat hsat' hend hend' hfalse
    refine .inr ⟨rfl, hlive', Clause.under trail ∘ cs, ?_, ?_⟩
    · rw [hend, List.map_ofFn]
    · rw [hend', hunder, List.map_ofFn]
      rfl
  | true =>
    refine .inl ⟨rfl, ?_⟩
    by_contra hlive'
    have hlive := same_ends hsub' hsub hsat' hsat hend' hend (Bool.eq_false_iff.2 hlive')
    rw [hfalse] at hlive
    cases hlive.1

end State

end SatSearch
