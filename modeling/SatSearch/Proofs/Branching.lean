import SatSearch.Proofs.Stuck

/-!
# The literal to branch on

The places of a clause list are met clause by clause, and in each clause from left to right (`StandsAt`). A
literal leads if none has more untouched places and each one that is met before it has fewer (`Leads`).
Main statement: a literal is picked exactly if it leads, some literal does as soon as a place is untouched, and
else the search stops where it stands (`State.pickLiteral_leads`).
-/

namespace SatSearch

/-! ### Places -/

/-- The literal stands untouched in an undecided clause: `p` is the number of the clause and the number of its
place there. -/
def StandsAt (cs : List Clause) (l : Literal) (p : Nat × Nat) : Prop :=
  ∃ es, cs[p.1]? = some (.undecided es) ∧ es[p.2]? = some (.literal l)

/-- The number of untouched places of a literal in a clause. -/
def Clause.placeCount (l : Literal) : Clause → Nat
  | decided _ => 0
  | undecided es => es.count (.literal l)

/-- The number of untouched places of a literal. -/
def placeCount (cs : List Clause) (l : Literal) : Nat :=
  (cs.map (Clause.placeCount l)).sum

/-- `m` is met before `l`: one of its places comes before all those of `l`. -/
def MetBefore (cs : List Clause) (m l : Literal) : Prop :=
  ∃ p, StandsAt cs m p ∧ ∀ q, StandsAt cs l q → toLex p < toLex q

/-- The literal has the most untouched places; of several such literals it is the one that is met first. -/
structure Leads (cs : List Clause) (l : Literal) : Prop where
  stands : ∃ p, StandsAt cs l p
  most : ∀ m, placeCount cs m ≤ placeCount cs l
  first : ∀ m, MetBefore cs m l → placeCount cs m < placeCount cs l

section Places

variable {c : Clause} {cs : List Clause} {l m : Literal} {p : Nat × Nat}

theorem literal?_eq_some_iff {e : Element} : e.literal? = some l ↔ e = .literal l := by
  cases e with
  | literal m => simp [Element.literal?]
  | resolved b => simp [Element.literal?]

theorem count_filterMap_literal? (es : List Element) (l : Literal) :
    (es.filterMap Element.literal?).count l = es.count (.literal l) := by
  induction es with
  | nil => rfl
  | cons e es ih =>
    cases e with
    | literal m => simp [Element.literal?, List.count_cons, ih]
    | resolved b => rw [List.filterMap_cons_none rfl, ih, List.count_cons_of_ne Element.noConfusion]

theorem count_unassignedLiterals (cs : List Clause) (l : Literal) :
    (unassignedLiterals cs).count l = placeCount cs l := by
  rw [unassignedLiterals, List.count_flatMap, placeCount]
  refine congrArg List.sum (List.map_congr_left fun c _ => ?_)
  cases c with
  | decided b => rfl
  | undecided es => exact count_filterMap_literal? es l

theorem mem_unassigned_of_standsAt_zero {j : Nat} (h : StandsAt (c :: cs) l (0, j)) : l ∈ c.unassigned := by
  obtain ⟨es, hc, hl⟩ := h
  obtain rfl : c = .undecided es := Option.some.inj hc
  exact List.mem_filterMap.2 ⟨_, List.mem_of_getElem? hl, rfl⟩

/-- A place holds one literal. -/
theorem StandsAt.eq (hl : StandsAt cs l p) (hm : StandsAt cs m p) : l = m := by
  obtain ⟨es, hes, hl⟩ := hl
  obtain ⟨es', hes', hm⟩ := hm
  obtain rfl : es = es' := Clause.undecided.inj (Option.some.inj (hes.symm.trans hes'))
  exact Element.literal.inj (Option.some.inj (hl.symm.trans hm))

/-- The literals in front of one among those of a clause have their places before a place of it. -/
theorem exists_place {es : List Element} {front back : List Literal}
    (h : es.filterMap Element.literal? = front ++ l :: back) :
    ∃ j : Nat, es[j]? = some (Element.literal l) ∧
      ∀ (m : Literal) (i : Nat), es[i]? = some (Element.literal m) → i < j → m ∈ front := by
  obtain ⟨es₁, es₂, rfl, rfl, hback⟩ := List.filterMap_eq_append_iff.1 h
  obtain ⟨gap, e, es₃, rfl, hgap, he, -⟩ := List.filterMap_eq_cons_iff.1 hback
  rw [literal?_eq_some_iff] at he
  subst he
  refine ⟨(es₁ ++ gap).length, by simp, ?_⟩
  intro m i hm hi
  rw [← List.append_assoc, List.getElem?_append_left hi] at hm
  rcases List.mem_append.1 (List.mem_of_getElem? hm) with hmem | hmem
  · exact List.mem_filterMap.2 ⟨_, hmem, rfl⟩
  · cases hgap _ hmem

/-- Some place of the literal has only literals of the list before it. -/
def Behind (cs : List Clause) (front : List Literal) (l : Literal) : Prop :=
  ∃ p, StandsAt cs l p ∧ ∀ m q, StandsAt cs m q → toLex q < toLex p → m ∈ front

theorem Behind.cons {front : List Literal} (h : Behind cs front l) (c : Clause) :
    Behind (c :: cs) (c.unassigned ++ front) l := by
  obtain ⟨⟨i, j⟩, hl, hbefore⟩ := h
  refine ⟨(i + 1, j), hl, ?_⟩
  rintro m ⟨i', j'⟩ hm hlt
  cases i' with
  | zero => exact List.mem_append_left _ (mem_unassigned_of_standsAt_zero hm)
  | succ i' =>
    refine List.mem_append_right _ (hbefore m (i', j') hm ?_)
    rw [Prod.Lex.toLex_lt_toLex] at hlt ⊢
    simpa using hlt

theorem behind_of_unassigned {front back : List Literal} (h : c.unassigned = front ++ l :: back) :
    Behind (c :: cs) front l := by
  cases c with
  | decided b => simp [Clause.unassigned] at h
  | undecided es =>
    obtain ⟨j, hl, hbefore⟩ := exists_place h
    refine ⟨(0, j), ⟨es, rfl, hl⟩, ?_⟩
    rintro m ⟨i', j'⟩ hm hlt
    obtain ⟨rfl, hj⟩ : i' = 0 ∧ j' < j := by
      simpa [Prod.Lex.toLex_lt_toLex] using hlt
    obtain ⟨es', hes', hm⟩ := hm
    obtain rfl : es = es' := Clause.undecided.inj (Option.some.inj hes')
    exact hbefore m j' hm hj

theorem behind_of_unassignedLiterals {front back : List Literal}
    (h : unassignedLiterals cs = front ++ l :: back) : Behind cs front l := by
  induction cs generalizing front with
  | nil => simp [unassignedLiterals] at h
  | cons c cs ih =>
    rw [unassignedLiterals, List.flatMap_cons] at h
    rcases List.append_eq_append_iff.1 h with ⟨front', rfl, hrest⟩ | ⟨mid, hc, hmid⟩
    · exact (ih hrest).cons c
    · cases mid with
      | nil =>
        have hrest : unassignedLiterals cs = [] ++ l :: back := hmid.symm
        rw [List.append_nil] at hc
        rw [← hc, ← List.append_nil c.unassigned]
        exact (ih hrest).cons c
      | cons l' mid =>
        obtain ⟨rfl, -⟩ := List.cons_eq_cons.1 hmid
        exact behind_of_unassigned hc

theorem exists_first (h : ∃ p, StandsAt cs l p) :
    ∃ p, StandsAt cs l p ∧ ∀ q, StandsAt cs l q → toLex p ≤ toLex q := by
  obtain ⟨p, hp, hmin⟩ := (wellFounded_lt (α := ℕ ×ₗ ℕ)).has_min {p | StandsAt cs l (ofLex p)} h
  exact ⟨ofLex p, hp, fun q hq => not_lt.1 (hmin (toLex q) hq)⟩

theorem metBefore_or_metBefore (hl : ∃ p, StandsAt cs l p) (hm : ∃ p, StandsAt cs m p) (hne : l ≠ m) :
    MetBefore cs l m ∨ MetBefore cs m l := by
  obtain ⟨p, hp, hfirst⟩ := exists_first hl
  obtain ⟨q, hq, hfirst'⟩ := exists_first hm
  have hpq : toLex p ≠ toLex q := by
    intro h
    obtain rfl := toLex.injective h
    exact hne (hp.eq hq)
  rcases lt_or_gt_of_ne hpq with h | h
  · exact .inl ⟨p, hp, fun q' hq' => h.trans_le (hfirst' q' hq')⟩
  · exact .inr ⟨q, hq, fun p' hp' => h.trans_le (hfirst p' hp')⟩

theorem Leads.eq (hl : Leads cs l) (hm : Leads cs m) : l = m := by
  by_contra hne
  rcases metBefore_or_metBefore hl.stands hm.stands hne with h | h
  · exact (hm.first l h).not_ge (hl.most m)
  · exact (hl.first m h).not_ge (hm.most l)

end Places

/-! ### The literal that is picked -/

/-- A scan that keeps its best find until a better one comes ends with the first of the best. -/
theorem exists_best (f : Literal → Nat) (l : Literal) (ls : List Literal) :
    let best := ls.foldl (fun best m => if f best < f m then m else best) l
    ∃ front back, l :: ls = front ++ best :: back ∧ (∀ m ∈ front, f m < f best) ∧
      ∀ m ∈ l :: ls, f m ≤ f best := by
  induction ls using List.reverseRecOn with
  | nil => exact ⟨[], [], rfl, by simp, by simp⟩
  | append_singleton ls x ih =>
    obtain ⟨front, back, hsplit, hfront, hmost⟩ := ih
    rw [List.foldl_append, ← List.cons_append]
    simp only [List.foldl_cons, List.foldl_nil, List.mem_append, List.mem_singleton]
    split_ifs with h
    · refine ⟨l :: ls, [], rfl, fun m hm => (hmost m hm).trans_lt h, ?_⟩
      rintro m (hm | rfl)
      · exact (hmost m hm).trans h.le
      · exact le_rfl
    · refine ⟨front, back ++ [x], by rw [hsplit, List.append_assoc, List.cons_append], hfront, ?_⟩
      rintro m (hm | rfl)
      · exact hmost m hm
      · exact not_lt.1 h

theorem exists_of_mostFrequent? {ls : List Literal} {l : Literal} (h : mostFrequent? ls = some l) :
    ∃ front back, ls = front ++ l :: back ∧ (∀ m ∈ front, ls.count m < ls.count l) ∧
      ∀ m, ls.count m ≤ ls.count l := by
  cases ls with
  | nil => cases h
  | cons a as =>
    simp only [mostFrequent?, getD_tally, Option.some.injEq] at h
    obtain ⟨front, back, hsplit, hfront, hmost⟩ := exists_best (fun m => (a :: as).count m) a as
    rw [h] at hsplit hfront hmost
    refine ⟨front, back, hsplit, hfront, fun m => ?_⟩
    by_cases hm : m ∈ a :: as
    · exact hmost m hm
    · rw [List.count_eq_zero_of_not_mem hm]
      exact Nat.zero_le _

namespace State

variable {s : State} {l : Literal}

theorem leads_of_pickLiteral (h : s.pickLiteral = .ok l) : Leads s.clauses l := by
  have hfrequent : mostFrequent? (unassignedLiterals s.clauses) = some l := by
    unfold pickLiteral at h
    split at h
    · next m hm => rw [hm, Except.ok.inj h]
    · cases h
  obtain ⟨front, back, hsplit, hfront, hmost⟩ := exists_of_mostFrequent? hfrequent
  obtain ⟨p, hp, hbefore⟩ := behind_of_unassignedLiterals hsplit
  simp only [count_unassignedLiterals] at hfront hmost
  refine ⟨⟨p, hp⟩, hmost, ?_⟩
  rintro m ⟨q, hq, hqp⟩
  exact hfront m (hbefore m q hq (hqp p hp))

theorem unassignedLiterals_eq_nil_iff {cs : List Clause} :
    unassignedLiterals cs = [] ↔ ∀ l p, ¬ StandsAt cs l p := by
  constructor
  · rintro h l ⟨i, j⟩ ⟨es, hes, hl⟩
    rw [unassignedLiterals, List.flatMap_eq_nil_iff] at h
    have hnone := h _ (List.mem_of_getElem? hes)
    have hmem : l ∈ (Clause.undecided es).unassigned :=
      List.mem_filterMap.2 ⟨_, List.mem_of_getElem? hl, rfl⟩
    rw [hnone] at hmem
    cases hmem
  · intro h
    rw [List.eq_nil_iff_forall_not_mem]
    intro l hl
    obtain ⟨front, back, hsplit⟩ := List.append_of_mem hl
    obtain ⟨p, hp, -⟩ := behind_of_unassignedLiterals hsplit
    exact h l p hp

theorem exists_pickLiteral (h : ∃ l p, StandsAt s.clauses l p) : ∃ l, s.pickLiteral = .ok l := by
  cases hpick : s.pickLiteral with
  | ok l => exact ⟨l, rfl⟩
  | error e =>
    obtain ⟨l, p, hp⟩ := h
    exact absurd hp (unassignedLiterals_eq_nil_iff.1 (pickLiteral_eq_error_iff.1 hpick).1 l p)

theorem extend_eq_stuck (h : unassignedLiterals s.clauses = []) (decisions : List Decision) :
    (Search.mk s decisions).extend = .stuck .nothingToBranchOn s := by
  have hpick : s.pickLiteral = .error .nothingToBranchOn := pickLiteral_eq_error_iff.2 ⟨h, rfl⟩
  simp only [Search.extend, propagate_of_no_units (unitLiterals_eq_nil h), hpick]

/-- The literal that is picked is the one that leads, and some literal leads as soon as a place is untouched. If
none is, there is nothing to pick, and a search that would have to branch stops and leaves the state as it is. -/
theorem pickLiteral_leads (s : State) :
    (∀ l, s.pickLiteral = .ok l ↔ Leads s.clauses l) ∧
    ((∃ l p, StandsAt s.clauses l p) → ∃ l, Leads s.clauses l) ∧
    ((¬ ∃ l p, StandsAt s.clauses l p) → s.pickLiteral = .error .nothingToBranchOn ∧
      ∀ decisions, (Search.mk s decisions).extend = .stuck .nothingToBranchOn s) := by
  refine ⟨fun l => ⟨leads_of_pickLiteral, fun hl => ?_⟩, fun h => ?_, fun h => ?_⟩
  · obtain ⟨m, hm⟩ := exists_pickLiteral ⟨l, hl.stands⟩
    rw [hm, (leads_of_pickLiteral hm).eq hl]
  · obtain ⟨l, hl⟩ := exists_pickLiteral h
    exact ⟨l, leads_of_pickLiteral hl⟩
  · have hnone : unassignedLiterals s.clauses = [] :=
      unassignedLiterals_eq_nil_iff.2 fun l p hp => h ⟨l, p, hp⟩
    exact ⟨pickLiteral_eq_error_iff.2 ⟨hnone, rfl⟩, extend_eq_stuck hnone⟩

/-- The literal `3` is met first, `-2` and `1` have two places each, and `-2` is met before `1`. -/
def contested : State :=
  .initial
    [.decided true, .undecided [.literal 3, .resolved true, .literal (-2)],
      .undecided [.literal 1, .literal 2, .literal 1, .literal (-2)]]

/-- Nothing in the one clause is untouched. -/
def touched : State :=
  .initial [.undecided [.resolved true]]

theorem pickLiteral_leads_contested :
    StandsAt contested.clauses (-2) (1, 2) ∧ (∃ l, Leads contested.clauses l) ∧
      contested.pickLiteral = .ok (-2) ∧ Leads contested.clauses (-2) ∧
      (¬ ∃ l p, StandsAt touched.clauses l p) ∧ touched.pickLiteral = .error .nothingToBranchOn := by
  have hstands : StandsAt contested.clauses (-2) (1, 2) := ⟨_, rfl, rfl⟩
  have hpick : contested.pickLiteral = .ok (-2) := by cbv
  have htouched : ¬ ∃ l p, StandsAt touched.clauses l p := by
    simpa using unassignedLiterals_eq_nil_iff.1 (show unassignedLiterals touched.clauses = [] from rfl)
  obtain ⟨hiff, hexists, -⟩ := pickLiteral_leads contested
  exact ⟨hstands, hexists ⟨_, _, hstands⟩, hpick, (hiff _).1 hpick, htouched,
    ((pickLiteral_leads touched).2.2 htouched).1⟩

end State

end SatSearch
