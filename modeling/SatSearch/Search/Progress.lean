import SatSearch.Search.Step

/-!
# Every round makes progress

The loop has no visible bound: going back to a snapshot brings clauses back to life. `Search.weight`
counts the rounds that are left at most: a state in which `n` places are untouched weighs
`2 ^ (n + 1) - 1`, and each decision whose negation is untried adds the weight of the state that its
negation would start from. Main statement: a round that goes on lowers the weight
(`Search.weight_lt_of_step`).
-/

namespace SatSearch

/-! ### Untouched places -/

theorem Element.literal?_assign (e : Element) (l : Literal) (truth : Bool) :
    (e.assign l truth).literal? = e.literal?.filter fun m => m != l && m != -l := by
  cases e with
  | resolved b => rfl
  | literal m =>
    by_cases h : m = l
    · simp [assign, literal?, Option.filter, h]
    · by_cases h' : m = -l
      · simp only [assign, if_neg h, if_pos h']
        simp [literal?, Option.filter, h']
      · simp [assign, literal?, Option.filter, h, h']

theorem filterMap_literal?_map_assign (l : Literal) (truth : Bool) (es : List Element) :
    (es.map (Element.assign l truth)).filterMap Element.literal? =
      (es.filterMap Element.literal?).filter fun m => m != l && m != -l := by
  rw [List.filterMap_map, List.filter_filterMap]
  exact congrArg (List.filterMap · es) (funext fun e => e.literal?_assign l truth)

namespace Clause

theorem unassigned_assign (c : Clause) (l : Literal) (truth : Bool) :
    (c.assign l truth).unassigned = [] ∨
      (c.assign l truth).unassigned = c.unassigned.filter fun m => m != l && m != -l := by
  cases c with
  | decided b => exact .inl rfl
  | undecided es =>
    rw [assign]
    split
    · exact .inl rfl
    · split
      · exact .inl rfl
      · exact .inr (filterMap_literal?_map_assign l truth es)

theorem length_unassigned_assign_le (c : Clause) (l : Literal) (truth : Bool) :
    (c.assign l truth).unassigned.length ≤ c.unassigned.length := by
  rcases c.unassigned_assign l truth with h | h
  · simp [h]
  · rw [h]
    exact List.length_filter_le _ _

theorem length_unassigned_assign_lt {c : Clause} {l m : Literal} (truth : Bool)
    (h : m ∈ c.unassigned) (hm : m = l ∨ m = -l) :
    (c.assign l truth).unassigned.length < c.unassigned.length := by
  rcases c.unassigned_assign l truth with e | e
  · rw [e]
    exact List.length_pos_of_mem h
  · rw [e, List.length_filter_lt_length_iff_exists]
    refine ⟨m, h, ?_⟩
    rcases hm with rfl | rfl <;> simp

theorem length_unassigned_under_le (c : Clause) (trail : List Literal) :
    (c.under trail).unassigned.length ≤ c.unassigned.length := by
  induction trail with
  | nil => exact Nat.le_refl _
  | cons l older ih => exact Nat.le_trans (length_unassigned_assign_le _ _ _) ih

theorem under_append (c : Clause) (newer older : List Literal) :
    c.under (newer ++ older) = (c.under older).under newer := by
  induction newer with
  | nil => rfl
  | cons l ls ih => simp [under, ih]

theorem mem_unassigned_of_unit? {c : Clause} {l : Literal} (h : c.unit? = some l) :
    l ∈ c.unassigned := by
  unfold unit? at h
  split at h
  · next m hm =>
    rw [hm]
    simp_all
  · simp at h

end Clause

/-- The number of untouched places in undecided clauses. -/
def openPlaces (cs : List Clause) : Nat :=
  (unassignedLiterals cs).length

@[simp]
theorem openPlaces_nil : openPlaces [] = 0 := rfl

@[simp]
theorem openPlaces_cons (c : Clause) (cs : List Clause) :
    openPlaces (c :: cs) = c.unassigned.length + openPlaces cs := by
  simp [openPlaces, unassignedLiterals]

theorem openPlaces_map_le (f : Clause → Clause)
    (hf : ∀ c, (f c).unassigned.length ≤ c.unassigned.length) (cs : List Clause) :
    openPlaces (cs.map f) ≤ openPlaces cs := by
  induction cs with
  | nil => exact Nat.le_refl _
  | cons c cs ih =>
    have := hf c
    simp only [List.map_cons, openPlaces_cons]
    omega

theorem openPlaces_map_lt (f : Clause → Clause)
    (hf : ∀ c, (f c).unassigned.length ≤ c.unassigned.length) {cs : List Clause}
    (h : ∃ c ∈ cs, (f c).unassigned.length < c.unassigned.length) :
    openPlaces (cs.map f) < openPlaces cs := by
  induction cs with
  | nil => simp at h
  | cons c cs ih =>
    have hc := hf c
    have hcs := openPlaces_map_le f hf cs
    simp only [List.map_cons, openPlaces_cons]
    simp only [List.mem_cons, exists_eq_or_imp] at h
    rcases h with h | h
    · omega
    · have := ih h
      omega

theorem openPlaces_assign_lt {cs : List Clause} {l m : Literal} (truth : Bool)
    (h : m ∈ unassignedLiterals cs) (hm : m = l ∨ m = -l) :
    openPlaces (cs.map (Clause.assign l truth)) < openPlaces cs := by
  obtain ⟨c, hc, hmc⟩ := List.mem_flatMap.1 h
  exact openPlaces_map_lt _ (fun c => c.length_unassigned_assign_le l truth)
    ⟨c, hc, Clause.length_unassigned_assign_lt truth hmc hm⟩

/-! ### One pass of propagation -/

theorem unitLiterals_eq_append (trail : List Literal) (cs : List Clause) :
    ∃ newer, unitLiterals trail cs = newer ++ trail := by
  induction cs generalizing trail with
  | nil => exact ⟨[], rfl⟩
  | cons c cs ih =>
    unfold unitLiterals
    split
    · next l _ =>
      obtain ⟨newer, h⟩ := ih (l :: trail)
      exact ⟨newer ++ [l], by simp [h]⟩
    · exact ih trail

theorem exists_unit_of_unitLiterals {cs : List Clause} (h : unitLiterals [] cs ≠ []) :
    ∃ newer l, unitLiterals [] cs = newer ++ [l] ∧ l ∈ unassignedLiterals cs := by
  induction cs with
  | nil => exact absurd rfl h
  | cons c cs ih =>
    unfold unitLiterals at h ⊢
    split
    · next l hl =>
      obtain ⟨newer, hn⟩ := unitLiterals_eq_append [l] cs
      refine ⟨newer, l, hn, ?_⟩
      simp only [unassignedLiterals, List.flatMap_cons, List.mem_append]
      exact .inl (Clause.mem_unassigned_of_unit? hl)
    · next hl =>
      simp only [hl] at h
      obtain ⟨newer, l, hn, hmem⟩ := ih h
      refine ⟨newer, l, hn, ?_⟩
      simp only [unassignedLiterals, List.flatMap_cons, List.mem_append]
      exact .inr hmem

theorem openPlaces_under_lt {cs : List Clause} (h : unitLiterals [] cs ≠ []) :
    openPlaces (cs.map (Clause.under (unitLiterals [] cs))) < openPlaces cs := by
  obtain ⟨newer, l, hn, hmem⟩ := exists_unit_of_unitLiterals h
  obtain ⟨c, hc, hlc⟩ := List.mem_flatMap.1 hmem
  refine openPlaces_map_lt _ (fun c => c.length_unassigned_under_le _) ⟨c, hc, ?_⟩
  rw [hn, Clause.under_append]
  exact Nat.lt_of_le_of_lt (Clause.length_unassigned_under_le _ _)
    (Clause.length_unassigned_assign_lt true hlc (.inl rfl))

/-! ### The literal branched on -/

theorem mem_of_mostFrequent? {ls : List Literal} {l : Literal} (h : mostFrequent? ls = some l) :
    l ∈ ls := by
  have fold (counts : Std.HashMap Literal Nat) (ms : List Literal) (b : Literal) :
      ms.foldl (fun best m => if counts.getD best 0 < counts.getD m 0 then m else best) b ∈
        b :: ms := by
    induction ms generalizing b with
    | nil => simp
    | cons m ms ih =>
      rw [List.foldl_cons]
      split
      · exact List.mem_cons_of_mem _ (ih m)
      · rcases List.mem_cons.1 (ih b) with hb | hb
        · rw [hb]; exact List.mem_cons_self
        · exact List.mem_cons_of_mem _ (List.mem_cons_of_mem _ hb)
  cases ls with
  | nil => simp [mostFrequent?] at h
  | cons a as =>
    simp only [mostFrequent?, Option.some.injEq] at h
    rw [← h]
    exact fold _ as a

theorem State.mem_unassigned_of_pickLiteral {s : State} {l : Literal}
    (h : s.pickLiteral = .ok l) : l ∈ unassignedLiterals s.clauses := by
  unfold pickLiteral at h
  split at h
  · next m hm =>
    injection h with h
    exact h ▸ mem_of_mostFrequent? hm
  · simp at h

/-! ### The weight of a search -/

/-- The weight of live clauses: one less than a power of two. -/
def liveWeight (cs : List Clause) : Nat :=
  Nat.pow 2 (openPlaces cs + 1) - 1

/-- The weight of the negations that are still to be tried, newest first, with the snapshots they
will start from. -/
def pendingWeight : List Literal → List (List Clause) → Nat
  | l :: ls, saved :: older =>
    liveWeight (saved.map (Clause.assign (-l) true)) + pendingWeight ls older
  | _, _ => 0

/-- The literals of the decisions whose negation is untried. -/
def untried (ds : List Decision) : List Literal :=
  (ds.filter fun d => !d.negated).map Decision.literal

theorem untried_dropWhile (ds : List Decision) :
    untried (ds.dropWhile Decision.negated) = untried ds := by
  induction ds with
  | nil => rfl
  | cons d ds ih => cases h : d.negated <;> simp_all [untried]

theorem one_le_liveWeight (cs : List Clause) : 1 ≤ liveWeight cs := by
  have h : 1 ≤ Nat.pow 2 (openPlaces cs) := Nat.one_le_two_pow
  show 1 ≤ Nat.pow 2 (openPlaces cs) * 2 - 1
  omega

theorem liveWeight_lt {cs ds : List Clause} (h : openPlaces cs < openPlaces ds) :
    liveWeight cs < liveWeight ds := by
  have h1 : Nat.pow 2 (openPlaces cs + 1) ≤ Nat.pow 2 (openPlaces ds) :=
    Nat.pow_le_pow_right (by decide) h
  have h2 : 1 ≤ Nat.pow 2 (openPlaces ds) := Nat.one_le_two_pow
  show Nat.pow 2 (openPlaces cs + 1) - 1 < Nat.pow 2 (openPlaces ds) * 2 - 1
  omega

theorem liveWeight_add_lt {a b cs : List Clause} (ha : openPlaces a < openPlaces cs)
    (hb : openPlaces b < openPlaces cs) : liveWeight a + liveWeight b < liveWeight cs := by
  have h1 : Nat.pow 2 (openPlaces a + 1) ≤ Nat.pow 2 (openPlaces cs) :=
    Nat.pow_le_pow_right (by decide) ha
  have h2 : Nat.pow 2 (openPlaces b + 1) ≤ Nat.pow 2 (openPlaces cs) :=
    Nat.pow_le_pow_right (by decide) hb
  have h3 : 1 ≤ Nat.pow 2 (openPlaces a + 1) := Nat.one_le_two_pow
  show Nat.pow 2 (openPlaces a + 1) - 1 + (Nat.pow 2 (openPlaces b + 1) - 1) <
    Nat.pow 2 (openPlaces cs) * 2 - 1
  omega

namespace Search

/-- A bound on the rounds that are left. -/
def weight (s : Search) : Nat :=
  liveWeight s.state.clauses + pendingWeight (untried s.decisions) s.state.snapshots

theorem weight_decide_lt {s : Search} {l : Literal} (h : s.state.pickLiteral = .ok l) :
    (s.decide l).weight < s.weight := by
  have hmem := State.mem_unassigned_of_pickLiteral h
  have hpos := openPlaces_assign_lt (l := l) true hmem (.inl rfl)
  have hneg := openPlaces_assign_lt (l := -l) true hmem (.inr (Int.neg_neg l).symm)
  have := liveWeight_add_lt hpos hneg
  simp only [weight, decide, State.branch, State.assign, untried, if_true, List.filter_cons,
    Bool.not_false, List.map_cons, pendingWeight]
  omega

theorem weight_lt_of_retreat {s next : Search} {event : Option Event}
    (h : s.retreat = .onward event next) : next.weight < s.weight := by
  unfold retreat at h
  split at h
  · simp at h
  · next d older hd =>
    unfold State.backTrack at h
    split at h
    · simp at h
    · next restored hr =>
      split at hr
      · simp at hr
      · next saved rest hs =>
        injection hr with hr
        injection h with _ h
        have hn : d.negated = false := by
          have := List.head?_dropWhile_not Decision.negated s.decisions
          simpa [hd] using this
        have := one_le_liveWeight s.state.clauses
        subst hr h
        rw [weight, weight, ← untried_dropWhile s.decisions, hd, hs]
        simp [State.branch, State.assign, untried, hn, pendingWeight]
        omega

theorem weight_lt_of_extend {s next : Search} {event : Option Event}
    (h : s.extend = .onward event next) : next.weight < s.weight := by
  unfold extend at h
  split at h
  · next passed hp =>
    injection h with _ h
    unfold State.propagate at hp
    split at hp
    · simp at hp
    · next hne =>
      simp only [Prod.mk.injEq, true_and] at hp
      have := liveWeight_lt (openPlaces_under_lt hne)
      subst h hp
      simp only [weight]
      omega
  · split at h
    · simp at h
    · next l hl =>
      injection h with _ h
      exact h ▸ weight_decide_lt hl

/-- A round that goes on leaves less to do. -/
theorem weight_lt_of_step {s next : Search} {event : Option Event}
    (h : s.step = .onward event next) : next.weight < s.weight := by
  unfold step at h
  split at h
  · simp at h
  · exact weight_lt_of_retreat h
  · exact weight_lt_of_extend h

end Search

end SatSearch
