import SatSearch.Proofs.Recursion
import SatSearch.Proofs.Trail

/-!
# Bounds on the work of a search

Every round that goes on counts something (`Round.work_lt`), so what a run counts bounds its rounds.
A call of the recursive procedure over `n` open variables stays within bounds that are exponential in
`n` (`Recurses.withinBounds`): each kind of rule of the procedure has its own step here
(`WithinBounds.pass`, `WithinBounds.first`, `WithinBounds.second`). The decisions at a loop head have
distinct open variables, so there are at most `n` of them (`TrailOf.length_decisions_le`). Main
statement: `search_bounds`.
-/

namespace SatSearch

/-- What was counted without the depth: unit propagations, decisions and backtracks together. -/
def Counters.work (cs : Counters) : Nat :=
  cs.get .unitPropagations + cs.get .decisions + cs.get .backtracks

namespace Counters

theorem work_add (cs : Counters) {c : Counter} (h : c ≠ .maxDepth) (n : Nat) :
    (cs.add c n).work = cs.work + n := by
  cases c with
  | maxDepth => exact absurd rfl h
  | decisions =>
    simp only [work, get_add, reduceCtorEq, if_false, if_true]
    omega
  | unitPropagations =>
    simp only [work, get_add, reduceCtorEq, if_false, if_true]
    omega
  | backtracks =>
    simp only [work, get_add, reduceCtorEq, if_false, if_true]
    omega

theorem work_raise_maxDepth (cs : Counters) (n : Nat) : (cs.raise .maxDepth n).work = cs.work := by
  simp [work]

end Counters

/-! ### Powers of two -/

theorem add_two_pow_le {k m n : Nat} (h : m + k ≤ n) : k + 2 ^ (m + 1) ≤ 2 ^ (n + 1) := by
  have hk : k < 2 ^ k := Nat.lt_two_pow_self
  have hm : 1 ≤ 2 ^ (m + 1) := Nat.one_le_two_pow
  calc k + 2 ^ (m + 1) ≤ 2 ^ (m + 1) * k + 2 ^ (m + 1) :=
        Nat.add_le_add_right (Nat.le_mul_of_pos_left k hm) _
    _ = 2 ^ (m + 1) * (k + 1) := rfl
    _ ≤ 2 ^ (m + 1) * 2 ^ k := Nat.mul_le_mul_left _ hk
    _ = 2 ^ (m + 1 + k) := (Nat.pow_add ..).symm
    _ ≤ 2 ^ (n + 1) := Nat.pow_le_pow_right (by decide) (by omega)

theorem two_pow_add_two_pow_le {a b n : Nat} (ha : a < n) (hb : b < n) :
    2 ^ a + 2 ^ b ≤ 2 ^ n := by
  obtain ⟨m, rfl⟩ : ∃ m, n = m + 1 := ⟨n - 1, by omega⟩
  have h1 : 2 ^ a ≤ 2 ^ m := Nat.pow_le_pow_right (by decide) (by omega)
  have h2 : 2 ^ b ≤ 2 ^ m := Nat.pow_le_pow_right (by decide) (by omega)
  rw [Nat.pow_succ]
  omega

/-! ### Calls -/

/-- The counters of a call at a depth over `n` open variables, when it begins and when it ends. -/
structure WithinBounds (depth n : Nat) (before after : Counters) : Prop where
  decisions : after.get .decisions + 1 ≤ before.get .decisions + 2 ^ n
  work : after.work + 2 ≤ before.work + 2 ^ (n + 1)
  maxDepth : after.get .maxDepth ≤ max (before.get .maxDepth) (depth + n)

namespace WithinBounds

variable {depth m n : Nat} {before after : Counters}

theorem refl (depth n : Nat) (cs : Counters) : WithinBounds depth n cs cs where
  decisions := Nat.add_le_add_left Nat.one_le_two_pow _
  work := Nat.add_le_add_left (show 2 ^ 1 ≤ 2 ^ (n + 1) from
    Nat.pow_le_pow_right (by decide) (Nat.le_add_left 1 n)) _
  maxDepth := Nat.le_max_left ..

/-- A pass that makes `k` literals true leaves `k` open variables less. -/
theorem pass {k : Nat} (hk : m + k ≤ n)
    (h : WithinBounds depth m (before.add .unitPropagations k) after) :
    WithinBounds depth n before after where
  decisions := by
    have hd := h.decisions
    have hpow : 2 ^ m ≤ 2 ^ n := Nat.pow_le_pow_right (by decide) (by omega)
    simp only [Counters.get_add, reduceCtorEq, if_false] at hd
    omega
  work := by
    have hw := h.work
    have hpow := add_two_pow_le hk
    rw [Counters.work_add _ (by decide)] at hw
    omega
  maxDepth := by
    have hd := h.maxDepth
    simp only [Counters.get_add, reduceCtorEq, if_false] at hd
    omega

theorem first (hm : m < n)
    (h : WithinBounds (depth + 1) m ((before.add .decisions 1).raise .maxDepth (depth + 1)) after) :
    WithinBounds depth n before after where
  decisions := by
    have hd := h.decisions
    have hpow := two_pow_add_two_pow_le hm hm
    have hone : 1 ≤ 2 ^ m := Nat.one_le_two_pow
    simp only [Counters.get_raise, Counters.get_add, reduceCtorEq, if_false, if_true] at hd
    omega
  work := by
    have hw := h.work
    have hpow := two_pow_add_two_pow_le (Nat.add_lt_add_right hm 1) (Nat.add_lt_add_right hm 1)
    have hone : 1 ≤ 2 ^ (m + 1) := Nat.one_le_two_pow
    rw [Counters.work_raise_maxDepth, Counters.work_add _ (by decide)] at hw
    omega
  maxDepth := by
    have hd := h.maxDepth
    simp only [Counters.get_raise, Counters.get_add, reduceCtorEq, if_false, if_true] at hd
    omega

theorem second {m' : Nat} {final : Counters} (hm : m < n) (hm' : m' < n)
    (h : WithinBounds (depth + 1) m ((before.add .decisions 1).raise .maxDepth (depth + 1)) after)
    (h' : WithinBounds (depth + 1) m' (after.add .backtracks 1) final) :
    WithinBounds depth n before final where
  decisions := by
    have hd := h.decisions
    have hd' := h'.decisions
    have hpow := two_pow_add_two_pow_le hm hm'
    simp only [Counters.get_raise, Counters.get_add, reduceCtorEq, if_false, if_true] at hd hd'
    omega
  work := by
    have hw := h.work
    have hw' := h'.work
    have hpow := two_pow_add_two_pow_le (Nat.add_lt_add_right hm 1) (Nat.add_lt_add_right hm' 1)
    rw [Counters.work_raise_maxDepth, Counters.work_add _ (by decide)] at hw
    rw [Counters.work_add _ (by decide)] at hw'
    omega
  maxDepth := by
    have hd := h.maxDepth
    have hd' := h'.maxDepth
    simp only [Counters.get_raise, Counters.get_add, reduceCtorEq, if_false, if_true] at hd hd'
    omega

end WithinBounds

theorem State.card_openVariables_lt {s : State} {l m : Literal} (h : s.pickLiteral = .ok l)
    (hm : m.natAbs = l.natAbs) :
    (openVariables (s.clauses.map (Clause.assign m true))).card < (openVariables s.clauses).card :=
  card_openVariables_assign_lt (hm ▸ natAbs_mem_openVariables (mem_unassigned_of_pickLiteral h))

/-- A call over `n` open variables keeps within the bounds for `n`. -/
theorem Recurses.withinBounds {depth : Nat} {s : State} {r : Run} (h : Recurses depth s r) :
    WithinBounds depth (openVariables s.clauses).card s.counters r.state.counters := by
  induction h with
  | satisfied done => exact .refl _ _ _
  | falsified failed => exact .refl _ _ _
  | propagated live pass again ih =>
    obtain ⟨-, rfl⟩ := State.eq_propagated_of_propagate pass
    exact ih.pass (Fresh.unitLiterals _).card_add_length_le
  | unpickable live pass pick =>
    obtain ⟨-, rfl⟩ := State.eq_self_of_propagate pass
    exact .refl _ _ _
  | first live pass pick call kept ih =>
    obtain ⟨-, rfl⟩ := State.eq_self_of_propagate pass
    exact ih.first (State.card_openVariables_lt pick rfl)
  | unsaved live pass pick call failed back ih =>
    obtain ⟨-, rfl⟩ := State.eq_self_of_propagate pass
    exact ih.first (State.card_openVariables_lt pick rfl)
  | second live pass pick call failed back call' ih ih' =>
    obtain ⟨-, rfl⟩ := State.eq_self_of_propagate pass
    obtain rfl := call.restored_eq failed back
    exact ih.second (State.card_openVariables_lt pick rfl)
      (State.card_openVariables_lt pick (Int.natAbs_neg _)) ih'

/-! ### Loop heads -/

namespace Search

variable {q next : Search}

theorem Round.work_lt {event : Option Event} (h : q.Round event next) :
    q.state.counters.work < next.state.counters.work := by
  cases h with
  | propagated live units =>
    have hpos := List.length_pos_of_ne_nil units
    rw [State.propagated, Counters.work_add _ (by decide)]
    omega
  | branched live idle pick =>
    show _ < (Counters.raise _ .maxDepth _).work
    rw [Counters.work_raise_maxDepth, Counters.work_add _ (by decide)]
    omega
  | backtracked failed negated decisions snapshots =>
    rw [Counters.work_add _ (by decide)]
    omega

namespace Reaches

variable {start : Search} {history : List (Option Event)}

theorem work_add_length_le (h : start.Reaches history q) :
    start.state.counters.work + history.length ≤ q.state.counters.work := by
  induction h with
  | refl => exact Nat.le_refl _
  | onward _ step ih =>
    have hlt := (Round.of_step step).work_lt
    rw [List.length_cons]
    omega

/-- A run has done at its end at least what it has done at a loop head. -/
theorem work_le_search {s : State} (h : (Search.start s).Reaches history q) :
    q.state.counters.work ≤ (s.search none).state.counters.work := by
  obtain ⟨later, last, event, ending, hreach, hfinal⟩ := q.exists_final
  rw [State.search, h.runFrom_eq, hreach.runFrom_eq, hfinal.runFrom_eq]
  exact (Nat.le_add_right ..).trans hreach.work_add_length_le

end Reaches

end Search

/-- At a loop head there are at most as many decisions as variables were open at the start. -/
theorem TrailOf.length_decisions_le {s : State} {q : Search} {trail : List Mark}
    (h : TrailOf s q trail) : q.decisions.length ≤ (openVariables s.clauses).card := by
  have hcard := h.fresh.card_add_length_le
  rw [List.length_map] at hcard
  rw [← h.decisions]
  exact (List.length_filterMap_le _ _).trans (by omega)

/-- A search ends, and the number of variables that are open at its start bounds what it counts, its
rounds and its depth. -/
theorem search_bounds (s : State) :
    let n := (openVariables s.clauses).card
    let after := (s.search none).state.counters
    ((∃ status, (s.search none).ending = .answered status) ∨
        ∃ e, (s.search none).ending = .stuck e) ∧
      after.get .decisions ≤ s.counters.get .decisions + (2 ^ n - 1) ∧
      after.work ≤ s.counters.work + (2 ^ (n + 1) - 2) ∧
      after.get .maxDepth ≤ max (s.counters.get .maxDepth) n ∧
      ∀ history q, (Search.start s).Reaches history q →
        history.length ≤ 2 ^ (n + 1) - 2 ∧ q.decisions.length ≤ n := by
  intro n after
  have hwithin := (recurses_search s).withinBounds
  have hdec : after.get .decisions + 1 ≤ s.counters.get .decisions + 2 ^ n := hwithin.decisions
  have hwork : after.work + 2 ≤ s.counters.work + 2 ^ (n + 1) := hwithin.work
  have hdepth : after.get .maxDepth ≤ max (s.counters.get .maxDepth) (0 + n) := hwithin.maxDepth
  refine ⟨Search.answered_or_stuck s, by omega, by omega, by omega, ?_⟩
  intro history q hreach
  constructor
  · have hlength : s.counters.work + history.length ≤ q.state.counters.work :=
      hreach.work_add_length_le
    have hle : q.state.counters.work ≤ after.work := hreach.work_le_search
    omega
  · obtain ⟨trail, htrail⟩ := TrailOf.exists_of_reaches hreach
    exact htrail.length_decisions_le

/-- Every literal stands twice in its clauses, so that no pass makes one true and every negation is
tried. -/
def doubled : State :=
  { clauses :=
      [.undecided [.literal 1, .literal 1, .literal 2, .literal 2],
        .undecided [.literal 1, .literal 1, .literal (-2), .literal (-2)],
        .undecided [.literal (-1), .literal (-1), .literal 2, .literal 2],
        .undecided [.literal (-1), .literal (-1), .literal (-2), .literal (-2)]]
    snapshots := []
    counters := .none }

theorem doubled_reaches :
    ∃ history q, (Search.start doubled).Reaches history q ∧ history.length = 6 ∧
      q.state.counters.work = 6 :=
  ⟨_, _, (((((Search.Reaches.refl.onward
    (Search.Round.branched (l := 1) (by decide) (by decide) (by cbv)).step_eq).onward
    (Search.Round.branched (l := 2) (by decide) (by decide) (by cbv)).step_eq).onward
    (Search.Round.backtracked (by decide) (List.forall_mem_nil _) rfl rfl).step_eq).onward
    (Search.Round.backtracked (by decide) (List.forall_mem_singleton.2 rfl) rfl rfl).step_eq).onward
    (Search.Round.branched (l := 2) (by decide) (by decide) (by cbv)).step_eq).onward
    (Search.Round.backtracked (by decide) (List.forall_mem_nil _) rfl rfl).step_eq, rfl, rfl⟩

/-- The bounds on the rounds and on what is counted are attained. -/
theorem search_bounds_doubled :
    (openVariables doubled.clauses).card = 2 ∧
      (doubled.search none).state.counters.work = 2 ^ (2 + 1) - 2 ∧
      ∃ history q, (Search.start doubled).Reaches history q ∧ history.length = 2 ^ (2 + 1) - 2 := by
  have hcard : (openVariables doubled.clauses).card = 2 := by decide
  have hstart : doubled.counters.work = 0 := rfl
  obtain ⟨history, q, hreach, hlength, hwork⟩ := doubled_reaches
  have hge := hreach.work_le_search
  have hle := (search_bounds doubled).2.2.1
  rw [hwork] at hge
  rw [hcard, hstart] at hle
  exact ⟨hcard, by omega, history, q, hreach, hlength⟩

end SatSearch
