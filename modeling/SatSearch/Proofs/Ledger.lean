import SatSearch.Proofs.Alarm

/-!
# The snapshot ledger

A decision pushes a snapshot and a backtrack takes one back, so the snapshots that a run has put on
top of those it found are as many as its decisions minus its backtracks (`Ledger`). At a loop head they
are also as many as the decisions whose negation is untried (`LedgerAt.untried`): an exhausted decision
owns none. Main statements: every kind of round keeps the ledger (`LedgerAt.exists_of_round`), a run
finds a snapshot whenever it goes back (`LedgerAt.snapshots_ne_nil`), and the ledger settles what an
answer leaves behind (`search_ledger`).
-/

namespace SatSearch

/-! ### Events -/

namespace Event

/-- Whether a decision is reported. -/
def isDecision : Event → Bool
  | branched _ _ => true
  | backtracked _ _ => false
  | satisfied _ => false

/-- Whether a backtrack is reported. -/
def isBacktrack : Event → Bool
  | branched _ _ => false
  | backtracked _ _ => true
  | satisfied _ => false

/-- The depth that is reported. -/
def depth : Event → Nat
  | branched _ depth => depth
  | backtracked _ depth => depth
  | satisfied depth => depth

end Event

/-- The number of decisions among reported events. -/
def decisionsIn (events : List Event) : Nat :=
  events.countP Event.isDecision

/-- The number of backtracks among reported events. -/
def backtracksIn (events : List Event) : Nat :=
  events.countP Event.isBacktrack

section Counts

variable (l : Literal) (depth : Nat) (events : List Event)

@[simp]
theorem decisionsIn_branched :
    decisionsIn (.branched l depth :: events) = decisionsIn events + 1 :=
  List.countP_cons_of_pos rfl

@[simp]
theorem backtracksIn_branched :
    backtracksIn (.branched l depth :: events) = backtracksIn events :=
  List.countP_cons_of_neg Bool.false_ne_true

@[simp]
theorem decisionsIn_backtracked :
    decisionsIn (.backtracked l depth :: events) = decisionsIn events :=
  List.countP_cons_of_neg Bool.false_ne_true

@[simp]
theorem backtracksIn_backtracked :
    backtracksIn (.backtracked l depth :: events) = backtracksIn events + 1 :=
  List.countP_cons_of_pos rfl

@[simp]
theorem decisionsIn_satisfied : decisionsIn (.satisfied depth :: events) = decisionsIn events :=
  List.countP_cons_of_neg Bool.false_ne_true

@[simp]
theorem backtracksIn_satisfied : backtracksIn (.satisfied depth :: events) = backtracksIn events :=
  List.countP_cons_of_neg Bool.false_ne_true

end Counts

/-! ### Untried decisions -/

theorem untried_cons (l : Literal) (ds : List Decision) :
    untried (⟨l, false⟩ :: ds) = l :: untried ds := rfl

theorem untried_append {above older : List Decision} {l : Literal}
    (h : ∀ d ∈ above, d.negated = true) : untried (above ++ ⟨l, false⟩ :: older) = l :: untried older := by
  rw [← untried_dropWhile, Search.dropWhile_negated h, untried_cons]

theorem untried_eq_nil {ds : List Decision} (h : ∀ d ∈ ds, d.negated = true) : untried ds = [] := by
  rw [← untried_dropWhile, List.dropWhile_eq_nil_iff.2 h]
  rfl

theorem Search.counters_decide (q : Search) (l : Literal) :
    (q.decide l).state.counters =
      (q.state.counters.add .decisions 1).raise .maxDepth (q.decisions.length + 1) := rfl

/-! ### The ledger -/

/-- From `s` to `t` the snapshots `own` came on top, by `made` decisions and `undone` backtracks. -/
structure Ledger (s t : State) (own : List (List Clause)) (made undone : Nat) : Prop where
  snapshots : t.snapshots = own ++ s.snapshots
  decisions : t.counters.get .decisions = s.counters.get .decisions + made
  backtracks : t.counters.get .backtracks = s.counters.get .backtracks + undone
  balance : made = undone + own.length

/-- The ledger of a loop head `q` of a run from `s`, when `events` were reported. -/
structure LedgerAt (s : State) (events : List Event) (q : Search) (own : List (List Clause)) : Prop
    extends Ledger s q.state own (decisionsIn events) (backtracksIn events) where
  untried : own.length = (untried q.decisions).length
  depth_le : q.decisions.length ≤ decisionsIn events
  maxDepth_le : q.state.counters.get .maxDepth ≤ max (s.counters.get .maxDepth) (decisionsIn events)
  reported_le : ∀ e ∈ events, e.depth ≤ decisionsIn events

namespace LedgerAt

variable {s : State} {events : List Event} {q next : Search} {own : List (List Clause)}

theorem start (s : State) : LedgerAt s [] (Search.start s) [] where
  snapshots := rfl
  decisions := rfl
  backtracks := rfl
  balance := rfl
  untried := rfl
  depth_le := Nat.le_refl 0
  maxDepth_le := Nat.le_max_left ..
  reported_le := List.forall_mem_nil _

theorem propagated (h : LedgerAt s events q own) :
    LedgerAt s events { q with state := q.state.propagated } own where
  snapshots := h.snapshots
  decisions := by simpa [State.propagated] using h.decisions
  backtracks := by simpa [State.propagated] using h.backtracks
  balance := h.balance
  untried := h.untried
  depth_le := h.depth_le
  maxDepth_le := by simpa [State.propagated] using h.maxDepth_le
  reported_le := h.reported_le

theorem branched (h : LedgerAt s events q own) (l : Literal) :
    LedgerAt s (.branched l (q.decisions.length + 1) :: events) (q.decide l)
      (q.state.clauses :: own) where
  snapshots := congrArg (List.cons q.state.clauses) h.snapshots
  decisions := by
    rw [Search.counters_decide, decisionsIn_branched]
    simp [h.decisions, Nat.add_assoc]
  backtracks := by
    rw [Search.counters_decide, backtracksIn_branched]
    simp [h.backtracks]
  balance := by
    rw [decisionsIn_branched, backtracksIn_branched, h.balance]
    rfl
  untried := congrArg Nat.succ h.untried
  depth_le := by
    rw [decisionsIn_branched]
    exact Nat.succ_le_succ h.depth_le
  maxDepth_le := by
    have hm := h.maxDepth_le
    have hd := h.depth_le
    rw [Search.counters_decide, decisionsIn_branched]
    simp only [Counters.get_raise, Counters.get_add, reduceCtorEq, if_false, if_true]
    omega
  reported_le := by
    rw [decisionsIn_branched]
    refine List.forall_mem_cons.2 ⟨Nat.succ_le_succ h.depth_le, ?_⟩
    intro e he
    exact (h.reported_le e he).trans (Nat.le_succ _)

/-- Going back takes the snapshot of the newest untried decision and leaves the others. -/
theorem backtracked (h : LedgerAt s events q own) {above older : List Decision} {l : Literal}
    {saved : List Clause} {rest : List (List Clause)} (hneg : ∀ d ∈ above, d.negated = true)
    (hdec : q.decisions = above ++ ⟨l, false⟩ :: older) (hsnap : q.state.snapshots = saved :: rest) :
    ∃ own', LedgerAt s (.backtracked (-l) (older.length + 1) :: events)
      { state :=
          { clauses := saved.map (Clause.assign (-l) true)
            snapshots := rest
            counters := q.state.counters.add .backtracks 1 }
        decisions := ⟨l, true⟩ :: older }
      own' := by
  -- The newest untried decision owns the top snapshot; those above it own none.
  have huntried := h.untried
  rw [hdec, untried_append hneg, List.length_cons] at huntried
  obtain ⟨top, own', rfl⟩ := List.exists_cons_of_length_eq_add_one huntried
  have hown := h.snapshots
  rw [hsnap, List.cons_append, List.cons.injEq] at hown
  have hdepth := h.depth_le
  rw [hdec, List.length_append, List.length_cons] at hdepth
  refine ⟨own', ⟨⟨hown.2, ?_, ?_, ?_⟩, Nat.succ.inj huntried, ?_, ?_, ?_⟩⟩
  · simp [h.decisions]
  · simp [h.backtracks, Nat.add_assoc]
  · have hbalance := h.balance
    rw [List.length_cons] at hbalance
    rw [decisionsIn_backtracked, backtracksIn_backtracked]
    omega
  · rw [decisionsIn_backtracked, List.length_cons]
    omega
  · simpa using h.maxDepth_le
  · rw [decisionsIn_backtracked]
    refine List.forall_mem_cons.2 ⟨?_, h.reported_le⟩
    show older.length + 1 ≤ decisionsIn events
    omega

theorem exists_of_round {event : Option Event} (h : LedgerAt s events q own)
    (hround : q.Round event next) : ∃ own', LedgerAt s (event.toList ++ events) next own' := by
  cases hround with
  | propagated live units => exact ⟨own, h.propagated⟩
  | branched live idle pick => exact ⟨_, h.branched _⟩
  | backtracked failed negated decisions snapshots => exact h.backtracked negated decisions snapshots

theorem exists_of_reaches {history : List (Option Event)}
    (h : (Search.start s).Reaches history q) :
    ∃ own, LedgerAt s (history.flatMap Option.toList) q own := by
  induction h with
  | refl => exact ⟨[], start s⟩
  | onward _ step ih =>
    obtain ⟨own, hown⟩ := ih
    exact hown.exists_of_round (.of_step step)

/-- As long as a negation is untried there is a snapshot to go back to. -/
theorem snapshots_ne_nil (h : LedgerAt s events q own) (hne : SatSearch.untried q.decisions ≠ []) :
    q.state.snapshots ≠ [] := by
  have hpos := List.length_pos_of_ne_nil hne
  rw [← h.untried] at hpos
  rw [h.snapshots]
  exact List.append_ne_nil_of_left_ne_nil (List.ne_nil_of_length_pos hpos) _

/-- When every negation was tried, no snapshot of the run is left. -/
theorem own_eq_nil (h : LedgerAt s events q own) (hneg : ∀ d ∈ q.decisions, d.negated = true) :
    own = [] := by
  rw [← List.length_eq_zero_iff, h.untried, untried_eq_nil hneg]
  rfl

/-- The event of a last round is no decision and no backtrack, and its depth is reached before. -/
theorem of_final {event : Option Event} {ending : Ending} (h : LedgerAt s events q own)
    (hfinal : q.Final event ending) : LedgerAt s (event.toList ++ events) q own := by
  cases hfinal with
  | satisfied done =>
    refine ⟨⟨h.snapshots, ?_, ?_, ?_⟩, h.untried, ?_, ?_, ?_⟩
    · simpa using h.decisions
    · simpa using h.backtracks
    · simpa using h.balance
    · simpa using h.depth_le
    · simpa using h.maxDepth_le
    · rw [Option.toList_some, List.singleton_append, decisionsIn_satisfied]
      exact List.forall_mem_cons.2 ⟨h.depth_le, h.reported_le⟩
  | falsified failed negated => exact h
  | unpickable live idle pick => exact h
  | unsaved failed negated decisions snapshots => exact h

/-- The order in which events were reported does not matter. -/
theorem perm {events' : List Event} (h : LedgerAt s events q own) (hp : events.Perm events') :
    LedgerAt s events' q own := by
  have hmade : decisionsIn events' = decisionsIn events := hp.symm.countP_eq _
  have hundone : backtracksIn events' = backtracksIn events := hp.symm.countP_eq _
  refine ⟨⟨h.snapshots, ?_, ?_, ?_⟩, h.untried, ?_, ?_, ?_⟩
  · rw [hmade, h.decisions]
  · rw [hundone, h.backtracks]
  · rw [hmade, hundone, h.balance]
  · rw [hmade]
    exact h.depth_le
  · rw [hmade]
    exact h.maxDepth_le
  · intro e he
    rw [hmade]
    exact h.reported_le e (hp.mem_iff.2 he)

/-- The ledger when a run has ended, with the event of its last round. -/
theorem of_reaches_of_final {history : List (Option Event)} {event : Option Event}
    (hreach : (Search.start s).Reaches history q)
    (hend : event = none ∨ ∃ ending, q.Final event ending) :
    ∃ own, LedgerAt s (event.toList ++ history.flatMap Option.toList).reverse q own := by
  obtain ⟨own, hown⟩ := exists_of_reaches hreach
  refine ⟨own, perm ?_ (List.reverse_perm _).symm⟩
  rcases hend with rfl | ⟨ending, hfinal⟩
  · exact hown
  · exact hown.of_final hfinal

/-- Wherever an alarm cuts a run, the ledger holds of what was reported until then. -/
theorem exists_of_search (s : State) (alarm : Option Nat) :
    ∃ q own, q.state = (s.search alarm).state ∧ LedgerAt s (s.search alarm).events q own := by
  obtain ⟨history, q, event, hreach, hend, hstate, hevents⟩ := Search.exists_head_of_search s alarm
  obtain ⟨own, hown⟩ := of_reaches_of_final hreach hend
  exact ⟨q, own, hstate.symm, hevents ▸ hown⟩

/-- A run that answers `unsat` has taken back all of its decisions. -/
theorem exists_of_search_none (s : State) :
    ∃ q own, q.state = (s.search none).state ∧ LedgerAt s (s.search none).events q own ∧
      ((s.search none).ending = .answered .unsat → own = []) := by
  obtain ⟨history, q, event, ending, hreach, hfinal, hrun⟩ := Search.exists_final_of_search s
  obtain ⟨own, hown⟩ := of_reaches_of_final hreach (.inr ⟨ending, hfinal⟩)
  rw [hrun]
  refine ⟨q, own, rfl, hown, ?_⟩
  intro hunsat
  obtain rfl : ending = .answered .unsat := hunsat
  cases hfinal with
  | falsified failed negated => exact hown.own_eq_nil negated

end LedgerAt

/-- At every loop head of a run the snapshots found at the start lie untouched below those of the run,
which are as many as the untried decisions and as the decisions minus the backtracks. So `sat` leaves
one snapshot for each decision that was not taken back and `unsat` leaves none, and when an event is
reported there were at most as many backtracks as decisions, and no depth above these. -/
theorem search_ledger (s : State) :
    let r := s.search none
    (∀ history q, (Search.start s).Reaches history q →
      ∃ own, LedgerAt s (history.flatMap Option.toList) q own) ∧
    (∃ own, Ledger s r.state own (decisionsIn r.events) (backtracksIn r.events) ∧
      (r.ending = .answered .unsat → own = [])) ∧
    ∀ k, let cut := s.search (some k)
      cut.events = r.events.take k ∧
      cut.state.counters.get .decisions = s.counters.get .decisions + decisionsIn cut.events ∧
      cut.state.counters.get .backtracks = s.counters.get .backtracks + backtracksIn cut.events ∧
      backtracksIn cut.events ≤ decisionsIn cut.events ∧
      cut.state.counters.get .maxDepth ≤
        max (s.counters.get .maxDepth) (decisionsIn cut.events) ∧
      ∀ e ∈ cut.events, e.depth ≤ decisionsIn cut.events := by
  intro r
  refine ⟨?_, ?_, ?_⟩
  · intro history q hreach
    exact LedgerAt.exists_of_reaches hreach
  · obtain ⟨q, own, hstate, hown, hunsat⟩ := LedgerAt.exists_of_search_none s
    exact ⟨own, hstate ▸ hown.toLedger, hunsat⟩
  · intro k cut
    obtain ⟨q, own, hstate, hown⟩ := LedgerAt.exists_of_search s (some k)
    have hstate : q.state = cut.state := hstate
    have hbalance : decisionsIn cut.events = backtracksIn cut.events + own.length := hown.balance
    rw [← hstate]
    exact ⟨Search.events_search_some s k, hown.decisions, hown.backtracks, by omega,
      hown.maxDepth_le, hown.reported_le⟩

/-- Every literal stands twice, so that no pass makes one true and two levels fail at once. Two
snapshots and five backtracks are left over from an earlier search. -/
def layered : State :=
  { clauses :=
      [.undecided [.literal 1, .literal 1, .literal 2, .literal 2],
        .undecided [.literal 1, .literal 1, .literal (-2), .literal (-2)],
        .undecided [.literal (-1), .literal (-1), .literal 2, .literal 2],
        .undecided [.literal (-1), .literal (-1), .literal (-2), .literal (-2)]]
    snapshots := [[.decided true], []]
    counters := ⟨[(.backtracks, 5)]⟩ }

theorem layered_ending : (layered.search none).ending = .answered .unsat := by
  have hreach : ∃ history q, (Search.start layered).Reaches history q ∧
      q.state.status? = some .unsat ∧ ∀ d ∈ q.decisions, d.negated = true := by
    refine ⟨_, _, (((((Search.Reaches.refl.onward
      (Search.Round.branched (l := 1) (by decide) (by decide) (by cbv)).step_eq).onward
      (Search.Round.branched (l := 2) (by decide) (by decide) (by cbv)).step_eq).onward
      (Search.Round.backtracked (by decide) (List.forall_mem_nil _) rfl rfl).step_eq).onward
      (Search.Round.backtracked (by decide) (List.forall_mem_singleton.2 rfl) rfl rfl).step_eq).onward
      (Search.Round.branched (l := 2) (by decide) (by decide) (by cbv)).step_eq).onward
      (Search.Round.backtracked (by decide) (List.forall_mem_nil _) rfl rfl).step_eq, by decide,
      by decide⟩
  obtain ⟨history, q, hreach, hfailed, hneg⟩ := hreach
  rw [State.search, hreach.runFrom_eq, (Search.Final.falsified hfailed hneg).runFrom_eq]

theorem search_ledger_layered :
    (layered.search none).ending = .answered .unsat ∧
      (layered.search none).state.snapshots = [[.decided true], []] ∧
      decisionsIn (layered.search none).events = backtracksIn (layered.search none).events := by
  obtain ⟨own, hledger, hunsat⟩ := (search_ledger layered).2.1
  obtain rfl := hunsat layered_ending
  exact ⟨layered_ending, hledger.snapshots, hledger.balance⟩

end SatSearch
