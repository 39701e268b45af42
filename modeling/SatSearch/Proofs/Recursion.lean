import SatSearch.Proofs.Rounds

/-!
# The search as a recursive procedure

`Recurses depth s r` says that the recursive procedure, called at `depth` with the state `s`, ends as
the run `r`. It reads off the answer, else propagates and starts again, else branches on a literal
and calls itself for the literal and, after going back, for its negation. The decisions under which
the search stands are its call stack. Main statement: the search and the procedure are the same
(`recurses_iff_search`). On the way: a call that answers `unsat` leaves the snapshots as it found
them (`Recurses.snapshots_eq`), and every call ends (`exists_recurses`).
-/

namespace SatSearch

/-- The state below a new decision: it is counted, the live clauses are saved and the literal is made
true. -/
def State.decideAt (s : State) (l : Literal) (depth : Nat) : State :=
  { s with counters := (s.counters.add .decisions 1).raise .maxDepth depth }.branch l true

/-- How the recursive procedure ends. -/
inductive Recurses : Nat → State → Run → Prop
  | satisfied {depth : Nat} {s : State} (done : s.status? = some .sat) :
      Recurses depth s { ending := .answered .sat, state := s, events := [.satisfied depth] }
  | falsified {depth : Nat} {s : State} (failed : s.status? = some .unsat) :
      Recurses depth s { ending := .answered .unsat, state := s, events := [] }
  /-- A pass made an assignment: start again. -/
  | propagated {depth : Nat} {s t : State} {r : Run} (live : s.status? = none)
      (pass : s.propagate = (true, t)) (again : Recurses depth t r) : Recurses depth s r
  | unpickable {depth : Nat} {s t : State} {e : SearchError} (live : s.status? = none)
      (pass : s.propagate = (false, t)) (pick : t.pickLiteral = .error e) :
      Recurses depth s { ending := .stuck e, state := t, events := [] }
  /-- The call for the literal answers `sat` or goes wrong. -/
  | first {depth : Nat} {s t : State} {l : Literal} {r : Run} (live : s.status? = none)
      (pass : s.propagate = (false, t)) (pick : t.pickLiteral = .ok l)
      (call : Recurses (depth + 1) (t.decideAt l (depth + 1)) r) (kept : r.ending ≠ .answered .unsat) :
      Recurses depth s { r with events := .branched l (depth + 1) :: r.events }
  /-- The call for the literal answers `unsat`, but there is no snapshot to go back to. -/
  | unsaved {depth : Nat} {s t : State} {l : Literal} {r : Run} {e : SearchError}
      (live : s.status? = none) (pass : s.propagate = (false, t)) (pick : t.pickLiteral = .ok l)
      (call : Recurses (depth + 1) (t.decideAt l (depth + 1)) r) (failed : r.ending = .answered .unsat)
      (back : r.state.backTrack = .error e) :
      Recurses depth s
        { ending := .stuck e, state := r.state, events := .branched l (depth + 1) :: r.events }
  /-- The call for the literal answers `unsat`: the call for its negation decides. -/
  | second {depth : Nat} {s t restored : State} {l : Literal} {r r' : Run}
      (live : s.status? = none) (pass : s.propagate = (false, t)) (pick : t.pickLiteral = .ok l)
      (call : Recurses (depth + 1) (t.decideAt l (depth + 1)) r) (failed : r.ending = .answered .unsat)
      (back : r.state.backTrack = .ok restored)
      (call' : Recurses (depth + 1) (restored.branch (-l) false) r') :
      Recurses depth s
        { r' with
          events := .branched l (depth + 1) :: r.events ++ .backtracked (-l) (depth + 1) :: r'.events }

/-! ### Operations on states -/

namespace State

theorem backTrack_of_cons {s : State} {saved : List Clause} {rest : List (List Clause)}
    (h : s.snapshots = saved :: rest) :
    s.backTrack =
      .ok { clauses := saved, snapshots := rest, counters := s.counters.add .backtracks 1 } := by
  rw [backTrack, h]

theorem backTrack_eq_ok {s t : State} (h : s.backTrack = .ok t) :
    s.snapshots = t.clauses :: t.snapshots ∧ t.counters = s.counters.add .backtracks 1 := by
  unfold backTrack at h
  split at h
  · cases h
  · next saved rest hs =>
    cases h
    exact ⟨hs, rfl⟩

end State

/-! ### Calls that answer `unsat` -/

namespace Recurses

variable {depth : Nat} {s : State} {r : Run}

theorem status?_eq (h : Recurses depth s r) (hr : r.ending = .answered .unsat) :
    r.state.status? = some .unsat := by
  induction h with
  | satisfied done => cases hr
  | falsified failed => exact failed
  | propagated live pass again ih => exact ih hr
  | unpickable live pass pick => cases hr
  | first live pass pick call kept ih => exact absurd hr kept
  | unsaved live pass pick call failed back ih => cases hr
  | second live pass pick call failed back call' ih ih' => exact ih' hr

/-- A call that answers `unsat` has taken back every snapshot it saved. -/
theorem snapshots_eq (h : Recurses depth s r) (hr : r.ending = .answered .unsat) :
    r.state.snapshots = s.snapshots := by
  induction h with
  | satisfied done => rfl
  | falsified failed => rfl
  | propagated live pass again ih =>
    rw [ih hr, (State.eq_propagated_of_propagate pass).2]
    rfl
  | unpickable live pass pick => cases hr
  | first live pass pick call kept ih => exact absurd hr kept
  | unsaved live pass pick call failed back ih => cases hr
  | second live pass pick call failed back call' ih ih' =>
    have hcall := ih failed
    rw [(State.backTrack_eq_ok back).1, (State.eq_self_of_propagate pass).2] at hcall
    exact (ih' hr).trans (List.cons.inj hcall).2

/-- After a call for a literal that answers `unsat`, going back restores the clauses and the
snapshots from before the decision. -/
theorem backTrack_eq {l : Literal} (h : Recurses depth (s.decideAt l depth) r)
    (hr : r.ending = .answered .unsat) :
    r.state.backTrack = .ok { s with counters := r.state.counters.add .backtracks 1 } :=
  State.backTrack_of_cons (h.snapshots_eq hr)

theorem backTrack_ne_error {l : Literal} (h : Recurses depth (s.decideAt l depth) r)
    (hr : r.ending = .answered .unsat) (e : SearchError) : r.state.backTrack ≠ .error e := by
  rw [h.backTrack_eq hr]
  simp

theorem restored_eq {l : Literal} {restored : State} (h : Recurses depth (s.decideAt l depth) r)
    (hr : r.ending = .answered .unsat) (back : r.state.backTrack = .ok restored) :
    restored = { s with counters := r.state.counters.add .backtracks 1 } := by
  rw [h.backTrack_eq hr] at back
  exact (Except.ok.inj back).symm

end Recurses

/-- Every call of the recursive procedure ends. -/
theorem exists_recurses (depth : Nat) (s : State) : ∃ r, Recurses depth s r := by
  -- A pass and either branch leave fewer open places; a restored state has as many as before.
  induction hn : openPlaces s.clauses using Nat.strong_induction_on generalizing depth s with
  | _ n ih =>
    cases hs : s.status? with
    | some status =>
      cases status with
      | sat => exact ⟨_, .satisfied hs⟩
      | unsat => exact ⟨_, .falsified hs⟩
    | none =>
      by_cases hu : unitLiterals [] s.clauses = []
      · have hpass := State.propagate_of_no_units hu
        cases hp : s.pickLiteral with
        | error e => exact ⟨_, .unpickable hs hpass hp⟩
        | ok l =>
          have hmem := State.mem_unassigned_of_pickLiteral hp
          obtain ⟨r, hr⟩ := ih _ (hn ▸ openPlaces_assign_lt true hmem (.inl rfl)) (depth + 1)
            (s.decideAt l (depth + 1)) rfl
          by_cases hend : r.ending = .answered .unsat
          · obtain ⟨r', hr'⟩ := ih _
              (hn ▸ openPlaces_assign_lt true hmem (.inr (Int.neg_neg l).symm)) (depth + 1)
              ({ s with counters := r.state.counters.add .backtracks 1 }.branch (-l) false) rfl
            exact ⟨_, .second hs hpass hp hr hend (hr.backTrack_eq hend) hr'⟩
          · exact ⟨_, .first hs hpass hp hr hend⟩
      · obtain ⟨r, hr⟩ := ih _ (hn ▸ openPlaces_under_lt hu) depth s.propagated rfl
        exact ⟨r, .propagated hs (State.propagate_of_units hu) hr⟩

/-! ### The search runs the procedure -/

namespace Search

/-- What is left of a run, standing under `ds`, once a call has ended as `r`: after `unsat` the
search goes back, else it ends as the call did. -/
def resume (ds : List Decision) (events : List Event) (r : Run) : Run :=
  if r.ending = .answered .unsat then
    { state := r.state, decisions := ds : Search }.runFrom none (r.events.reverse ++ events)
  else
    { r with events := events.reverse ++ r.events }

theorem resume_of_unsat {r : Run} (h : r.ending = .answered .unsat) (ds : List Decision)
    (events : List Event) :
    resume ds events r =
      { state := r.state, decisions := ds : Search }.runFrom none (r.events.reverse ++ events) :=
  if_pos h

theorem resume_of_ne_unsat {r : Run} (h : r.ending ≠ .answered .unsat) (ds : List Decision)
    (events : List Event) : resume ds events r = { r with events := events.reverse ++ r.events } :=
  if_neg h

/-- Events reported before a call come first in what it reports. -/
theorem resume_append (ds : List Decision) (events before : List Event) (r : Run) :
    resume ds (before.reverse ++ events) r =
      resume ds events { r with events := before ++ r.events } := by
  unfold resume
  split
  · rw [List.reverse_append, List.append_assoc]
  · rw [List.reverse_append, List.reverse_reverse, List.append_assoc]

theorem runFrom_eq_of_step_eq {p q : Search} (h : p.step = q.step) (events : List Event) :
    p.runFrom none events = q.runFrom none events := by
  rw [runFrom_none, runFrom_none, h]

theorem runFrom_branch {s : State} {l : Literal} {ds : List Decision} (live : s.status? = none)
    (idle : unitLiterals [] s.clauses = []) (pick : s.pickLiteral = .ok l) (events : List Event) :
    { state := s, decisions := ds : Search }.runFrom none events =
      { state := s.decideAt l (ds.length + 1), decisions := ⟨l, false⟩ :: ds : Search }.runFrom none
        (.branched l (ds.length + 1) :: events) :=
  (Round.branched live idle pick).runFrom_eq events

/-- Where the call for a literal has failed, the search goes on as the call for its negation. -/
theorem resume_failed {depth : Nat} {s : State} {l : Literal} {r : Run}
    (h : Recurses depth (s.decideAt l depth) r) (hr : r.ending = .answered .unsat)
    (ds : List Decision) (events : List Event) :
    resume (⟨l, false⟩ :: ds) events r =
      { state := { s with counters := r.state.counters.add .backtracks 1 }.branch (-l) false
        decisions := ⟨l, true⟩ :: ds : Search }.runFrom none
          (.backtracked (-l) (ds.length + 1) :: (r.events.reverse ++ events)) := by
  -- The decision is the newest one when the call fails, so no exhausted decision lies above it.
  have hround := Round.backtracked (q := ⟨r.state, ⟨l, false⟩ :: ds⟩) (h.status?_eq hr)
    (List.forall_mem_nil _) rfl (h.snapshots_eq hr)
  rw [resume_of_unsat hr, hround.runFrom_eq]
  rfl

/-- A falsified search passes over the decisions whose negation was tried. -/
theorem resume_negated {r : Run}
    (h : r.ending = .answered .unsat → r.state.status? = some .unsat) (l : Literal)
    (ds : List Decision) (events : List Event) :
    resume (⟨l, true⟩ :: ds) events r = resume ds events r := by
  unfold resume
  split
  · next hr =>
    refine runFrom_eq_of_step_eq ?_ _
    simp only [step, h hr, retreat, List.dropWhile_cons_of_pos]
  · rfl

end Search

/-- The rounds of a search that stands under `depth` decisions run a call at `depth` and go on where
it ended. -/
theorem Recurses.runFrom_eq {depth : Nat} {s : State} {r : Run} (h : Recurses depth s r)
    {ds : List Decision} (hds : ds.length = depth) (events : List Event) :
    { state := s, decisions := ds : Search }.runFrom none events = Search.resume ds events r := by
  induction h generalizing ds events with
  | satisfied done =>
    subst hds
    rw [(Search.Final.satisfied done).runFrom_eq, Search.resume_of_ne_unsat (by simp)]
    simp
  | falsified failed => rfl
  | propagated live pass again ih =>
    obtain ⟨hu, rfl⟩ := State.eq_propagated_of_propagate pass
    rw [(Search.Round.propagated live hu).runFrom_eq]
    exact ih hds events
  | unpickable live pass pick =>
    obtain ⟨hu, rfl⟩ := State.eq_self_of_propagate pass
    rw [(Search.Final.unpickable live hu pick).runFrom_eq, Search.resume_of_ne_unsat (by simp)]
    simp
  | first live pass pick call kept ih =>
    obtain ⟨hu, rfl⟩ := State.eq_self_of_propagate pass
    subst hds
    rw [Search.runFrom_branch live hu pick, ih rfl, Search.resume_of_ne_unsat kept,
      Search.resume_of_ne_unsat (by exact kept)]
    simp
  | unsaved live pass pick call failed back =>
    exact absurd back (call.backTrack_ne_error failed _)
  | @second _ _ _ _ l r r' live pass pick call failed back call' ih ih' =>
    obtain ⟨hu, rfl⟩ := State.eq_self_of_propagate pass
    obtain rfl := call.restored_eq failed back
    subst hds
    have hevents : Event.backtracked (-l) (ds.length + 1) ::
        (r.events.reverse ++ Event.branched l (ds.length + 1) :: events) =
        (Event.branched l (ds.length + 1) :: r.events ++
          [Event.backtracked (-l) (ds.length + 1)]).reverse ++ events := by simp
    rw [Search.runFrom_branch live hu pick, ih rfl, Search.resume_failed call failed, ih' rfl,
      Search.resume_negated call'.status?_eq, hevents, Search.resume_append, List.append_assoc]
    rfl

theorem Recurses.search_eq {s : State} {r : Run} (h : Recurses 0 s r) : s.search none = r := by
  refine (h.runFrom_eq List.length_nil []).trans ?_
  by_cases hr : r.ending = .answered .unsat
  · have hfinal := Search.Final.falsified (q := ⟨r.state, []⟩) (h.status?_eq hr) (by simp)
    rw [Search.resume_of_unsat hr, hfinal.runFrom_eq, ← hr]
    simp
  · rw [Search.resume_of_ne_unsat hr]
    rfl

theorem recurses_search (s : State) : Recurses 0 s (s.search none) := by
  obtain ⟨r, hr⟩ := exists_recurses 0 s
  rwa [hr.search_eq]

/-- The search ends exactly as the recursive procedure does: with the same answer or error, the same
clauses, snapshots and counters, and the same events. -/
theorem recurses_iff_search (s : State) (r : Run) : Recurses 0 s r ↔ s.search none = r := by
  constructor
  · exact Recurses.search_eq
  · intro h
    rw [← h]
    exact recurses_search s

end SatSearch
