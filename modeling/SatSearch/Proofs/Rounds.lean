import Mathlib
import SatSearch.Search.Run

/-!
# Rounds of the search

`Search.Round` says once what a round can do that goes on, and `Search.Final` what the last round can
do; one of the two holds of every search (`round_or_final`). `Search.Reaches` relates a search to the
loop heads of its run, with the events of the rounds in between. Main statement: a run without an
alarm ends as the last round of one of its loop heads says (`exists_final_of_search`).
-/

namespace SatSearch

/-- The state after a pass of propagation. -/
def State.propagated (s : State) : State :=
  { s with
    clauses := s.clauses.map (Clause.under (unitLiterals [] s.clauses))
    counters := s.counters.add .unitPropagations (unitLiterals [] s.clauses).length }

theorem State.propagate_of_units {s : State} (h : unitLiterals [] s.clauses ≠ []) :
    s.propagate = (true, s.propagated) := by
  unfold State.propagate
  split
  · next hnil => exact absurd hnil h
  · rfl

theorem State.propagate_of_no_units {s : State} (h : unitLiterals [] s.clauses = []) :
    s.propagate = (false, s) := by
  unfold State.propagate
  rw [h]

theorem State.eq_propagated_of_propagate {s t : State} (h : s.propagate = (true, t)) :
    unitLiterals [] s.clauses ≠ [] ∧ t = s.propagated := by
  by_cases hu : unitLiterals [] s.clauses = []
  · rw [propagate_of_no_units hu] at h
    cases h
  · rw [propagate_of_units hu] at h
    cases h
    exact ⟨hu, rfl⟩

theorem State.eq_self_of_propagate {s t : State} (h : s.propagate = (false, t)) :
    unitLiterals [] s.clauses = [] ∧ t = s := by
  by_cases hu : unitLiterals [] s.clauses = []
  · rw [propagate_of_no_units hu] at h
    cases h
    exact ⟨hu, rfl⟩
  · rw [propagate_of_units hu] at h
    cases h

theorem State.isSatisfied_of_status? {s : State} (h : s.status? = some .sat) :
    s.isSatisfied = true := by
  unfold State.status? at h
  split at h
  · assumption
  · split at h <;> cases h

theorem State.isFalsified_of_status? {s : State} (h : s.status? = some .unsat) :
    s.isFalsified = true := by
  unfold State.status? at h
  split at h
  · cases h
  · split at h
    · assumption
    · cases h

namespace Search

/-! ### What a round does -/

/-- The rounds that go on, with the event they report and the search they lead to. -/
inductive Round (q : Search) : Option Event → Search → Prop
  | propagated (live : q.state.status? = none) (units : unitLiterals [] q.state.clauses ≠ []) :
      Round q none { q with state := q.state.propagated }
  | branched {l : Literal} (live : q.state.status? = none)
      (idle : unitLiterals [] q.state.clauses = []) (pick : q.state.pickLiteral = .ok l) :
      Round q (some (.branched l (q.decisions.length + 1))) (q.decide l)
  | backtracked {above older : List Decision} {l : Literal} {saved : List Clause}
      {rest : List (List Clause)} (failed : q.state.status? = some .unsat)
      (negated : ∀ d ∈ above, d.negated = true) (decisions : q.decisions = above ++ ⟨l, false⟩ :: older)
      (snapshots : q.state.snapshots = saved :: rest) :
      Round q (some (.backtracked (-l) (older.length + 1)))
        { state :=
            { clauses := saved.map (Clause.assign (-l) true)
              snapshots := rest
              counters := q.state.counters.add .backtracks 1 }
          decisions := ⟨l, true⟩ :: older }

/-- The rounds in which a search ends, with the event they report. -/
inductive Final (q : Search) : Option Event → Ending → Prop
  | satisfied (done : q.state.status? = some .sat) :
      Final q (some (.satisfied q.decisions.length)) (.answered .sat)
  | falsified (failed : q.state.status? = some .unsat)
      (negated : ∀ d ∈ q.decisions, d.negated = true) : Final q none (.answered .unsat)
  | unpickable {e : SearchError} (live : q.state.status? = none)
      (idle : unitLiterals [] q.state.clauses = []) (pick : q.state.pickLiteral = .error e) :
      Final q none (.stuck e)
  | unsaved {above older : List Decision} {l : Literal} (failed : q.state.status? = some .unsat)
      (negated : ∀ d ∈ above, d.negated = true) (decisions : q.decisions = above ++ ⟨l, false⟩ :: older)
      (snapshots : q.state.snapshots = []) : Final q none (.stuck .noSnapshot)

theorem dropWhile_negated {above older : List Decision} {l : Literal}
    (h : ∀ d ∈ above, d.negated = true) :
    (above ++ ⟨l, false⟩ :: older).dropWhile Decision.negated = ⟨l, false⟩ :: older := by
  rw [List.dropWhile_append_of_pos h]
  rfl

theorem negated_or_exists_untried (ds : List Decision) :
    (∀ d ∈ ds, d.negated = true) ∨
      ∃ above l older, (∀ d ∈ above, d.negated = true) ∧ ds = above ++ ⟨l, false⟩ :: older := by
  induction ds with
  | nil =>
    left
    intro d hd
    cases hd
  | cons d ds ih =>
    obtain ⟨l, negated⟩ := d
    cases negated with
    | false =>
      right
      refine ⟨[], l, ds, ?_, rfl⟩
      intro d hd
      cases hd
    | true =>
      rcases ih with h | ⟨above, m, older, h, rfl⟩
      · exact .inl (List.forall_mem_cons.2 ⟨rfl, h⟩)
      · exact .inr ⟨⟨l, true⟩ :: above, m, older, List.forall_mem_cons.2 ⟨rfl, h⟩, rfl⟩

theorem round_or_final (q : Search) :
    (∃ event next, q.Round event next) ∨ ∃ event ending, q.Final event ending := by
  cases hs : q.state.status? with
  | none =>
    by_cases hu : unitLiterals [] q.state.clauses = []
    · cases hp : q.state.pickLiteral with
      | error e => exact .inr ⟨_, _, .unpickable hs hu hp⟩
      | ok l => exact .inl ⟨_, _, .branched hs hu hp⟩
    · exact .inl ⟨_, _, .propagated hs hu⟩
  | some status =>
    cases status with
    | sat => exact .inr ⟨_, _, .satisfied hs⟩
    | unsat =>
      rcases negated_or_exists_untried q.decisions with h | ⟨above, l, older, h, hd⟩
      · exact .inr ⟨_, _, .falsified hs h⟩
      · cases hq : q.state.snapshots with
        | nil => exact .inr ⟨_, _, .unsaved hs h hd hq⟩
        | cons saved rest => exact .inl ⟨_, _, .backtracked hs h hd hq⟩

/-! ### Rounds and steps -/

theorem Round.step_eq {q next : Search} {event : Option Event} (h : q.Round event next) :
    q.step = .onward event next := by
  cases h with
  | propagated live units =>
    simp only [step, live, extend, State.propagate_of_units units]
  | branched live idle pick =>
    simp only [step, live, extend, State.propagate_of_no_units idle, pick]
  | backtracked failed negated decisions snapshots =>
    simp only [step, failed, retreat, decisions, dropWhile_negated negated, State.backTrack,
      snapshots]
    rfl

theorem Final.step_eq {q : Search} {event : Option Event} {ending : Ending}
    (h : q.Final event ending) :
    (∃ status, ending = .answered status ∧ q.step = .answer event status q.state) ∨
      ∃ e, ending = .stuck e ∧ event = none ∧ q.step = .stuck e q.state := by
  cases h with
  | satisfied done => exact .inl ⟨.sat, rfl, by simp only [step, done]⟩
  | falsified failed negated =>
    have hnone : q.decisions.dropWhile Decision.negated = [] := by
      rwa [List.dropWhile_eq_nil_iff]
    exact .inl ⟨.unsat, rfl, by simp only [step, failed, retreat, hnone]⟩
  | unpickable live idle pick =>
    refine .inr ⟨_, rfl, rfl, ?_⟩
    simp only [step, live, extend, State.propagate_of_no_units idle, pick]
  | unsaved failed negated decisions snapshots =>
    refine .inr ⟨_, rfl, rfl, ?_⟩
    simp only [step, failed, retreat, decisions, dropWhile_negated negated, State.backTrack,
      snapshots]

theorem Round.of_step {q next : Search} {event : Option Event} (h : q.step = .onward event next) :
    q.Round event next := by
  rcases q.round_or_final with ⟨event', next', hround⟩ | ⟨event', ending, hfinal⟩
  · have heq := hround.step_eq
    rw [h] at heq
    injection heq with hevent hnext
    rwa [hevent, hnext]
  · rcases hfinal.step_eq with ⟨status, -, hstep⟩ | ⟨e, -, -, hstep⟩
    · rw [h] at hstep
      cases hstep
    · rw [h] at hstep
      cases hstep

theorem Round.weight_lt {q next : Search} {event : Option Event} (h : q.Round event next) :
    next.weight < q.weight :=
  weight_lt_of_step h.step_eq

/-- What every round carries back from the search it leads to, and what holds before a last round, holds
of every search: each round loses weight, also one that brings clauses back to life. -/
@[elab_as_elim]
theorem run_induction {motive : Search → Prop} (q : Search)
    (round : ∀ {q event next}, q.Round event next → motive next → motive q)
    (final : ∀ {q event ending}, q.Final event ending → motive q) : motive q := by
  induction hw : q.weight using Nat.strong_induction_on generalizing q with
  | _ w ih =>
    rcases q.round_or_final with ⟨event, next, hround⟩ | ⟨event, ending, hfinal⟩
    · exact round hround (ih next.weight (hw ▸ hround.weight_lt) next rfl)
    · exact final hfinal

theorem alarmAfter_none (event : Option Event) : alarmAfter none event = none := by
  cases event <;> rfl

theorem runFrom_zero (q : Search) (events : List Event) :
    q.runFrom (some 0) events =
      { ending := .expired, state := q.state, events := events.reverse } := by
  rw [runFrom, if_pos rfl]

/-- As long as its alarm has not rung, a run goes round by round. -/
theorem runFrom_of_ne {alarm : Option Nat} (h : alarm ≠ some 0) (q : Search) (events : List Event) :
    q.runFrom alarm events =
      match q.step with
      | .onward event next => next.runFrom (alarmAfter alarm event) (event.toList ++ events)
      | .answer event status last =>
        { ending := if alarmAfter alarm event = some 0 then .expired else .answered status
          state := last
          events := (event.toList ++ events).reverse }
      | .stuck error last => { ending := .stuck error, state := last, events := events.reverse } := by
  rw [runFrom, if_neg h]
  split
  · next event next hstep => rw [hstep]
  · next event status last hstep => rw [hstep]
  · next error last hstep => rw [hstep]

/-- Without an alarm a run goes round by round. -/
theorem runFrom_none (q : Search) (events : List Event) :
    q.runFrom none events =
      match q.step with
      | .onward event next => next.runFrom none (event.toList ++ events)
      | .answer event status last =>
        { ending := .answered status, state := last, events := (event.toList ++ events).reverse }
      | .stuck error last => { ending := .stuck error, state := last, events := events.reverse } := by
  rw [runFrom_of_ne (by simp)]
  cases q.step with
  | onward event next => simp only [alarmAfter_none]
  | answer event status last => simp [alarmAfter_none]
  | stuck error last => rfl

theorem Round.runFrom_eq {q next : Search} {event : Option Event} (h : q.Round event next)
    (events : List Event) :
    q.runFrom none events = next.runFrom none (event.toList ++ events) := by
  rw [runFrom_none, h.step_eq]

theorem Final.runFrom_eq {q : Search} {event : Option Event} {ending : Ending}
    (h : q.Final event ending) (events : List Event) :
    q.runFrom none events =
      { ending, state := q.state, events := (event.toList ++ events).reverse } := by
  rw [runFrom_none]
  rcases h.step_eq with ⟨status, rfl, hstep⟩ | ⟨e, rfl, rfl, hstep⟩
  · rw [hstep]
  · rw [hstep]
    rfl

/-! ### Loop heads -/

/-- Rounds lead from `start` to a loop head; `history` holds what each of them reported, newest
first. -/
inductive Reaches (start : Search) : List (Option Event) → Search → Prop
  | refl : Reaches start [] start
  | onward {history : List (Option Event)} {event : Option Event} {q next : Search}
      (before : Reaches start history q) (step : q.step = .onward event next) :
      Reaches start (event :: history) next

namespace Reaches

variable {start q r : Search} {history later : List (Option Event)}

theorem trans (h : start.Reaches history q) (h' : q.Reaches later r) :
    start.Reaches (later ++ history) r := by
  induction h' with
  | refl => exact h
  | onward _ step ih => exact ih.onward step

theorem runFrom_eq (h : start.Reaches history q) (events : List Event) :
    start.runFrom none events = q.runFrom none (history.flatMap Option.toList ++ events) := by
  induction h with
  | refl => rfl
  | onward _ step ih =>
    rw [ih, (Round.of_step step).runFrom_eq, List.flatMap_cons, List.append_assoc]

end Reaches

/-- From every loop head the run comes to its last round. -/
theorem exists_final (q : Search) :
    ∃ history last event ending, q.Reaches history last ∧ last.Final event ending := by
  induction q using run_induction with
  | round hround ih =>
    obtain ⟨history, last, event, ending, hreach, hfinal⟩ := ih
    exact ⟨_, last, event, ending, (Reaches.refl.onward hround.step_eq).trans hreach, hfinal⟩
  | final hfinal => exact ⟨[], _, _, _, .refl, hfinal⟩

/-- A search ends as the last round of one of its loop heads says. -/
theorem exists_final_of_search (s : State) :
    ∃ history q event ending, (start s).Reaches history q ∧ q.Final event ending ∧
      s.search none =
        { ending
          state := q.state
          events := (event.toList ++ history.flatMap Option.toList).reverse } := by
  obtain ⟨history, q, event, ending, hreach, hfinal⟩ := (start s).exists_final
  refine ⟨history, q, event, ending, hreach, hfinal, ?_⟩
  rw [State.search, hreach.runFrom_eq, hfinal.runFrom_eq, List.append_nil]

/-- Without an alarm a search answers or goes wrong. -/
theorem answered_or_stuck (s : State) :
    (∃ status, (s.search none).ending = .answered status) ∨
      ∃ e, (s.search none).ending = .stuck e := by
  obtain ⟨_, _, _, ending, -, hfinal, hrun⟩ := exists_final_of_search s
  rw [hrun]
  rcases hfinal.step_eq with ⟨status, hstatus, -⟩ | ⟨e, he, -⟩
  · exact .inl ⟨status, hstatus⟩
  · exact .inr ⟨e, he⟩

end Search

end SatSearch
