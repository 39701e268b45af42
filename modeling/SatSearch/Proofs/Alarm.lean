import SatSearch.Proofs.Rounds

/-!
# Runs that an alarm cuts short

An alarm changes nothing about the rounds of a search, it only ends the run early. A run with an alarm
is either cut at one of its loop heads, or the alarm allows more events than the run reports and
changes nothing at all (`exists_cut_or_eq`). Main statements: with whatever alarm a run ends at a loop
head (`exists_head_of_search`), and until the alarm rings it reports what the run without an alarm
does (`events_search_some`).
-/

namespace SatSearch

namespace Search

variable {q next : Search} {event : Option Event} {ending : Ending}

/-! ### One round under an alarm -/

theorem Round.runFrom_some (h : q.Round event next) (k : Nat) (events : List Event) :
    q.runFrom (some (k + 1)) events =
      next.runFrom (some (k + 1 - event.toList.length)) (event.toList ++ events) := by
  rw [runFrom_of_ne (by simp), h.step_eq]
  cases event <;> rfl

/-- The last round is cut if its event is the one that the alarm waits for. -/
theorem Final.runFrom_some (h : q.Final event ending) (k : Nat) (events : List Event) :
    q.runFrom (some (k + 1)) events =
      if event.toList.length = k + 1 then
        { ending := .expired, state := q.state, events := (event.toList ++ events).reverse }
      else q.runFrom none events := by
  rw [runFrom_of_ne (by simp), h.runFrom_eq]
  rcases h.step_eq with ⟨status, rfl, hstep⟩ | ⟨e, rfl, rfl, hstep⟩
  · rw [hstep]
    cases event with
    | none => simp [alarmAfter]
    | some e => cases k <;> simp [alarmAfter]
  · rw [hstep]
    simp

/-! ### What a run reports -/

theorem events_runFrom_none (q : Search) (events : List Event) :
    (q.runFrom none events).events = events.reverse ++ (q.runFrom none []).events := by
  obtain ⟨history, last, event, ending, hreach, hfinal⟩ := q.exists_final
  rw [hreach.runFrom_eq, hreach.runFrom_eq, hfinal.runFrom_eq, hfinal.runFrom_eq]
  simp

theorem Round.length_events (h : q.Round event next) :
    (q.runFrom none []).events.length =
      event.toList.length + (next.runFrom none []).events.length := by
  rw [h.runFrom_eq, events_runFrom_none]
  simp

/-- A run whose alarm waits for `k` events is cut when it has reported them, or it reports fewer. -/
theorem exists_cut_or_eq (q : Search) (k : Nat) (events : List Event) :
    (∃ history last event, q.Reaches history last ∧
      (event = none ∨ ∃ ending, last.Final event ending) ∧
      (event.toList ++ history.flatMap Option.toList).length = k ∧
      q.runFrom (some k) events =
        { ending := .expired
          state := last.state
          events := (event.toList ++ history.flatMap Option.toList ++ events).reverse }) ∨
    ((q.runFrom none []).events.length < k ∧ q.runFrom (some k) events = q.runFrom none events) := by
  induction q using run_induction generalizing k events with
  | @round q event next hround ih =>
    cases k with
    | zero => exact .inl ⟨[], q, none, .refl, .inl rfl, rfl, runFrom_zero q events⟩
    | succ k =>
      rw [hround.runFrom_some, hround.length_events]
      have hevent : event.toList.length ≤ 1 := by cases event <;> simp
      rcases ih (k + 1 - event.toList.length) (event.toList ++ events) with
        ⟨history, last, event', hreach, hend, hlength, hrun⟩ | h
      · refine .inl ⟨history ++ [event], last, event',
          (Reaches.refl.onward hround.step_eq).trans hreach, hend, ?_, ?_⟩
        · simp only [List.length_append, List.flatMap_append, List.flatMap_singleton] at hlength ⊢
          omega
        · rw [hrun]
          simp
      · right
        rw [hround.runFrom_eq]
        exact ⟨by omega, h.2⟩
  | @final q event ending hfinal =>
    cases k with
    | zero => exact .inl ⟨[], q, none, .refl, .inl rfl, rfl, runFrom_zero q events⟩
    | succ k =>
      rw [hfinal.runFrom_some]
      split
      · next hlength =>
        refine .inl ⟨[], q, event, .refl, .inr ⟨ending, hfinal⟩, ?_, ?_⟩
        · simpa using hlength
        · simp
      · next hlength =>
        refine .inr ⟨?_, rfl⟩
        rw [hfinal.runFrom_eq]
        have hevent : event.toList.length ≤ 1 := by cases event <;> simp
        simp only [List.append_nil, List.length_reverse]
        omega

/-! ### Runs of a state -/

/-- With whatever alarm, a run ends at one of its loop heads; only the event of the last round may
come on top of those of the rounds before. -/
theorem exists_head_of_search (s : State) (alarm : Option Nat) :
    ∃ history q event, (start s).Reaches history q ∧
      (event = none ∨ ∃ ending, q.Final event ending) ∧ (s.search alarm).state = q.state ∧
      (s.search alarm).events = (event.toList ++ history.flatMap Option.toList).reverse := by
  have hnone : ∃ history q event, (start s).Reaches history q ∧
      (event = none ∨ ∃ ending, q.Final event ending) ∧ (s.search none).state = q.state ∧
      (s.search none).events = (event.toList ++ history.flatMap Option.toList).reverse := by
    obtain ⟨history, q, event, ending, hreach, hfinal, hrun⟩ := exists_final_of_search s
    rw [hrun]
    exact ⟨history, q, event, hreach, .inr ⟨ending, hfinal⟩, rfl, rfl⟩
  cases alarm with
  | none => exact hnone
  | some k =>
    rcases (start s).exists_cut_or_eq k [] with ⟨history, q, event, hreach, hend, -, hrun⟩ | h
    · rw [State.search, hrun, List.append_nil]
      exact ⟨history, q, event, hreach, hend, rfl, rfl⟩
    · rw [State.search, h.2]
      exact hnone

/-- An alarm lets the first events through and no others. -/
theorem events_search_some (s : State) (k : Nat) :
    (s.search (some k)).events = (s.search none).events.take k := by
  rcases (start s).exists_cut_or_eq k [] with ⟨history, q, event, hreach, hend, hlength, hrun⟩ | h
  · rw [State.search, State.search, hrun, hreach.runFrom_eq, events_runFrom_none, List.append_nil,
      List.append_nil]
    rcases hend with rfl | ⟨ending, hfinal⟩
    · rw [List.take_left' (by rw [List.length_reverse]; exact hlength)]
      rfl
    · rw [hfinal.runFrom_eq, List.append_nil, ← List.reverse_append, List.take_of_length_le]
      rw [List.length_reverse, hlength]
  · rw [State.search, State.search, h.2, List.take_of_length_le (Nat.le_of_lt h.1)]

end Search

end SatSearch
