import SatSearch.Proofs.Ledger

/-!
# The counters at each report

`Search.reports` lists what a run without an alarm reports, each event with the counters at that moment, and
`Search.readings` the counters at the start and at each report. Main statements: an alarm that waits for no
more events than there are cuts the run at the reading with its number (`Search.cut_at_reading`), one that
waits for more changes nothing (`Search.runFrom_some_of_lt`), and the decisions and backtracks of a run that
was cut are as many as the events waited for, without the answer (`State.moves_search_some`).
-/

namespace SatSearch

namespace Event

/-- Whether an answer is reported. -/
def isAnswer : Event → Bool
  | branched _ _ => false
  | backtracked _ _ => false
  | satisfied _ => true

end Event

namespace Search

/-- What a run reports, each event with the counters at that moment. -/
def reports (q : Search) : List (Event × Counters) :=
  match _h : q.step with
  | .onward event next => event.toList.map (·, next.state.counters) ++ reports next
  | .answer event _ last => event.toList.map (·, last.counters)
  | .stuck _ _ => []
termination_by q.weight
decreasing_by exact weight_lt_of_step ‹_›

/-- The counters at the start of a run and at each of its reports. -/
def readings (q : Search) : List Counters :=
  q.state.counters :: q.reports.map Prod.snd

variable {q next : Search} {event : Option Event} {ending : Ending}

/-! ### Round by round -/

theorem reports_eq (q : Search) :
    q.reports =
      match q.step with
      | .onward event next => event.toList.map (·, next.state.counters) ++ next.reports
      | .answer event _ last => event.toList.map (·, last.counters)
      | .stuck _ _ => [] := by
  rw [reports]
  split
  · next event next hstep => rw [hstep]
  · next event status last hstep => rw [hstep]
  · next error last hstep => rw [hstep]

theorem Round.reports_eq (h : q.Round event next) :
    q.reports = event.toList.map (·, next.state.counters) ++ next.reports := by
  rw [Search.reports_eq, h.step_eq]

theorem Final.reports_eq (h : q.Final event ending) :
    q.reports = event.toList.map (·, q.state.counters) := by
  rw [Search.reports_eq]
  rcases h.step_eq with ⟨status, -, hstep⟩ | ⟨e, -, rfl, hstep⟩
  · rw [hstep]
  · rw [hstep]
    rfl

theorem map_fst_reports (q : Search) : q.reports.map Prod.fst = (q.runFrom none []).events := by
  induction q using run_induction with
  | @round q event next hround ih =>
    rw [hround.reports_eq, hround.runFrom_eq, events_runFrom_none, List.map_append, ih]
    cases event <;> rfl
  | @final q event ending hfinal =>
    rw [hfinal.reports_eq, hfinal.runFrom_eq]
    cases event <;> rfl

theorem length_reports (q : Search) : q.reports.length = (q.runFrom none []).events.length := by
  rw [← map_fst_reports, List.length_map]

theorem Round.getElem?_readings (h : q.Round event next) (k : Nat) :
    q.readings[k + 1]? = next.readings[k + 1 - event.toList.length]? := by
  rw [readings, readings, h.reports_eq]
  cases event <;> rfl

/-! ### Runs under an alarm -/

/-- An alarm that waits for no more events than there are cuts the run at the reading with its number. -/
theorem cut_at_reading {k : Nat} (h : k ≤ q.reports.length) (events : List Event) :
    (q.runFrom (some k) events).ending = .expired ∧
      q.readings[k]? = some (q.runFrom (some k) events).state.counters := by
  induction q using run_induction generalizing k events with
  | @round q event next hround ih =>
    cases k with
    | zero =>
      rw [runFrom_zero]
      exact ⟨rfl, rfl⟩
    | succ k =>
      rw [hround.runFrom_some, hround.getElem?_readings]
      apply ih
      rw [hround.reports_eq, List.length_append, List.length_map] at h
      omega
  | @final q event ending hfinal =>
    cases k with
    | zero =>
      rw [runFrom_zero]
      exact ⟨rfl, rfl⟩
    | succ k =>
      -- Only the event of the last round itself can be waited for.
      rw [hfinal.reports_eq, List.length_map] at h
      cases event with
      | none => exact absurd h (Nat.not_succ_le_zero k)
      | some e =>
        obtain rfl : k = 0 := Nat.le_zero.1 (Nat.le_of_succ_le_succ h)
        rw [hfinal.runFrom_some, if_pos (by rfl), readings, hfinal.reports_eq]
        exact ⟨rfl, rfl⟩

/-- An alarm that waits for more events than there are changes nothing. -/
theorem runFrom_some_of_lt {k : Nat} (h : q.reports.length < k) (events : List Event) :
    q.runFrom (some k) events = q.runFrom none events := by
  obtain ⟨k, rfl⟩ := Nat.exists_eq_add_one_of_ne_zero (Nat.ne_zero_of_lt h)
  induction q using run_induction generalizing k events with
  | @round q event next hround ih =>
    rw [hround.reports_eq, List.length_append, List.length_map] at h
    obtain ⟨j, hj⟩ := Nat.exists_eq_add_of_lt (show event.toList.length < k + 1 by omega)
    rw [hround.runFrom_some, hround.runFrom_eq, show k + 1 - event.toList.length = j + 1 by omega]
    exact ih _ j (by omega)
  | @final q event ending hfinal =>
    rw [hfinal.reports_eq, List.length_map] at h
    rw [hfinal.runFrom_some, if_neg (Nat.ne_of_lt h)]

/-! ### What the counters count -/

theorem Round.get_le (h : q.Round event next) (c : Counter) :
    q.state.counters.get c ≤ next.state.counters.get c := by
  cases h with
  | propagated live units =>
    rw [State.propagated, Counters.get_add]
    split <;> omega
  | branched live idle pick =>
    rw [counters_decide, Counters.get_raise, Counters.get_add]
    split <;> split <;> omega
  | backtracked failed negated decisions snapshots =>
    rw [Counters.get_add]
    split <;> omega

theorem Round.mem_readings (h : q.Round event next) {counters : Counters}
    (hmem : counters ∈ q.readings) : counters = q.state.counters ∨ counters ∈ next.readings := by
  rw [readings, h.reports_eq] at hmem
  rcases List.mem_cons.1 hmem with rfl | hmem
  · exact .inl rfl
  · cases event with
    | none => exact .inr (List.mem_cons_of_mem _ hmem)
    | some e => exact .inr hmem

theorem Final.eq_of_mem_readings (h : q.Final event ending) {counters : Counters}
    (hmem : counters ∈ q.readings) : counters = q.state.counters := by
  rw [readings, h.reports_eq] at hmem
  cases event <;> simpa using hmem

theorem get_le_of_mem_readings {counters : Counters} (h : counters ∈ q.readings) (c : Counter)
    (events : List Event) : counters.get c ≤ (q.runFrom none events).state.counters.get c := by
  induction q using run_induction generalizing counters events with
  | @round q event next hround ih =>
    rw [hround.runFrom_eq]
    rcases hround.mem_readings h with rfl | h
    · calc q.state.counters.get c ≤ next.state.counters.get c := hround.get_le c
        _ ≤ (next.runFrom none (event.toList ++ events)).state.counters.get c :=
          ih List.mem_cons_self _
    · exact ih h _
  | final hfinal =>
    rw [hfinal.runFrom_eq, hfinal.eq_of_mem_readings h]

theorem Round.isAnswer_eq_false (h : q.Round event next) : ∀ e ∈ event, e.isAnswer = false := by
  cases h <;> simp [Event.isAnswer]

theorem Reaches.isAnswer_eq_false {history : List (Option Event)} (h : q.Reaches history next) :
    ∀ e ∈ history.flatMap Option.toList, e.isAnswer = false := by
  induction h with
  | refl => simp
  | onward _ step ih =>
    rw [List.flatMap_cons]
    refine List.forall_mem_append.2 ⟨?_, ih⟩
    intro e he
    exact (Round.of_step step).isAnswer_eq_false e (Option.mem_toList.1 he)

end Search

/-! ### Decisions and backtracks -/

theorem decisionsIn_add_backtracksIn (events : List Event) :
    decisionsIn events + backtracksIn events + events.countP Event.isAnswer = events.length := by
  induction events with
  | nil => rfl
  | cons e es ih =>
    rw [List.countP_cons, List.length_cons, ← ih]
    cases e with
    | branched l depth => simp [Event.isAnswer, Nat.add_right_comm]
    | backtracked l depth => simp [Event.isAnswer, Nat.add_right_comm, ← Nat.add_assoc]
    | satisfied depth => simp [Event.isAnswer, Nat.add_assoc]

theorem countP_isAnswer_eq_zero {events : List Event} (h : ∀ e ∈ events, e.isAnswer = false) :
    events.countP Event.isAnswer = 0 := by
  apply List.countP_eq_zero.2
  intro e he
  rw [h e he]
  exact Bool.false_ne_true

/-- If none but the last event is an answer, the last one tells how many there are. -/
theorem countP_isAnswer_of_dropLast {events : List Event}
    (h : ∀ e ∈ events.dropLast, e.isAnswer = false) :
    events.countP Event.isAnswer = if events.getLast?.any Event.isAnswer then 1 else 0 := by
  rcases List.eq_nil_or_concat' events with rfl | ⟨before, last, rfl⟩
  · rfl
  · rw [List.dropLast_concat] at h
    rw [List.countP_append, countP_isAnswer_eq_zero h, Nat.zero_add, List.countP_singleton, List.getLast?_concat]
    rfl

namespace State

variable (s : State)

/-- What a run counts as moves it reports, whenever it ends, and nothing else but its answer. -/
theorem moves_search (alarm : Option Nat) :
    (s.search alarm).state.counters.get .decisions + (s.search alarm).state.counters.get .backtracks +
        (s.search alarm).events.countP Event.isAnswer =
      s.counters.get .decisions + s.counters.get .backtracks + (s.search alarm).events.length := by
  obtain ⟨q, own, hstate, hledger⟩ := LedgerAt.exists_of_search s alarm
  have htotal := decisionsIn_add_backtracksIn (s.search alarm).events
  rw [← hstate, hledger.decisions, hledger.backtracks]
  omega

theorem countP_isAnswer_search :
    (s.search none).events.countP Event.isAnswer =
      if (s.search none).ending = .answered .sat then 1 else 0 := by
  obtain ⟨history, q, event, ending, hreach, hfinal, hrun⟩ := Search.exists_final_of_search s
  have hbefore := countP_isAnswer_eq_zero hreach.isAnswer_eq_false
  rw [hrun, List.countP_reverse, List.countP_append, hbefore]
  cases hfinal <;> rfl

theorem isAnswer_of_mem_dropLast_search :
    ∀ e ∈ (s.search none).events.dropLast, e.isAnswer = false := by
  obtain ⟨history, q, event, ending, hreach, hfinal, hrun⟩ := Search.exists_final_of_search s
  rw [hrun]
  intro e he
  apply hreach.isAnswer_eq_false e
  cases event with
  | none => exact List.mem_reverse.1 (List.mem_of_mem_dropLast he)
  | some last =>
    rw [Option.toList_some, List.singleton_append, List.reverse_cons, List.dropLast_concat] at he
    exact List.mem_reverse.1 he

theorem moves_search_none :
    (s.search none).state.counters.get .decisions + (s.search none).state.counters.get .backtracks +
        (if (s.search none).ending = .answered .sat then 1 else 0) =
      s.counters.get .decisions + s.counters.get .backtracks + (Search.start s).reports.length := by
  have hmoves := s.moves_search none
  rw [countP_isAnswer_search] at hmoves
  rw [hmoves, Search.length_reports]
  rfl

/-- The answer is no move, and it can only be the event that the alarm waits for. -/
theorem moves_search_some {k : Nat} (hk : k ≤ (Search.start s).reports.length) :
    (s.search (some k)).state.counters.get .decisions +
        (s.search (some k)).state.counters.get .backtracks =
      s.counters.get .decisions + s.counters.get .backtracks +
        if ((Search.start s).reports.take k).getLast?.any (·.1.isAnswer) then k - 1 else k := by
  have hmoves := s.moves_search (some k)
  have hinit : ((s.search none).events.take k).dropLast <+: (s.search none).events.dropLast := by
    rw [List.dropLast_eq_take, List.dropLast_eq_take, List.take_take]
    apply List.take_prefix_take_left
    rw [List.length_take]
    omega
  have hcount := countP_isAnswer_of_dropLast fun e he =>
    s.isAnswer_of_mem_dropLast_search e (hinit.subset he)
  have hevents : (s.search none).events = (Search.start s).reports.map Prod.fst :=
    (Search.start s).map_fst_reports.symm
  rw [Search.events_search_some, hcount, List.length_take, hevents, List.length_map,
    Nat.min_eq_left hk, ← List.map_take, List.getLast?_map, Option.any_map] at hmoves
  split at hmoves
  · next hlast =>
    have hk0 : k ≠ 0 := by
      rintro rfl
      simp at hlast
    rw [if_pos hlast]
    omega
  · next hlast =>
    rw [if_neg hlast]
    omega

end State

end SatSearch
