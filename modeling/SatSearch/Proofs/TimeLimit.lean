import SatSearch.Bench.Measure
import SatSearch.Proofs.Reports
import SatSearch.Proofs.WholePart

/-!
# Measuring under a time limit

The alarm of a time limit rings at some report of the search, or not at all. Main statement: a measurement
that it cuts short differs from the one without a limit in what the moment of the alarm tells, one that it
does not cut differs in the time alone, and no alarm is left behind (`Instance.measure_under_limit`).
-/

namespace SatSearch

namespace Row

/-- The value of a counter in the row. -/
def counter (r : Row) : Counter → Int
  | .decisions => r.decisions
  | .unitPropagations => r.unitPropagations
  | .backtracks => r.backtracks
  | .maxDepth => r.maxDepth

/-- The row of the same search if an alarm rings when the counters stand like this. -/
def cut (r : Row) (counters : Counters) (wallTime : Float) : Row :=
  { r with
    status := Outcome.timeout.text
    wallTime := wallTime
    decisions := counters.get .decisions
    unitPropagations := counters.get .unitPropagations
    backtracks := counters.get .backtracks
    maxDepth := counters.get .maxDepth
    error := ""
    isCorrect := (r.expected.filter isAnswer).map fun _ => false }

end Row

/-! ### The log of a search -/

namespace State

variable (s : State)

theorem filter_debug_log :
    (s.search none).log.filter (·.level = .debug) = (Search.start s).reports.map (·.1.line) := by
  have hevents : ((s.search none).events.map Event.line).filter (·.level = .debug) =
      (s.search none).events.map Event.line := by
    rw [List.filter_eq_self, List.forall_mem_map]
    intro e _
    rfl
  rw [Run.log, List.filter_append, hevents, State.search, ← Search.map_fst_reports, List.map_map]
  cases (Search.runFrom none [] (Search.start s)).ending <;> simp [answerLine]

theorem log_search_some {k : Nat} (hk : k ≤ (Search.start s).reports.length) :
    (s.search (some k)).log = ((Search.start s).reports.map (·.1.line)).take k := by
  have hexpired : (s.search (some k)).ending = .expired := (Search.cut_at_reading hk []).1
  rw [Run.log, hexpired, List.append_nil, Search.events_search_some, State.search,
    ← Search.map_fst_reports, List.map_take, List.map_map]
  rfl

end State

/-! ### The row of a search -/

namespace Instance

/-- The row of an instance whose search was given an alarm. -/
def searchRow (i : Instance) (clauses : List (List Element)) (alarm : Option Nat) (wallTime : Float) :
    Row :=
  i.row clauses (.ofRun ((startState clauses).search alarm)) wallTime

variable {i : Instance} {clauses : List (List Element)} {wallTime wallTime' : Float}

theorem counter_searchRow (alarm : Option Nat) (c : Counter) :
    (i.searchRow clauses alarm wallTime).counter c =
      ((startState clauses).search alarm).state.counters.get c := by
  cases c <;> rfl

theorem status_searchRow_eq_sat_iff (alarm : Option Nat) :
    (i.searchRow clauses alarm wallTime).status = Status.sat.text ↔
      ((startState clauses).search alarm).ending = .answered .sat := by
  show (Attempt.ofRun _).outcome.text = _ ↔ _
  unfold Attempt.ofRun
  cases ((startState clauses).search alarm).ending with
  | answered status => cases status <;> simp [Outcome.text, Status.text]
  | stuck e => simp [Outcome.text, Status.text]
  | expired => simp [Outcome.text, Status.text]

theorem get_counters_startState (c : Counter) : (startState clauses).counters.get c = 0 := rfl

theorem moves_searchRow_none :
    (i.searchRow clauses none wallTime).decisions + (i.searchRow clauses none wallTime).backtracks +
        (if (i.searchRow clauses none wallTime).status = Status.sat.text then 1 else 0) =
      ((Search.start (startState clauses)).reports.length : Int) := by
  have hmoves := (startState clauses).moves_search_none
  rw [get_counters_startState, get_counters_startState] at hmoves
  show (searchRow _ _ _ _).counter .decisions + (searchRow _ _ _ _).counter .backtracks + _ = _
  simp only [counter_searchRow, status_searchRow_eq_sat_iff]
  split at hmoves
  · next h =>
    rw [if_pos h]
    omega
  · next h =>
    rw [if_neg h]
    omega

theorem moves_searchRow_some {k : Nat} (hk : k ≤ (Search.start (startState clauses)).reports.length) :
    (i.searchRow clauses (some k) wallTime).decisions +
        (i.searchRow clauses (some k) wallTime).backtracks =
      if ((Search.start (startState clauses)).reports.take k).getLast?.any (·.1.isAnswer) then
        ((k - 1 : Nat) : Int)
      else k := by
  have hmoves := (startState clauses).moves_search_some hk
  rw [get_counters_startState, get_counters_startState] at hmoves
  show (searchRow _ _ _ _).counter .decisions + (searchRow _ _ _ _).counter .backtracks = _
  rw [counter_searchRow, counter_searchRow]
  split at hmoves
  · next h =>
    rw [if_pos h]
    omega
  · next h =>
    rw [if_neg h]
    omega

/-- A word that is not an answer agrees with no label. -/
theorem isCorrect_of_not_answer (i : Instance) {text : String} (h : isAnswer text = false) :
    (i.expected.filter isAnswer).map (text == ·) =
      (i.expected.filter isAnswer).map fun _ => false := by
  apply Option.map_congr
  intro label hlabel
  have hanswer := (Option.filter_eq_some_iff.1 hlabel).2
  rw [beq_eq_false_iff_ne]
  rintro rfl
  rw [h] at hanswer
  cases hanswer

theorem searchRow_some_of_le {k : Nat} (hk : k ≤ (Search.start (startState clauses)).reports.length) :
    ∃ counters, (Search.start (startState clauses)).readings[k]? = some counters ∧
      i.searchRow clauses (some k) wallTime = (i.searchRow clauses none wallTime').cut counters wallTime ∧
      ∀ c, (i.searchRow clauses (some k) wallTime).counter c ≤
        (i.searchRow clauses none wallTime').counter c := by
  obtain ⟨hexpired, hreading⟩ := Search.cut_at_reading hk []
  refine ⟨_, hreading, ?_, ?_⟩
  · have hexpired : ((startState clauses).search (some k)).ending = .expired := hexpired
    have htimeout : isAnswer Outcome.timeout.text = false := by decide
    simp only [searchRow, row, Row.cut, Attempt.ofRun, hexpired, i.isCorrect_of_not_answer htimeout]
    rfl
  · intro c
    rw [counter_searchRow, counter_searchRow]
    exact Int.ofNat_le.2 (Search.get_le_of_mem_readings (List.mem_of_getElem? hreading) c [])

theorem searchRow_some_of_lt {k : Nat} (hk : (Search.start (startState clauses)).reports.length < k) :
    i.searchRow clauses (some k) wallTime = { i.searchRow clauses none wallTime' with wallTime } := by
  rw [searchRow, State.search, Search.runFrom_some_of_lt hk]
  rfl

/-! ### Measurements -/

theorem measure_none (h : i.load.clauses = .ok clauses) (s : Surroundings) :
    ∃ wallTime, (i.measure none s).1.row = i.searchRow clauses none wallTime ∧
      (i.measure none s).1.searchLog = ((startState clauses).search none).log := by
  unfold measure
  rw [h]
  exact ⟨_, rfl, rfl⟩

theorem measure_some (h : i.load.clauses = .ok clauses) {limit : Float} {seconds : Int}
    (hseconds : alarmSeconds (some limit) = .ok (some seconds)) {s : Surroundings}
    (hset : s.refusal? seconds = none) :
    ∃ wallTime, (i.measure (some limit) s).1.row = i.searchRow clauses s.nextRing wallTime ∧
      (i.measure (some limit) s).1.searchLog = ((startState clauses).search s.nextRing).log ∧
      (i.measure (some limit) s).2.alarms = s.alarms ++ [seconds, 0] := by
  have hset : s.readClock.2.refusal? seconds = none := hset
  unfold measure
  rw [h]
  simp only [attempt, hseconds, hset]
  exact ⟨_, rfl, rfl, rfl⟩

end Instance

theorem alarmSeconds_some {limit : Float} {n : Nat} (hpos : 0.0 < limit)
    (h : Decimal.truncate limit = .ok (n : Int)) :
    alarmSeconds (some limit) = .ok (some (max 1 (n : Int))) := by
  rw [alarmSeconds, if_pos hpos, h]
  rfl

/-- An alarm of less than `2 ^ 31` seconds can be set. -/
theorem Surroundings.refusal?_eq_none (s : Surroundings) {seconds : Int} (h : seconds < 2 ^ 31) :
    s.refusal? seconds = none := by
  rw [refusal?, Option.map_eq_none_iff, Option.filter_eq_none_iff]
  intro longest _
  have := longest.two_pow_le
  rw [decide_eq_true_eq]
  omega

/-- A search without a limit reports one line for each decision and each backtrack, and one more if it finds
the formula satisfiable. An alarm that rings at one of these lines, or at once, cuts the search there: the
row has the counters of that moment, and the decisions and backtracks are as many as the lines up to it,
without the line that reports the answer. An alarm that waits for more lines than there are changes nothing
but the time. In either case the alarm was set to the whole part of the limit, or to one second, and taken
back. -/
theorem Instance.measure_under_limit {i : Instance} {clauses : List (List Element)}
    (hload : i.load.clauses = .ok clauses) {limit : Float} (hpos : 0.0 < limit)
    (hlt : limit < 2147483648.0) {s : Surroundings} {k : Nat} (hring : s.nextRing = some k)
    (s' : Surroundings) :
    let untimed := (i.measure none s').1
    let timed := (i.measure (some limit) s).1
    let run := Search.start (startState clauses)
    let lines := untimed.searchLog.filter (·.level = .debug)
    lines = run.reports.map (·.1.line) ∧
    untimed.row.decisions + untimed.row.backtracks +
      (if untimed.row.status = Status.sat.text then 1 else 0) = (lines.length : Int) ∧
    (k ≤ lines.length → timed.searchLog = lines.take k ∧
      ∃ counters wallTime, run.readings[k]? = some counters ∧
        timed.row = untimed.row.cut counters wallTime ∧
        (∀ c, timed.row.counter c ≤ untimed.row.counter c) ∧
        timed.row.decisions + timed.row.backtracks =
          if (run.reports.take k).getLast?.any (·.1.isAnswer) then ((k - 1 : Nat) : Int) else k) ∧
    (lines.length < k → ∃ wallTime, timed.row = { untimed.row with wallTime }) ∧
    ∃ n : Nat, Decimal.truncate limit = .ok (n : Int) ∧ n < 2 ^ 31 ∧
      (i.measure (some limit) s).2.alarms = s.alarms ++ [max 1 (n : Int), 0] := by
  obtain ⟨n, hn, hsmall⟩ := Decimal.exists_truncate_eq hpos hlt
  obtain ⟨wallTime', hrow', hlog'⟩ := measure_none hload s'
  obtain ⟨wallTime, hrow, hlog, halarms⟩ :=
    measure_some hload (alarmSeconds_some hpos hn) (s.refusal?_eq_none (by omega))
  rw [hring] at hrow hlog
  intro untimed timed run lines
  have hlines : lines = run.reports.map (·.1.line) := by
    rw [← State.filter_debug_log, ← hlog']
  have hlength : lines.length = run.reports.length := by
    rw [hlines, List.length_map]
  have hrow' : untimed.row = i.searchRow clauses none wallTime' := hrow'
  have hrow : timed.row = i.searchRow clauses (some k) wallTime := hrow
  rw [hlength, hrow, hrow']
  refine ⟨hlines, moves_searchRow_none, ?_, ?_, n, hn, hsmall, halarms⟩
  · intro hk
    obtain ⟨counters, hreading, hcut, hle⟩ := searchRow_some_of_le (i := i) hk
    refine ⟨?_, counters, wallTime, hreading, hcut, hle, moves_searchRow_some hk⟩
    rw [hlines, ← State.log_search_some _ hk]
    exact hlog
  · intro hk
    exact ⟨wallTime, searchRow_some_of_lt hk⟩

/-- One of two variables is true, and not both are. -/
def oneOfTwo : Instance where
  name := "one of two"
  source := "file"
  load := .ofCnf [[1, 2], [-1, -2]]
  expected := some Status.sat.text

theorem reports_oneOfTwo :
    (Search.start (startState (Load.places [[1, 2], [-1, -2]]))).reports =
      [(.branched 1 1, ⟨[(.decisions, 1), (.maxDepth, 1)]⟩),
        (.satisfied 1, ⟨[(.decisions, 1), (.maxDepth, 1), (.unitPropagations, 1)]⟩)] := by
  rw [(Search.Round.branched (l := 1) (by decide) (by decide) (by cbv)).reports_eq,
    (Search.Round.propagated (by decide) (by decide)).reports_eq,
    (Search.Final.satisfied (by decide)).reports_eq]
  rfl

/-- The first alarm rings at the second line. -/
def ringing : Surroundings where
  clock := ⟨[0.0, 1.5]⟩
  rings := [(0, 2)]
  alarms := []

theorem measure_oneOfTwo :
    (oneOfTwo.measure (some 2.5) ringing).1.row.status = Outcome.timeout.text ∧
    (oneOfTwo.measure (some 2.5) ringing).1.row.counter .unitPropagations = 1 ∧
      (oneOfTwo.measure (some 2.5) ringing).1.row.decisions +
        (oneOfTwo.measure (some 2.5) ringing).1.row.backtracks = 1 ∧
      (oneOfTwo.measure (some 2.5) ringing).2.alarms = [2, 0] := by
  have hpos : (0.0 : Float) < 2.5 := by decide
  have hlt : (2.5 : Float) < 2147483648.0 := by decide
  have hload : oneOfTwo.load.clauses = .ok (Load.places [[1, 2], [-1, -2]]) := rfl
  have hring : ringing.nextRing = some 2 := rfl
  obtain ⟨hlines, -, hcut, -, n, hn, -, halarms⟩ :=
    Instance.measure_under_limit hload hpos hlt hring ringing
  rw [hlines, reports_oneOfTwo] at hcut
  obtain ⟨-, counters, wallTime, hreading, hrow, -, hmoves⟩ := hcut (Nat.le_refl 2)
  rw [Search.readings, reports_oneOfTwo] at hreading
  cases hreading
  have htruncate : Decimal.truncate 2.5 = .ok 2 := rfl
  rw [htruncate] at hn
  cases hn
  rw [hmoves, hrow, halarms]
  exact ⟨rfl, rfl, rfl, rfl⟩

end SatSearch
