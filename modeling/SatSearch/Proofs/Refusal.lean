import SatSearch.Proofs.Labels
import SatSearch.Proofs.TimeLimit

/-!
# Limits that are refused

A time limit asks for an alarm if it is positive, and the alarm cannot be set if the limit has no whole part
or one that is too long (`Surroundings.Refuses`). Main statement: if no alarm rings, a measurement under a
limit differs from the one without in the time alone, except under a limit that is refused, where it fails
without a search; only limits from `2 ^ 31` seconds on are (`Instance.measure_unexpired`).
-/

namespace SatSearch

/-! ### Which limits are refused -/

namespace Surroundings

/-- The limit asks for an alarm that cannot be set, and this is reported of it. -/
inductive Refuses (s : Surroundings) (limit : Float) : String → Prop where
  | infinite (h : 1.0 / 0.0 ≤ limit) : s.Refuses limit "cannot convert float infinity to integer"
  | tooLong {n : Nat} {longest : LongestAlarm} (hpos : 0.0 < limit)
      (hwhole : Decimal.truncate limit = .ok (n : Int)) (hlongest : longest ∈ s.longestAlarm)
      (hlong : longest.seconds < n) : s.Refuses limit longest.refusal

variable {s : Surroundings} {limit : Float} {refusal : String}

theorem Refuses.two_pow_le (h : s.Refuses limit refusal) : 2147483648.0 ≤ limit := by
  cases h with
  | infinite h => exact Decimal.two_pow_le_of_infinity_le h
  | @tooLong n longest hpos hwhole _ hlong =>
    rw [Decimal.two_pow_le_iff_of_truncate hpos hwhole]
    have := longest.two_pow_le
    omega

/-- If only the alarms that can be set everywhere can be set, all limits from `2 ^ 31` on are refused. -/
theorem exists_refuses {longest : LongestAlarm} (hlongest : longest ∈ s.longestAlarm)
    (hleast : longest.seconds + 1 = 2 ^ 31) (h : 2147483648.0 ≤ limit) :
    ∃ refusal, s.Refuses limit refusal := by
  have hpos := Decimal.pos_of_two_pow_le h
  obtain hinfinity | ⟨n, hn⟩ := Decimal.truncate_of_pos hpos
  · exact ⟨_, .infinite hinfinity⟩
  · rw [Decimal.two_pow_le_iff_of_truncate hpos hn] at h
    exact ⟨_, .tooLong hpos hn hlongest (by omega)⟩

theorem refusal?_eq_none_of_forall {seconds : Int}
    (h : ∀ longest ∈ s.longestAlarm, seconds ≤ longest.seconds) : s.refusal? seconds = none := by
  rw [refusal?, Option.map_eq_none_iff, Option.filter_eq_none_iff]
  intro longest hlongest
  have := h longest hlongest
  rw [decide_eq_true_eq]
  omega

theorem refusal?_eq_some {longest : LongestAlarm} (hlongest : longest ∈ s.longestAlarm) {seconds : Int}
    (hlong : longest.seconds < seconds) : s.refusal? seconds = some longest.refusal := by
  rw [Option.mem_def] at hlongest
  rw [refusal?, hlongest, Option.filter_some, if_pos (decide_eq_true hlong), Option.map_some]

end Surroundings

/-! ### Attempts under a limit -/

section Attempts

variable {s : Surroundings} {limit : Float} (clauses : List (List Element))

theorem alarmSeconds_of_not_pos (h : ¬ 0.0 < limit) : alarmSeconds (some limit) = .ok none := by
  rw [alarmSeconds, if_neg h]

theorem alarmSeconds_of_infinity_le (h : 1.0 / 0.0 ≤ limit) :
    alarmSeconds (some limit) = .error .infinite := by
  have hpos := Decimal.pos_of_two_pow_le (Decimal.two_pow_le_of_infinity_le h)
  rw [alarmSeconds, if_pos hpos, Decimal.truncate_of_infinity_le h]
  rfl

theorem attempt_readClock (timeout : Option Float) (s : Surroundings) :
    (attempt clauses timeout s.readClock.2).1 = (attempt clauses timeout s).1 := by
  unfold attempt
  cases alarmSeconds timeout with
  | error e => rfl
  | ok seconds =>
    cases seconds with
    | none => rfl
    | some seconds =>
      have hclock : s.readClock.2.refusal? seconds = s.refusal? seconds := rfl
      simp only [hclock]
      cases s.refusal? seconds <;> rfl

theorem attempt_of_refuses {refusal : String} (h : s.Refuses limit refusal) :
    (attempt clauses (some limit) s).1 = .ofRefusal refusal := by
  unfold attempt
  cases h with
  | infinite h =>
    rw [alarmSeconds_of_infinity_le h]
    rfl
  | tooLong hpos hwhole hlongest hlong =>
    simp only [alarmSeconds_some hpos hwhole,
      Surroundings.refusal?_eq_some hlongest (lt_max_of_lt_right (Int.ofNat_lt.2 hlong))]

/-- If a limit is not refused, its alarm is set or there is none. -/
theorem attempt_of_not_refuses (h : ¬ ∃ refusal, s.Refuses limit refusal) :
    ∃ alarm, (alarm = none ∨ alarm = s.nextRing) ∧
      (attempt clauses (some limit) s).1 = .ofRun ((startState clauses).search alarm) := by
  unfold attempt
  by_cases hpos : 0.0 < limit
  · obtain hinfinity | ⟨n, hn⟩ := Decimal.truncate_of_pos hpos
    · exact absurd ⟨_, .infinite hinfinity⟩ h
    · have hset : s.refusal? (max 1 (n : Int)) = none := by
        apply Surroundings.refusal?_eq_none_of_forall
        intro longest hlongest
        have hshort : n ≤ longest.seconds :=
          Nat.not_lt.1 fun hlong => h ⟨_, .tooLong hpos hn hlongest hlong⟩
        have := longest.two_pow_le
        omega
      simp only [alarmSeconds_some hpos hn, hset]
      exact ⟨s.nextRing, .inr rfl, rfl⟩
  · simp only [alarmSeconds_of_not_pos hpos]
    exact ⟨none, .inl rfl, rfl⟩

end Attempts

/-! ### Rows under a limit -/

/-- The row of the same instance if the search fails before it starts. -/
def Row.failed (r : Row) (error : String) (wallTime : Float) : Row :=
  { r with
    status := Outcome.error.text
    wallTime := wallTime
    decisions := 0
    unitPropagations := 0
    backtracks := 0
    maxDepth := 0
    error := error
    isCorrect := (r.expected.filter isAnswer).map fun _ => false }

namespace Instance

variable {i : Instance} {clauses : List (List Element)} {s : Surroundings} {limit : Float}

theorem row_measure (h : i.load.clauses = .ok clauses) (timeout : Option Float) (s : Surroundings) :
    ∃ wallTime, (i.measure timeout s).1.row = i.row clauses (attempt clauses timeout s).1 wallTime := by
  rw [← attempt_readClock]
  unfold measure
  rw [h]
  exact ⟨_, rfl⟩

theorem row_ofRefusal (refusal : String) (wallTime wallTime' : Float) :
    i.row clauses (.ofRefusal refusal) wallTime =
      (i.searchRow clauses none wallTime').failed ("solve: OverflowError: " ++ refusal) wallTime := by
  have herror : isAnswer Outcome.error.text = false := by decide
  simp only [row, searchRow, Row.failed, Attempt.ofRefusal, i.isCorrect_of_not_answer herror]
  rfl

theorem row_measure_of_refuses (hload : i.load.clauses = .ok clauses) {refusal : String}
    (h : s.Refuses limit refusal) (wallTime' : Float) :
    ∃ wallTime, (i.measure (some limit) s).1.row =
      (i.searchRow clauses none wallTime').failed ("solve: OverflowError: " ++ refusal) wallTime := by
  obtain ⟨wallTime, hrow⟩ := row_measure hload (some limit) s
  refine ⟨wallTime, ?_⟩
  rw [hrow, attempt_of_refuses _ h]
  exact row_ofRefusal refusal wallTime wallTime'

/-- An alarm that waits for more lines than there are changes nothing but the time, and neither does a limit
without an alarm. -/
theorem row_measure_of_not_refuses (hload : i.load.clauses = .ok clauses)
    (h : ¬ ∃ refusal, s.Refuses limit refusal)
    (hquiet : ∀ k, s.nextRing = some k → (Search.start (startState clauses)).reports.length < k)
    (wallTime' : Float) :
    ∃ wallTime, (i.measure (some limit) s).1.row =
      { i.searchRow clauses none wallTime' with wallTime } := by
  obtain ⟨wallTime, hrow⟩ := row_measure hload (some limit) s
  obtain ⟨alarm, halarm, hattempt⟩ := attempt_of_not_refuses clauses h
  refine ⟨wallTime, ?_⟩
  rw [hrow, hattempt]
  cases alarm with
  | none => rfl
  | some k =>
    obtain hnone | hring := halarm
    · cases hnone
    · exact searchRow_some_of_lt (hquiet k hring.symm)

theorem status_searchRow_places (i : Instance) (f : Cnf) (wallTime : Float) :
    (∃ answer : Status, (i.searchRow (Load.places f) none wallTime).status = answer.text ∧
      (answer = .sat ↔ f.Satisfiable)) ∧ (i.searchRow (Load.places f) none wallTime).error = "" := by
  obtain ⟨answer, hending, hright⟩ := exists_answer_startState f
  simp only [searchRow, row, Attempt.ofRun, hending]
  exact ⟨⟨answer, rfl, hright⟩, trivial⟩

theorem text_error_ne (answer : Status) : Outcome.error.text ≠ answer.text := by
  cases answer <;> decide

/-- A measurement without a limit tells rightly whether the formula is satisfiable. With a limit whose alarm
does not ring it differs from that in the time alone, exactly if the limit is not refused. If it is, the row
tells nothing of the formula, only that the search failed and why. No limit is refused unless it is at least
`2 ^ 31`, and where no longer alarm can be set all of these are. -/
theorem measure_unexpired {i : Instance} {f : Cnf} (hload : i.load.clauses = .ok (Load.places f))
    (limit : Float) {s : Surroundings} (s' : Surroundings)
    (hquiet : ∀ k, s.nextRing = some k →
      ((i.measure none s').1.searchLog.filter (·.level = .debug)).length < k) :
    let untimed := (i.measure none s').1.row
    let timed := (i.measure (some limit) s).1.row
    (∃ answer : Status, untimed.status = answer.text ∧ (answer = .sat ↔ f.Satisfiable)) ∧
    untimed.error = "" ∧
    ((∃ wallTime, timed = { untimed with wallTime }) ↔ ¬ ∃ refusal, s.Refuses limit refusal) ∧
    (∀ refusal, s.Refuses limit refusal → 2147483648.0 ≤ limit ∧
      ∃ wallTime, timed = untimed.failed ("solve: OverflowError: " ++ refusal) wallTime) ∧
    ∀ longest ∈ s.longestAlarm, longest.seconds + 1 = 2 ^ 31 → 2147483648.0 ≤ limit →
      ∃ refusal, s.Refuses limit refusal := by
  obtain ⟨wallTime', hrow', hlog'⟩ := measure_none hload s'
  obtain ⟨⟨answer, hstatus, hright⟩, herror⟩ := i.status_searchRow_places f wallTime'
  intro untimed timed
  have huntimed : untimed = i.searchRow (Load.places f) none wallTime' := hrow'
  have hlines : ∀ k, s.nextRing = some k →
      (Search.start (startState (Load.places f))).reports.length < k := by
    intro k hk
    rw [← List.length_map, ← State.filter_debug_log, ← hlog']
    exact hquiet k hk
  rw [huntimed]
  refine ⟨⟨answer, hstatus, hright⟩, herror, ⟨?_, ?_⟩, ?_, fun _ => Surroundings.exists_refuses⟩
  · rintro ⟨_, hunchanged⟩ ⟨refusal, hrefuses⟩
    obtain ⟨_, hfailed⟩ := row_measure_of_refuses hload hrefuses wallTime'
    apply text_error_ne answer
    rw [← hstatus]
    exact congrArg Row.status (hfailed.symm.trans hunchanged)
  · exact fun h => row_measure_of_not_refuses hload h hlines wallTime'
  · exact fun refusal h => ⟨h.two_pow_le, row_measure_of_refuses hload h wallTime'⟩

end Instance

/-- Only the alarms that can be set everywhere can be set. -/
def leastLongest : LongestAlarm where
  seconds := 2147483647
  refusal := "too many seconds"
  two_pow_le := by decide

/-- The first alarm would ring at the third line. -/
def patient : Surroundings where
  clock := ⟨[0.0, 1.5]⟩
  rings := [(0, 3)]
  alarms := []
  longestAlarm := some leastLongest

theorem measure_unexpired_oneOfTwo :
    (∃ wallTime, (oneOfTwo.measure (some 2.5) patient).1.row =
        { (oneOfTwo.measure none patient).1.row with wallTime }) ∧
      (oneOfTwo.measure none patient).1.row.status = Status.sat.text ∧
      ∃ refusal wallTime, (oneOfTwo.measure (some 2147483648.0) patient).1.row =
        (oneOfTwo.measure none patient).1.row.failed ("solve: OverflowError: " ++ refusal) wallTime := by
  have hload : oneOfTwo.load.clauses = .ok (Load.places [[1, 2], [-1, -2]]) := rfl
  have hquiet : ∀ k, patient.nextRing = some k →
      ((oneOfTwo.measure none patient).1.searchLog.filter (·.level = .debug)).length < k := by
    intro k hk
    cases hk
    obtain ⟨-, -, hlog⟩ := Instance.measure_none hload patient
    rw [hlog, State.filter_debug_log, reports_oneOfTwo]
    decide
  obtain ⟨⟨answer, hstatus, hright⟩, -, hsame, hshort, -⟩ :=
    Instance.measure_unexpired hload 2.5 patient hquiet
  obtain ⟨-, -, -, hfailed, hlong⟩ := Instance.measure_unexpired hload 2147483648.0 patient hquiet
  refine ⟨hsame.2 ?_, ?_, ?_⟩
  · rintro ⟨refusal, hrefuses⟩
    exact absurd (hshort refusal hrefuses).1 (by decide)
  · rw [hstatus, hright.2 ⟨fun n => n == 1, rfl⟩]
  · obtain ⟨refusal, hrefuses⟩ := hlong leastLongest rfl rfl (by decide)
    exact ⟨refusal, (hfailed refusal hrefuses).2⟩

/-- No alarm rings, and every alarm can be set. -/
def calm : Surroundings where
  clock := ⟨[]⟩
  rings := []
  alarms := []

/-- An infinite limit never expires, but it takes the answer away. -/
theorem infinite_limit_changes_row :
    oneOfTwo.load.clauses = .ok (Load.places [[1, 2], [-1, -2]]) ∧ calm.nextRing = none ∧
      ¬ ∃ wallTime, (oneOfTwo.measure (some (1.0 / 0.0)) calm).1.row =
        { (oneOfTwo.measure none calm).1.row with wallTime } := by
  refine ⟨rfl, rfl, ?_⟩
  rintro ⟨_, h⟩
  obtain ⟨wallTime, hrow, -⟩ := Instance.measure_none (i := oneOfTwo) rfl calm
  have huntimed : (oneOfTwo.measure none calm).1.row.error = "" := by
    rw [hrow]
    exact (oneOfTwo.status_searchRow_places [[1, 2], [-1, -2]] wallTime).2
  have htimed : (oneOfTwo.measure (some (1.0 / 0.0)) calm).1.row.error =
      "solve: OverflowError: cannot convert float infinity to integer" := rfl
  have herror := (congrArg Row.error h).trans huntimed
  rw [htimed] at herror
  exact absurd herror (by decide)

end SatSearch
