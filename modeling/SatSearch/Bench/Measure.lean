import SatSearch.Bench.Instance
import SatSearch.Bench.Row
import SatSearch.Decimal.Fixed
import SatSearch.Solve

/-!
# Measuring the search

`Instance.measure` loads an instance, searches under a time limit and makes a row of what came out. Time
comes from a clock whose readings are given, and an alarm rings after a given number of reported events
(`Surroundings`). An alarm that is longer than any that can be set makes the attempt fail.
-/

namespace SatSearch

/-- The readings of a clock, in order; the last one is read again and again. -/
structure Clock where
  readings : List Float

/-- Reads a clock. A clock without readings shows zero. -/
def Clock.read : Clock → Float × Clock
  | ⟨[]⟩ => (0.0, ⟨[]⟩)
  | ⟨[x]⟩ => (x, ⟨[x]⟩)
  | ⟨x :: rest⟩ => (x, ⟨rest⟩)

/-- The longest alarm that can be set, in seconds, and what is reported of a longer one. Alarms of less than
`2 ^ 31` seconds can be set everywhere. -/
structure LongestAlarm where
  seconds : Nat
  refusal : String
  two_pow_le : 2147483648 ≤ seconds + 1

/-- What a measurement needs from outside, and the alarms that were set. -/
structure Surroundings where
  clock : Clock
  /-- For an alarm, counted from zero, the number of events after which it rings. -/
  rings : List (Nat × Nat)
  /-- The seconds that alarms were set to, in order; zero takes the alarm back. -/
  alarms : List Int
  /-- Where there is none, an alarm can be set to any number of seconds. -/
  longestAlarm : Option LongestAlarm := none

namespace Surroundings

/-- What is reported if an alarm cannot be set to a number of seconds. -/
def refusal? (s : Surroundings) (seconds : Int) : Option String :=
  (s.longestAlarm.filter fun longest => longest.seconds < seconds).map LongestAlarm.refusal

/-- The alarms set so far that were not taken back at once. -/
def armed (s : Surroundings) : Nat :=
  s.alarms.countP (· ≠ 0)

/-- The number of events after which the next alarm rings. -/
def nextRing (s : Surroundings) : Option Nat :=
  s.rings.lookup s.armed

/-- Reads the clock. -/
def readClock (s : Surroundings) : Float × Surroundings :=
  (s.clock.read.1, { s with clock := s.clock.read.2 })

end Surroundings

/-- The seconds to set an alarm to for a time limit: its whole part, and at least one. There is no alarm
without a positive limit. -/
def alarmSeconds : Option Float → Except Decimal.NoInteger (Option Int)
  | none => .ok none
  | some limit => if 0.0 < limit then (Decimal.truncate limit).map fun n => some (max 1 n) else .ok none

/-- How an attempt to solve an instance went. -/
structure Attempt where
  outcome : Outcome
  error : String
  counters : Counters
  log : List LogLine

namespace Attempt

/-- The attempt that a run makes. -/
def ofRun (r : Run) : Attempt :=
  { outcome :=
      match r.ending with
      | .answered s => .answered s
      | .stuck _ => .error
      | .expired => .timeout
    error :=
      match r.ending with
      | .stuck e => "solve: SolverInvariantError: " ++ e.message
      | _ => ""
    counters := r.state.counters
    log := r.log }

/-- The attempt that fails because of its time limit. -/
def ofLimit (e : Decimal.NoInteger) : Attempt :=
  { outcome := .error
    error :=
      match e with
      | .infinite => "solve: OverflowError: cannot convert float infinity to integer"
      | .notANumber => "solve: ValueError: cannot convert float NaN to integer"
    counters := .none
    log := [] }

/-- The attempt that fails because its alarm cannot be set. -/
def ofRefusal (refusal : String) : Attempt :=
  { outcome := .error
    error := "solve: OverflowError: " ++ refusal
    counters := .none
    log := [] }

end Attempt

/-- The number of variables among the places of clauses. A truth value counts as a number there. -/
def placeVariables (clauses : List (List Element)) : Nat :=
  (sortedDistinct (clauses.flatMap (List.map (·.number.natAbs)))).length

namespace Instance

/-- The row of an instance that cannot be loaded. -/
def unloadedRow (i : Instance) (e : LoadError) : Row :=
  { name := i.name
    source := i.source
    variableCount := 0
    clauseCount := 0
    status := Outcome.error.text
    wallTime := 0.0
    decisions := 0
    unitPropagations := 0
    backtracks := 0
    maxDepth := 0
    error := "load: " ++ e.text
    expected := i.expected
    isCorrect := i.expected.map fun _ => false }

/-- The row of an attempt to solve an instance. -/
def row (i : Instance) (clauses : List (List Element)) (a : Attempt) (wallTime : Float) : Row :=
  { name := i.name
    source := i.source
    variableCount := placeVariables clauses
    clauseCount := clauses.length
    status := a.outcome.text
    wallTime := wallTime
    decisions := a.counters.get .decisions
    unitPropagations := a.counters.get .unitPropagations
    backtracks := a.counters.get .backtracks
    maxDepth := a.counters.get .maxDepth
    error := a.error
    expected := i.expected
    isCorrect := (i.expected.filter isAnswer).map (a.outcome.text == ·) }

/-- The line that reports a failed attempt. -/
def failureLine (i : Instance) : LogLine :=
  { level := .error, message := "Solver failed on " ++ i.name }

end Instance

/-- The state that a search for the places of clauses starts from. -/
def startState (clauses : List (List Element)) : State :=
  State.initial (clauses.map Clause.ofElements)

/-- Searches under a time limit. An alarm that was set is taken back at the end, and so is one whose
seconds could not be told or that could not be set. -/
def attempt (clauses : List (List Element)) (timeout : Option Float) (s : Surroundings) :
    Attempt × Surroundings :=
  match alarmSeconds timeout with
  | .error e => (.ofLimit e, { s with alarms := s.alarms ++ [0] })
  | .ok none => (.ofRun ((startState clauses).search none), s)
  | .ok (some seconds) =>
    match s.refusal? seconds with
    | some refusal => (.ofRefusal refusal, { s with alarms := s.alarms ++ [0] })
    | none =>
      (.ofRun ((startState clauses).search s.nextRing), { s with alarms := s.alarms ++ [seconds, 0] })

/-- A row, and what was reported on the way to it. -/
structure Report where
  row : Row
  loadLog : List LogLine
  searchLog : List LogLine
  failureLog : List LogLine

/-- All that was reported, in order. -/
def Report.log (r : Report) : List LogLine :=
  r.loadLog ++ r.searchLog ++ r.failureLog

namespace Instance

/-- The report on an attempt to solve an instance. -/
def report (i : Instance) (clauses : List (List Element)) (a : Attempt) (wallTime : Float) : Report :=
  { row := i.row clauses a wallTime
    loadLog := i.load.log
    searchLog := a.log
    failureLog := if a.outcome = .error then [i.failureLine] else [] }

/-- The report on an instance that cannot be loaded. -/
def unloadedReport (i : Instance) (e : LoadError) : Report :=
  { row := i.unloadedRow e, loadLog := i.load.log, searchLog := [], failureLog := [] }

/-- Loads and solves an instance. The clock is read before and after the search, and not at all if there is
nothing to search. -/
def measure (i : Instance) (timeout : Option Float) (s : Surroundings) : Report × Surroundings :=
  match i.load.clauses with
  | .error e => (i.unloadedReport e, s)
  | .ok clauses =>
    let (started, s) := s.readClock
    let (a, s) := attempt clauses timeout s
    let (ended, s) := s.readClock
    (i.report clauses a (ended - started), s)

end Instance

/-- Loads and solves instances one after another. -/
def measureAll (timeout : Option Float) : List Instance → Surroundings → List Report × Surroundings
  | [], s => ([], s)
  | i :: rest, s =>
    let (r, s) := i.measure timeout s
    let (rs, s) := measureAll timeout rest s
    (r :: rs, s)

end SatSearch
