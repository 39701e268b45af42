import Mathlib
import SatSearch.Command.Live

/-!
# Commands with given readings

With a clock and an alarm that are given, a command that asks for the time runs as the one that is told
beforehand. The search that asks whether the alarm rang makes the same rounds as `Search.runFrom`, which counts its
events (`Search.run_runIn`), and so does a measurement (`Instance.run_measureIn_given`). Main statements: both
commands that search leave the same result (`solveFileIn_given`, `evaluateIn_given`).
-/

namespace SatSearch

/-- A computation goes on from the value and the state that its first step ends with. -/
theorem run_bind_of_run {σ α β : Type} {x : StateM σ α} {f : α → StateM σ β} {st st' : σ} {a : α}
    (h : x.run st = (a, st')) : (x >>= f).run st = (f a).run st' := by
  rw [StateT.run_bind, h]
  rfl

/-! ### The search -/

section Search

variable {σ : Type} {isRinging : Nat → StateM σ Bool} {limit : Option Nat} {st : σ}

/-- An alarm still allows what the events reported so far leave of its limit. -/
theorem alarmAfter_map_sub (limit : Option Nat) (reported : Nat) (event : Option Event) :
    alarmAfter (limit.map (· - reported)) event = limit.map (· - (reported + event.toList.length)) := by
  cases event with
  | none => rfl
  | some e =>
    cases limit with
    | none => rfl
    | some n => exact congrArg some (Nat.sub_sub n reported 1)

theorem map_sub_eq_zero_iff (limit : Option Nat) (reported : Nat) :
    limit.map (· - reported) = some 0 ↔ limit.any (· ≤ reported) = true := by
  cases limit <;> simp [Nat.sub_eq_zero_iff_le]

/-- A search whose alarm is silent makes a round. -/
theorem Search.run_runIn_of_silent {s : Search} {reported : Nat}
    (h : (isRinging reported).run st = (false, st)) (events : List Event) :
    (s.runIn isRinging reported events).run st =
      match s.step with
      | .onward event next =>
        (next.runIn isRinging (reported + event.toList.length) (event.toList ++ events)).run st
      | .answer event status last =>
        let (rang, st) := (isRinging (reported + event.toList.length)).run st
        ({ ending := if rang then .expired else .answered status
           state := last
           events := (event.toList ++ events).reverse }, st)
      | .stuck error last => ({ ending := .stuck error, state := last, events := events.reverse }, st) := by
  rw [Search.runIn, run_bind_of_run h, if_neg Bool.false_ne_true]
  split
  · next event next hstep => rw [hstep]
  · next event status last hstep =>
    rw [hstep]
    rfl
  · next error last hstep =>
    rw [hstep]
    rfl

/-- If the answers to the search are those of an alarm with a limit, its run is the one with that alarm. -/
theorem Search.run_runIn (h : ∀ n, (isRinging n).run st = (limit.any (· ≤ n), st)) (s : Search) (reported : Nat)
    (events : List Event) :
    (s.runIn isRinging reported events).run st = (s.runFrom (limit.map (· - reported)) events, st) := by
  -- The induction follows the rounds, so the alarm of the pure run has to be a variable.
  generalize halarm : limit.map (· - reported) = alarm
  have hsilent {n : Nat} (hne : limit.map (· - n) ≠ some 0) : (isRinging n).run st = (false, st) := by
    rw [ne_eq, map_sub_eq_zero_iff, Bool.not_eq_true] at hne
    rw [h, hne]
  fun_induction Search.runFrom alarm events s generalizing reported with
  | case1 events s =>
    have hrings := (map_sub_eq_zero_iff limit reported).1 halarm
    rw [Search.runIn, run_bind_of_run (h reported), if_pos hrings]
    rfl
  | case2 alarm events s hne event next hstep ih =>
    have hafter := alarmAfter_map_sub limit reported event
    rw [halarm] at hafter
    rw [Search.run_runIn_of_silent (hsilent (halarm ▸ hne)), hstep]
    exact ih _ hafter.symm
  | case3 alarm events s hne event status last hstep =>
    have hafter := alarmAfter_map_sub limit reported event
    rw [halarm] at hafter
    rw [Search.run_runIn_of_silent (hsilent (halarm ▸ hne)), hstep]
    simp only [h, hafter, map_sub_eq_zero_iff]
  | case4 alarm events s hne error last hstep =>
    rw [Search.run_runIn_of_silent (hsilent (halarm ▸ hne)), hstep]
theorem State.run_searchIn (h : ∀ n, (isRinging n).run st = (limit.any (· ≤ n), st)) (s : State) :
    (s.searchIn isRinging).run st = (s.search limit, st) := by
  have hrun := Search.run_runIn h (Search.start s) 0 []
  have hlimit : limit.map (· - 0) = limit := Option.map_id'
  rwa [hlimit] at hrun

theorem State.run_searchIn_silent (s : State) (st : σ) :
    (s.searchIn fun _ => (return false : StateM σ Bool)).run st = (s.search none, st) := by
  have hsilent (n : Nat) : (return false : StateM σ Bool).run st = (Option.any (· ≤ n) none, st) := rfl
  exact State.run_searchIn hsilent s

end Search

/-! ### Measurements -/

/-- The alarm that was set last rings when it is its turn. -/
theorem Surroundings.ring_of_alarms (s : Surroundings) {seconds : Int} (h : seconds ≠ 0) :
    ({ s with alarms := s.alarms ++ [seconds] } : Surroundings).ring = s.nextRing := by
  have harmed : ({ s with alarms := s.alarms ++ [seconds] } : Surroundings).armed = s.armed + 1 := by
    simp [Surroundings.armed, h]
  rw [Surroundings.ring, harmed, Nat.add_sub_cancel, Surroundings.nextRing]

/-- No alarm is set to zero seconds. -/
theorem ne_zero_of_alarmSeconds {timeout : Option Float} {seconds : Int}
    (h : alarmSeconds timeout = .ok (some seconds)) : seconds ≠ 0 := by
  rw [alarmSeconds.eq_def] at h
  cases timeout with
  | none => cases h
  | some limit =>
    dsimp only at h
    split_ifs at h
    · cases hwhole : Decimal.truncate limit with
      | error e =>
        rw [hwhole] at h
        cases h
      | ok n =>
        rw [hwhole] at h
        cases h
        omega
    · cases h

namespace Outside

theorem run_given_readClock (s : Surroundings) : given.readClock.run s = s.readClock :=
  rfl

theorem run_given_setAlarm (seconds : Int) (s : Surroundings) :
    (given.setAlarm seconds).run s =
      match s.refusal? seconds with
      | some refusal => (some refusal, s)
      | none => (none, { s with alarms := s.alarms ++ [seconds] }) :=
  rfl

end Outside

theorem run_attemptIn_given (clauses : List (List Element)) (timeout : Option Float) (s : Surroundings) :
    (attemptIn Outside.given clauses timeout).run s = attempt clauses timeout s := by
  rw [attemptIn, attempt]
  cases hseconds : alarmSeconds timeout with
  | error e => rfl
  | ok seconds? =>
    cases seconds? with
    | none =>
      dsimp only
      rw [run_bind_of_run (State.run_searchIn_silent _ s)]
      rfl
    | some seconds =>
      have hset := Outside.run_given_setAlarm seconds s
      dsimp only
      cases hrefusal : s.refusal? seconds with
      | some refusal =>
        rw [hrefusal] at hset
        rw [run_bind_of_run hset]
        rfl
      | none =>
        rw [hrefusal] at hset
        have hring (n : Nat) : (Outside.given.isRinging n).run { s with alarms := s.alarms ++ [seconds] } =
            (s.nextRing.any (· ≤ n), { s with alarms := s.alarms ++ [seconds] }) := by
          rw [← s.ring_of_alarms (ne_zero_of_alarmSeconds hseconds)]
          rfl
        rw [run_bind_of_run hset, run_bind_of_run (State.run_searchIn hring _)]
        show (_, { s with alarms := s.alarms ++ [seconds] ++ [0] }) = _
        rw [List.append_assoc]
        rfl

/-- A measurement with a clock and an alarm that are given. -/
theorem Instance.run_measureIn_given (i : Instance) (timeout : Option Float) (s : Surroundings) :
    (i.measureIn Outside.given timeout).run s = i.measure timeout s := by
  rw [measureIn, measure]
  cases i.load.clauses with
  | error e => rfl
  | ok clauses =>
    dsimp only
    rw [run_bind_of_run (Outside.run_given_readClock s), run_bind_of_run (run_attemptIn_given clauses timeout _)]
    rfl

theorem run_mapM_measureIn_given (timeout : Option Float) (is : List Instance) (s : Surroundings) :
    (is.mapM (Instance.measureIn Outside.given timeout)).run s = measureAll timeout is s := by
  induction is generalizing s with
  | nil => rfl
  | cons i is ih =>
    rw [List.mapM_cons, run_bind_of_run (i.run_measureIn_given timeout s), run_bind_of_run (ih _)]
    rfl

/-! ### Commands -/

variable (w : World)

/-- Solving a file in a tree that is given. -/
theorem solveFileIn_given (a : SolveArguments) :
    (solveFileIn Outside.given (return w.files) w.levelVariable a).run' w.surroundings = solveFile w a := by
  rw [solveFileIn, solveFile]
  cases orAbort [] .level (chooseThreshold a.logLevel w.levelVariable) with
  | error e => rfl
  | ok threshold =>
    have hopened (s : Surroundings) : (return w.files : StateM Surroundings Files).run s = (w.files, s) := rfl
    dsimp only
    rw [StateT.run'_eq, run_bind_of_run (Outside.run_given_readClock _), run_bind_of_run (hopened _)]
    cases readFormula (w.files.read a.file) with
    | failed e => rfl
    | refused message => rfl
    | formula f =>
      dsimp only
      rw [run_bind_of_run (Outside.run_given_readClock _), run_bind_of_run (State.run_searchIn_silent _ _)]
      rfl

/-- Measuring with a clock and an alarm that are given. -/
theorem evaluateIn_given (a : EvaluateArguments) :
    (evaluateIn Outside.given w.files w.levelVariable a).run' w.surroundings = evaluate w a := by
  rw [evaluateIn, evaluate]
  cases orAbort [] .level (chooseThreshold a.logLevel w.levelVariable) with
  | error e => rfl
  | ok threshold =>
    cases chosenInstances w.files a with
    | error e => rfl
    | ok is =>
      cases is with
      | nil => rfl
      | cons i is =>
        dsimp only
        rw [StateT.run'_eq, run_bind_of_run (run_mapM_measureIn_given (some a.timeout) (i :: is) _)]
        rfl

end SatSearch
