import SatSearch.Command.Evaluate
import SatSearch.Command.Solve

/-!
# Commands that ask for the time

A program cannot know beforehand what its clock will show. Here the commands run in any monad and ask an `Outside`
for the clock and the alarm; the search asks before each of its rounds whether the alarm rang. With a clock and an
alarm that are given, they are the commands `solveFile` and `evaluate` (`Outside.given`).
-/

namespace SatSearch

/-- A clock and an alarm. -/
structure Outside (m : Type → Type) where
  readClock : m Float
  /-- Sets the alarm to a number of seconds, or gives what is reported if it cannot be set. -/
  setAlarm : Int → m (Option String)
  takeBackAlarm : m Unit
  /-- Whether the alarm rang, given the number of events reported since it was set. -/
  isRinging : Nat → m Bool
  /-- The seconds that the alarm was set to, as far as they are recorded. -/
  alarms : m (List Int)

section Monad

variable {m : Type → Type} [Monad m]

/-! ### Searching -/

/-- Repeats rounds; `reported` counts the events of the rounds before. -/
@[specialize]
def Search.runIn (isRinging : Nat → m Bool) (reported : Nat) (events : List Event) (s : Search) : m Run := do
  if ← isRinging reported then
    return { ending := .expired, state := s.state, events := events.reverse }
  match _h : s.step with
  | .onward event next => runIn isRinging (reported + event.toList.length) (event.toList ++ events) next
  | .answer event status last =>
    let rang ← isRinging (reported + event.toList.length)
    return { ending := if rang then .expired else .answered status
             state := last
             events := (event.toList ++ events).reverse }
  | .stuck error last => return { ending := .stuck error, state := last, events := events.reverse }
termination_by s.weight
decreasing_by exact weight_lt_of_step ‹_›

/-- Searches from a state. -/
@[specialize]
def State.searchIn (isRinging : Nat → m Bool) (s : State) : m Run :=
  (Search.start s).runIn isRinging 0 []

/-! ### Measuring -/

/-- Searches under a time limit. -/
@[specialize]
def attemptIn (o : Outside m) (clauses : List (List Element)) (timeout : Option Float) : m Attempt :=
  match alarmSeconds timeout with
  | .error e => do
    o.takeBackAlarm
    return .ofLimit e
  | .ok none => return .ofRun (← (startState clauses).searchIn fun _ => return false)
  | .ok (some seconds) => do
    match ← o.setAlarm seconds with
    | some refusal =>
      o.takeBackAlarm
      return .ofRefusal refusal
    | none =>
      let run ← (startState clauses).searchIn o.isRinging
      o.takeBackAlarm
      return .ofRun run

/-- Loads and solves an instance. -/
@[specialize]
def Instance.measureIn (o : Outside m) (timeout : Option Float) (i : Instance) : m Report :=
  match i.load.clauses with
  | .error e => return i.unloadedReport e
  | .ok clauses => do
    let started ← o.readClock
    let a ← attemptIn o clauses timeout
    let ended ← o.readClock
    return i.report clauses a (ended - started)

/-! ### Commands -/

/-- Solves the formula in a file of a tree that is opened once the clock was read. -/
@[specialize]
def solveFileIn (o : Outside m) (openFiles : m Files) (levelVariable : Option String) (a : SolveArguments) :
    m (Except Aborted CommandResult) :=
  match orAbort [] .level (chooseThreshold a.logLevel levelVariable) with
  | .error e => return .error e
  | .ok threshold => do
    let started ← o.readClock
    let files ← openFiles
    let content := files.read a.file
    match readFormula content with
    | .failed e => return .error { error := .file e, stdout := "" }
    | .refused message => return .ok (refusedResult files threshold (readingLog content) message)
    | .formula f =>
      let parsed ← o.readClock
      let run ← (State.initial f.toClauses).searchIn fun _ => return false
      let solved ← o.readClock
      return solvedResult files threshold (readingLog content) run a.stats started parsed solved

/-- Measures the search on all chosen instances. -/
@[specialize]
def evaluateIn (o : Outside m) (files : Files) (levelVariable : Option String) (a : EvaluateArguments) :
    m (Except Aborted CommandResult) :=
  match orAbort [] .level (chooseThreshold a.logLevel levelVariable) with
  | .error e => return .error e
  | .ok threshold =>
    match chosenInstances files a with
    | .error e => return .error e
    | .ok [] =>
      return .ok { exit := 0, stdout := unlines [nothingChosen], stderr := "", files := files
                   alarms := [], drawings := [] }
    | .ok instances => do
      let reports ← instances.mapM (Instance.measureIn o (some a.timeout))
      return finishEvaluation files a threshold reports (← o.alarms)

end Monad

/-! ### Given readings -/

/-- The number of events after which the alarm rings that was set last. -/
def Surroundings.ring (s : Surroundings) : Option Nat :=
  s.rings.lookup (s.armed - 1)

/-- A clock whose readings are given, and an alarm that rings after a given number of events. -/
def Outside.given : Outside (StateM Surroundings) where
  readClock s := s.readClock
  setAlarm seconds s :=
    match s.refusal? seconds with
    | some refusal => (some refusal, s)
    | none => (none, { s with alarms := s.alarms ++ [seconds] })
  takeBackAlarm s := ((), { s with alarms := s.alarms ++ [0] })
  isRinging reported s := (s.ring.any (· ≤ reported), s)
  alarms s := (s.alarms, s)

end SatSearch
