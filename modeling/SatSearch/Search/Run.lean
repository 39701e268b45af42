import SatSearch.Search.Progress

/-!
# Runs of the search

`Search.runFrom` repeats rounds until the search answers, is stuck or is cut short by an alarm. The alarm
is set to a number of reported events; the run ends as soon as that many were reported.
-/

namespace SatSearch

/-- How a run ends. -/
inductive Ending where
  | answered (status : Status)
  | stuck (error : SearchError)
  | expired
deriving DecidableEq

/-- What a run leaves behind. -/
structure Run where
  ending : Ending
  /-- The state at the end; after an alarm its clauses are those of the round that was cut. -/
  state : State
  /-- The events reported, oldest first. -/
  events : List Event
deriving DecidableEq

/-- The events an alarm still allows after a round that may have reported one. -/
def alarmAfter (alarm : Option Nat) (event : Option Event) : Option Nat :=
  if event.isSome then alarm.map (· - 1) else alarm

namespace Search

/-- Repeats rounds; `alarm` is the number of events after which it rings, and `events` holds what was
reported before, newest first. -/
def runFrom (alarm : Option Nat) (events : List Event) (s : Search) : Run :=
  if alarm = some 0 then
    { ending := .expired, state := s.state, events := events.reverse }
  else
    match _h : s.step with
    | .onward event next => runFrom (alarmAfter alarm event) (event.toList ++ events) next
    | .answer event status last =>
      { ending := if alarmAfter alarm event = some 0 then .expired else .answered status
        state := last
        events := (event.toList ++ events).reverse }
    | .stuck error last => { ending := .stuck error, state := last, events := events.reverse }
termination_by s.weight
decreasing_by exact weight_lt_of_step ‹_›

end Search

/-- Searches from a state; with an alarm the run ends when that many events were reported. -/
def State.search (s : State) (alarm : Option Nat) : Run :=
  (Search.start s).runFrom alarm []

end SatSearch
