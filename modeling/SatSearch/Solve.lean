import SatSearch.Cnf
import SatSearch.Log
import SatSearch.Search.Run

/-!
# Solving

`Run.log` is what a run reports: its events and, at the end, its answer with the counters. `Cnf.solve` is
the answer for a formula.
-/

namespace SatSearch

/-- The log line of an event. -/
def Event.line (e : Event) : LogLine :=
  { level := .debug, message := e.text }

/-- The log line of an answer. -/
def answerLine (status : Status) (counters : Counters) : LogLine :=
  { level := .info, message := "Finished with result " ++ status.text ++ " (" ++ counters.text ++ ")" }

/-- The log of a run: its events, and its answer if it has one. -/
def Run.log (r : Run) : List LogLine :=
  r.events.map Event.line ++
    match r.ending with
    | .answered status => [answerLine status r.state.counters]
    | _ => []

/-- How the search for clauses ends that nothing was done with. -/
def solveClauses (cs : List Clause) : Ending :=
  ((State.initial cs).search none).ending

/-- How the search for a formula ends. -/
def Cnf.solve (f : Cnf) : Ending :=
  solveClauses (f.map Clause.ofLiterals)

end SatSearch
