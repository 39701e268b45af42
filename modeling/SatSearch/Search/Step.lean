import SatSearch.Search.State

/-!
# Single steps of the search

A `Search` is a state together with the decisions it stands under. `Search.step` makes one round of
the search: read off the answer, else propagate, else branch; a falsified state takes back the
newest decision whose negation is still untried.
-/

namespace SatSearch

/-- A literal that was branched on. -/
structure Decision where
  literal : Literal
  /-- Whether its negation is being tried. -/
  negated : Bool
deriving DecidableEq

/-- What a search reports on its way. -/
inductive Event where
  /-- A literal is made true at a new depth. -/
  | branched (l : Literal) (depth : Nat)
  /-- A snapshot was restored and the negated literal is tried at the same depth. -/
  | backtracked (l : Literal) (depth : Nat)
  | satisfied (depth : Nat)
deriving DecidableEq

/-- The text of an event in the log. -/
def Event.text : Event → String
  | branched l depth => s!"Branch on {l} at depth {depth}"
  | backtracked l depth => s!"Backtrack at depth {depth}, trying {l}"
  | satisfied depth => s!"SAT at depth {depth}"

/-- A state and the decisions it stands under, newest first. -/
structure Search where
  state : State
  decisions : List Decision
deriving DecidableEq

/-- The outcome of one round. -/
inductive Move where
  | onward (event : Option Event) (next : Search)
  | answer (event : Option Event) (status : Status) (last : State)
  | stuck (error : SearchError) (last : State)

namespace Search

/-- A search that has decided nothing yet. -/
def start (s : State) : Search :=
  { state := s, decisions := [] }

/-- The round in which a literal is branched on: the decision is counted and saved. -/
def decide (s : Search) (l : Literal) : Search :=
  let depth := s.decisions.length + 1
  let counters := (s.state.counters.add .decisions 1).raise .maxDepth depth
  { state := { s.state with counters }.branch l true
    decisions := ⟨l, false⟩ :: s.decisions }

/-- Takes back the newest decision whose negation is untried, after dropping those above it. -/
def retreat (s : Search) : Move :=
  match s.decisions.dropWhile Decision.negated with
  | [] => .answer none .unsat s.state
  | d :: older =>
    match s.state.backTrack with
    | .error e => .stuck e s.state
    | .ok restored =>
      .onward (some (.backtracked (-d.literal) (older.length + 1)))
        { state := restored.branch (-d.literal) false, decisions := ⟨d.literal, true⟩ :: older }

/-- One round when the state shows no answer: propagate, else branch. -/
def extend (s : Search) : Move :=
  match s.state.propagate with
  | (true, next) => .onward none { s with state := next }
  | (false, _) =>
    match s.state.pickLiteral with
    | .error e => .stuck e s.state
    | .ok l => .onward (some (.branched l (s.decisions.length + 1))) (s.decide l)

/-- One round of the search. -/
def step (s : Search) : Move :=
  match s.state.status? with
  | some .sat => .answer (some (.satisfied s.decisions.length)) .sat s.state
  | some .unsat => s.retreat
  | none => s.extend

end Search

end SatSearch
