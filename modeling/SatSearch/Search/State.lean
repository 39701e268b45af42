import Std.Data.HashMap
import SatSearch.Clause
import SatSearch.Status
import SatSearch.Search.Counters

/-!
# Search states

A `State` holds the live clauses, the snapshots saved at branching points and the counters. The
operations here are the moves a search is made of: `State.propagate` makes one pass of unit
propagation, `State.pickLiteral` chooses the literal to branch on, `State.branch` and
`State.backTrack` save and restore snapshots.
-/

namespace SatSearch

/-- What can go wrong when a state is driven by hand. -/
inductive SearchError where
  | nothingToBranchOn
  | noSnapshot
deriving DecidableEq

/-- The text that reports a search error. -/
def SearchError.message : SearchError → String
  | nothingToBranchOn => "no unresolved literal left to branch on"
  | noSnapshot => "backtrack requested with an empty branching stack"

/-- The state of a search. -/
structure State where
  clauses : List Clause
  /-- The clause lists saved at branching points, newest first. -/
  snapshots : List (List Clause)
  counters : Counters
deriving DecidableEq

/-! ### Occurrences -/

/-- How often each literal occurs. -/
def tally (ls : List Literal) : Std.HashMap Literal Nat :=
  ls.foldl (fun t l => t.insert l (t.getD l 0 + 1)) ∅

theorem getD_foldl_tally (ls : List Literal) (t : Std.HashMap Literal Nat) (l : Literal) :
    (ls.foldl (fun t l => t.insert l (t.getD l 0 + 1)) t).getD l 0 = t.getD l 0 + ls.count l := by
  induction ls generalizing t with
  | nil => simp
  | cons m ms ih =>
    rw [List.foldl_cons, ih, Std.HashMap.getD_insert, List.count_cons]
    by_cases h : m = l
    · subst h; simp; omega
    · simp [h]

@[simp]
theorem getD_tally (ls : List Literal) (l : Literal) : (tally ls).getD l 0 = ls.count l := by
  simp [tally, getD_foldl_tally]

/-- The literal with the most occurrences; of several the one that occurs first. -/
def mostFrequent? : List Literal → Option Literal
  | [] => none
  | l :: ls =>
    let counts := tally (l :: ls)
    some (ls.foldl (fun best m => if counts.getD best 0 < counts.getD m 0 then m else best) l)

/-- The literals of the clauses that no assignment has touched, in order. -/
def unassignedLiterals (cs : List Clause) : List Literal :=
  cs.flatMap Clause.unassigned

/-! ### Propagation -/

/-- The literals that one pass over `cs` makes true, newest first, when those of `trail` were made
true before the pass came to `cs`. Each clause is looked at as these literals have left it. -/
def unitLiterals (trail : List Literal) : List Clause → List Literal
  | [] => trail
  | c :: cs =>
    match (c.under trail).unit? with
    | some l => unitLiterals (l :: trail) cs
    | none => unitLiterals trail cs

namespace State

/-- The state before anything was done with the clauses. -/
def initial (cs : List Clause) : State :=
  { clauses := cs, snapshots := [], counters := .none }

/-- Gives a literal a value in every live clause. -/
def assign (s : State) (l : Literal) (truth : Bool) : State :=
  { s with clauses := s.clauses.map (Clause.assign l truth) }

/-- Makes one pass of unit propagation; also says whether it made a literal true. -/
def propagate (s : State) : Bool × State :=
  match unitLiterals [] s.clauses with
  | [] => (false, s)
  | trail =>
    (true,
      { s with
        clauses := s.clauses.map (Clause.under trail)
        counters := s.counters.add .unitPropagations trail.length })

/-- The untouched literal with the most occurrences in undecided clauses, polarities counted apart;
of several the one that is met first. -/
def pickLiteral (s : State) : Except SearchError Literal :=
  match mostFrequent? (unassignedLiterals s.clauses) with
  | some l => .ok l
  | none => .error .nothingToBranchOn

/-- Makes a literal true; before its first polarity is tried the live clauses are saved. -/
def branch (s : State) (l : Literal) (first : Bool) : State :=
  let saved := if first then { s with snapshots := s.clauses :: s.snapshots } else s
  saved.assign l true

/-- Restores the clauses saved at the newest branching point. -/
def backTrack (s : State) : Except SearchError State :=
  match s.snapshots with
  | [] => .error .noSnapshot
  | saved :: older =>
    .ok { clauses := saved, snapshots := older, counters := s.counters.add .backtracks 1 }

/-- Whether every live clause is true. -/
def isSatisfied (s : State) : Bool :=
  s.clauses.all Clause.isSatisfied

/-- Whether some live clause is false. -/
def isFalsified (s : State) : Bool :=
  s.clauses.any Clause.isFalsified

/-- The answer, if the live clauses show it. -/
def status? (s : State) : Option Status :=
  if s.isSatisfied then some .sat
  else if s.isFalsified then some .unsat
  else none

end State

end SatSearch
