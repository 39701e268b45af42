/-!
# Search counters

A search counts what it does. `Counters` keeps only the counters that were ever set, in the order in
which each was set first; a counter never set reads as zero (`Counters.get`).
-/

namespace SatSearch

/-- The quantities a search counts. -/
inductive Counter where
  | decisions
  | unitPropagations
  | backtracks
  | maxDepth
deriving DecidableEq

/-- All counters, in the order in which reports list them. -/
def Counter.all : List Counter :=
  [decisions, unitPropagations, backtracks, maxDepth]

/-- The word that reports use for a counter. -/
def Counter.text : Counter → String
  | decisions => "decisions"
  | unitPropagations => "unit_propagations"
  | backtracks => "backtracks"
  | maxDepth => "max_depth"

/-- The counters set so far with their values, first set first. -/
structure Counters where
  entries : List (Counter × Nat)
deriving DecidableEq

namespace Counters

/-- No counter was set. -/
def none : Counters := ⟨[]⟩

/-- The value of a counter, zero if it was never set. -/
def get (cs : Counters) (c : Counter) : Nat :=
  (cs.entries.lookup c).getD 0

/-- Entries with the value of `c` replaced, or `c` added at the end. -/
def putEntry (c : Counter) (n : Nat) : List (Counter × Nat) → List (Counter × Nat)
  | [] => [(c, n)]
  | (d, m) :: rest => if d = c then (c, n) :: rest else (d, m) :: putEntry c n rest

/-- Sets a counter. -/
def put (cs : Counters) (c : Counter) (n : Nat) : Counters :=
  ⟨putEntry c n cs.entries⟩

/-- Adds `n` to a counter. -/
def add (cs : Counters) (c : Counter) (n : Nat) : Counters :=
  cs.put c (cs.get c + n)

/-- Raises a counter to at least `n`. -/
def raise (cs : Counters) (c : Counter) (n : Nat) : Counters :=
  cs.put c (max (cs.get c) n)

theorem lookup_putEntry (c d : Counter) (n : Nat) (es : List (Counter × Nat)) :
    (putEntry c n es).lookup d = if d = c then some n else es.lookup d := by
  induction es with
  | nil =>
    by_cases h : d = c
    · simp [putEntry, h]
    · simp [putEntry, h]
  | cons e rest ih =>
    obtain ⟨e, m⟩ := e
    by_cases hec : e = c
    · subst hec
      by_cases h : d = e
      · simp [putEntry, h]
      · simp [putEntry, List.lookup_cons, h, beq_eq_false_iff_ne.2 h]
    · by_cases h : d = e
      · subst h
        simp [putEntry, hec]
      · simp [putEntry, List.lookup_cons, hec, beq_eq_false_iff_ne.2 h, ih]

@[simp]
theorem get_put (cs : Counters) (c d : Counter) (n : Nat) :
    (cs.put c n).get d = if d = c then n else cs.get d := by
  by_cases h : d = c <;> simp [get, put, lookup_putEntry, h]

@[simp]
theorem get_add (cs : Counters) (c d : Counter) (n : Nat) :
    (cs.add c n).get d = if d = c then cs.get d + n else cs.get d := by
  by_cases h : d = c <;> simp [add, h]

@[simp]
theorem get_raise (cs : Counters) (c d : Counter) (n : Nat) :
    (cs.raise c n).get d = if d = c then max (cs.get d) n else cs.get d := by
  by_cases h : d = c <;> simp [raise, h]

@[simp]
theorem get_none (c : Counter) : none.get c = 0 := rfl

/-- The spelling of the counters in reports: names and values in first-set order, between braces. -/
def text (cs : Counters) : String :=
  "\x7b" ++ ", ".intercalate (cs.entries.map fun (c, n) => "'" ++ c.text ++ "': " ++ toString n) ++
    "\x7d"

end Counters

end SatSearch
