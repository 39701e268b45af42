/-!
# Clauses

A clause is a disjunction of literals, for instance `1 ∨ -2 ∨ 3`. While it is undecided it keeps one
element for each of its literals: the literal itself, or the truth value it was resolved to
(`Element`). Once its truth is known it collapses to that value (`Clause.decided`) and ignores every
further assignment (`Clause.assign`).
-/

namespace SatSearch

/-- A literal: its absolute value is the variable and its sign the polarity. -/
abbrev Literal := Int

/-- A formula in conjunctive normal form, as plain lists of literals. -/
abbrev Cnf := List (List Literal)

/-! ### Elements -/

/-- One place of an undecided clause. -/
inductive Element where
  /-- A literal that no assignment has touched. -/
  | literal (l : Literal)
  /-- A place whose truth is known. -/
  | resolved (truth : Bool)
deriving DecidableEq

namespace Element

/-- The literal at an untouched place. -/
def literal? : Element → Option Literal
  | literal l => some l
  | resolved _ => none

/-- Whether giving `l` the value `truth` makes the element true. -/
def satisfiedBy (l : Literal) (truth : Bool) : Element → Bool
  | literal m => (m == l && truth) || (m == -l && !truth)
  | resolved _ => false

/-- The element once `l` has the value `truth` and `-l` the opposite one. -/
def assign (l : Literal) (truth : Bool) : Element → Element
  | literal m => if m = l then resolved truth else if m = -l then resolved !truth else literal m
  | resolved b => resolved b

/-- The integer an element counts as: a truth value counts as one or zero. -/
def number : Element → Int
  | literal l => l
  | resolved b => if b then 1 else 0

end Element

/-! ### Clauses -/

/-- A clause: a known truth value, or the list of its elements. -/
inductive Clause where
  | decided (truth : Bool)
  | undecided (elements : List Element)
deriving DecidableEq

namespace Clause

/-- The clause with these elements; with none it is false, since nothing can make it true. -/
def ofElements : List Element → Clause
  | [] => decided false
  | es => undecided es

/-- The clause with these literals. -/
def ofLiterals (ls : List Literal) : Clause :=
  ofElements (ls.map .literal)

/-- Whether the truth of the clause is known. -/
def isDecided : Clause → Bool
  | decided _ => true
  | undecided _ => false

/-- Whether the clause is known to be true. -/
def isSatisfied : Clause → Bool
  | decided b => b
  | undecided _ => false

/-- Whether the clause is known to be false. -/
def isFalsified : Clause → Bool
  | decided b => !b
  | undecided _ => false

/-- The literals that no assignment has touched, in order; a decided clause has none. -/
def unassigned : Clause → List Literal
  | decided _ => []
  | undecided es => es.filterMap Element.literal?

/-- Whether the untouched literal `l` occurs. -/
def contains (c : Clause) (l : Literal) : Bool :=
  c.unassigned.contains l

/-- The literal of a clause that has exactly one untouched place. -/
def unit? (c : Clause) : Option Literal :=
  match c.unassigned with
  | [l] => some l
  | _ => none

/-- Gives `l` the value `truth`. One satisfied element decides the clause; a clause in which no
untouched literal is left is false. -/
def assign (l : Literal) (truth : Bool) : Clause → Clause
  | decided b => decided b
  | undecided es =>
    if es.any (Element.satisfiedBy l truth) then
      decided true
    else if (es.map (Element.assign l truth)).all (·.literal?.isNone) then
      decided false
    else
      undecided (es.map (Element.assign l truth))

/-- The clause after every literal of a trail, newest first, was made true. -/
def under : List Literal → Clause → Clause
  | [], c => c
  | l :: older, c => (c.under older).assign l true

/-! ### Text -/

/-- The spelling of a truth value in reports. -/
def truthText (b : Bool) : String :=
  if b then "True" else "False"

/-- The spelling of an element in reports. -/
def elementText : Element → String
  | .literal l => toString l
  | .resolved b => truthText b

/-- The spelling of a clause in reports, such as `Clause([1, False, -3])`. -/
def text : Clause → String
  | decided b => "Clause(" ++ truthText b ++ ")"
  | undecided es => "Clause([" ++ ", ".intercalate (es.map elementText) ++ "])"

end Clause

end SatSearch
