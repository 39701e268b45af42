import SatSearch.Text.Blank
import SatSearch.Text.Digit

/-!
# Integers in text

An integer is written as an optional sign and digits of any script, with single underscores between
digits allowed. More than `digitLimit` digits are refused, in reading as in writing.
-/

namespace SatSearch.Text

/-- The greatest number of digits of an integer in text. -/
def digitLimit : Nat := 4300

/-- The digit values of a text of digits with single underscores between them. -/
def digits? : List Char → Option (List Nat)
  | [] => none
  | [c] => (digitValue? c).map ([·])
  | c :: '_' :: rest => do
    let d ← digitValue? c
    let ds ← digits? rest
    return d :: ds
  | c :: rest => do
    let d ← digitValue? c
    let ds ← digits? rest
    return d :: ds

/-- Splits off a sign; the flag says whether it is a minus. -/
def splitSign : List Char → Bool × List Char
  | '-' :: rest => (true, rest)
  | '+' :: rest => (false, rest)
  | s => (false, s)

/-- The natural number with these digits, if they are not too many. -/
def natural? (s : List Char) : Option Nat := do
  let ds ← digits? s
  if ds.length ≤ digitLimit then some (ofDigits ds) else none

/-- The integer that a text spells, with nothing around it. -/
def integer? (s : List Char) : Option Int :=
  let (negative, magnitude) := splitSign s
  (natural? magnitude).map fun n => if negative then -(n : Int) else n

/-- Whether an integer has too many digits to be written. -/
def hasLongText (n : Int) : Bool :=
  Nat.pow 10 digitLimit ≤ n.natAbs

/-- Whether the character may stand around a number that is given as an argument: a blank other than
the four information separators. -/
def isNumberBlank (c : Char) : Bool :=
  isBlank c && !('\x1c' ≤ c && c ≤ '\x1f')

/-- The integer that an argument spells, blanks around it allowed. -/
def integerArgument? (s : String) : Option Int :=
  integer? (trimBy isNumberBlank s.toList)

end SatSearch.Text
