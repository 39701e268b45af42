import SatSearch.Decimal.Reader

/-!
# Numbers in the fields of tables

A field spells a number in ASCII alone: an optional sign, digits with an optional point and exponent, and
blanks around them. Words for infinity stand without blanks. The value is the number nearest to the decimal
(`fieldNumber?`).
-/

namespace SatSearch.Decimal

/-- The value of an ASCII digit. -/
def asciiDigit? (c : Char) : Option Nat :=
  if '0' ≤ c ∧ c ≤ '9' then some (c.toNat - '0'.toNat) else none

/-- The digits at the front, and what follows them. -/
def asciiDigits : List Char → List Nat × List Char
  | [] => ([], [])
  | c :: rest =>
    match asciiDigit? c with
    | none => ([], c :: rest)
    | some d => (d :: (asciiDigits rest).1, (asciiDigits rest).2)

/-- An exponent with its mark; nothing stands for zero. -/
def asciiExponent? : List Char → Option Int
  | [] => some 0
  | c :: rest =>
    if c = 'e' ∨ c = 'E' then
      let (negative, s) := Text.splitSign rest
      match asciiDigits s with
      | ([], _) => none
      | (ds, []) => some (if negative then -(Text.ofDigits ds : Int) else Text.ofDigits ds)
      | _ => none
    else none

/-- The value of a decimal without blanks around it. -/
def asciiDecimal? (s : List Char) : Option Float :=
  let (negative, s) := Text.splitSign s
  let (whole, rest) := asciiDigits s
  let (fraction, rest) :=
    match rest with
    | '.' :: more => asciiDigits more
    | _ => ([], rest)
  if whole.isEmpty && fraction.isEmpty then none
  else
    (asciiExponent? rest).map fun e =>
      let x := nearest (Text.ofDigits (whole ++ fraction)) (e - fraction.length)
      if negative then -x else x

/-- Whether the character may stand around a number in a field. -/
def isFieldBlank (c : Char) : Bool :=
  c == ' ' || ('\t' ≤ c && c ≤ '\r')

/-- The number that a field spells. -/
def fieldNumber? (s : List Char) : Option Float :=
  match asciiDecimal? (Text.trimBy isFieldBlank s) with
  | some x => some x
  | none =>
    match String.ofList (s.map Char.toLower) with
    | "inf" | "+inf" | "infinity" | "+infinity" => some infinity
    | "-inf" | "-infinity" => some (-infinity)
    | _ => none

end SatSearch.Decimal
