import SatSearch.Text.Integer

/-!
# Reading numbers with a fraction

The grammar of numbers given as arguments: an optional sign, then `inf`, `infinity` or `nan` in any
case, or digits with an optional point and exponent. Digits may be of any script and may be separated by
single underscores. The value is the number nearest to the decimal.
-/

namespace SatSearch.Decimal

open SatSearch.Text

/-- The number nearest to `digits * 10 ^ exponent`. Decimals far outside the range of numbers are cut
off before the power of ten is formed. -/
def nearest (digits : Nat) (exponent : Int) : Float :=
  if digits = 0 then 0.0
  else
    let leading := exponent + (Nat.log2 digits : Int) * 30103 / 100000
    if leading > 400 then 1.0 / 0.0
    else if leading < -400 then 0.0
    else Float.ofScientific digits (exponent < 0) exponent.natAbs

/-- Infinity. -/
def infinity : Float := 1.0 / 0.0

/-- The value that is not a number. -/
def notANumber : Float := 0.0 / 0.0

/-- A run of digits at the front, with single underscores between them, and what follows it. -/
def spanDigits : List Char → List Nat × List Char
  | [] => ([], [])
  | c :: '_' :: e :: more =>
    match digitValue? c with
    | none => ([], c :: '_' :: e :: more)
    | some d =>
      if isDigit e then
        let r := spanDigits (e :: more)
        (d :: r.1, r.2)
      else ([d], '_' :: e :: more)
  | c :: rest =>
    match digitValue? c with
    | none => ([], c :: rest)
    | some d =>
      let r := spanDigits rest
      (d :: r.1, r.2)

/-- The exponent at the end of a number; nothing stands for zero. -/
def exponent? : List Char → Option Int
  | [] => some 0
  | c :: rest =>
    if c = 'e' ∨ c = 'E' then
      let (negative, s) := splitSign rest
      match spanDigits s with
      | ([], _) => none
      | (ds, []) => some (if negative then -(ofDigits ds : Int) else ofDigits ds)
      | _ => none
    else none

/-- The value of an unsigned decimal. -/
def magnitude? (s : List Char) : Option Float :=
  let (whole, rest) := spanDigits s
  let (fraction, rest) :=
    match rest with
    | '.' :: more => spanDigits more
    | _ => ([], rest)
  if whole.isEmpty && fraction.isEmpty then none
  else
    (exponent? rest).map fun e => nearest (ofDigits (whole ++ fraction)) (e - fraction.length)

/-- The number that a text spells, with nothing around it. -/
def float? (s : List Char) : Option Float :=
  let (negative, rest) := splitSign s
  let value :=
    match String.ofList (rest.map Char.toLower) with
    | "inf" | "infinity" => some infinity
    | "nan" => some notANumber
    | _ => magnitude? rest
  value.map fun x => if negative then -x else x

/-- The number that an argument spells, blanks around it allowed. -/
def floatArgument? (s : String) : Option Float :=
  float? (trimBy isNumberBlank s.toList)

end SatSearch.Decimal
