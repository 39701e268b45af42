import SatSearch.Decimal.Magnitude

/-!
# The shortest decimal that reads back

`shortest` gives the decimal with the fewest digits among those that read back as the number, and of
several such the one closest to it. `text` lays it out: positional where the leading digit has an
exponent from -4 to 15, always with a point, and otherwise with an exponent of at least two digits.
-/

namespace SatSearch.Decimal

/-- The number `digits * 10 ^ exponent`. -/
structure Scaled where
  digits : Nat
  exponent : Int

/-- The least `k` such that a nonzero magnitude lies below `10 ^ k`. The binary logarithm gives it up
to a step. -/
def Magnitude.scale (x : Magnitude) : Int :=
  let k := Int.fdiv ((Nat.log2 x.mantissa + x.exponent) * 30103) 100000
  let below (k : Int) : Bool := compareScaled 1 k x.mantissa x.exponent == .gt
  if below (k - 1) then k - 1 else if below k then k else if below (k + 1) then k + 1 else k + 2

/-- The decimal with `n` digits that is closest to the magnitude, if it reads back. -/
def Magnitude.withDigits? (x : Magnitude) (scale : Int) (n : Nat) : Option Scaled :=
  let exponent := scale - n
  let (num, den) := x.inUnits exponent
  let low := num / den
  match x.readsBack low exponent, x.readsBack (low + 1) exponent with
  | false, false => none
  | true, false => some { digits := low, exponent }
  | false, true => some { digits := low + 1, exponent }
  | true, true => some { digits := roundDiv num den, exponent }

/-- Drops zeros at the end of the digits, at most `n` of them. -/
def Scaled.trimZeros : Nat → Scaled → Scaled
  | 0, d => d
  | n + 1, d =>
    if d.digits % 10 = 0 then trimZeros n { digits := d.digits / 10, exponent := d.exponent + 1 }
    else d

/-- The shortest decimal that reads back as a nonzero magnitude. Seventeen digits are enough. -/
def shortest (x : Magnitude) : Scaled :=
  let scale := x.scale
  match (List.range 17).findSome? fun n => x.withDigits? scale (n + 1) with
  | some d => d.trimZeros 17
  | none =>
    let (num, den) := x.inUnits (scale - 17)
    { digits := roundDiv num den, exponent := scale - 17 }

/-! ### Layout -/

/-- A number of zeros. -/
def zeros (n : Nat) : String :=
  String.ofList (List.replicate n '0')

/-- The part of an exponent behind the mark: a sign and at least two digits. -/
def exponentText (e : Int) : String :=
  let n := toString e.natAbs
  (if e < 0 then "-" else "+") ++ (if n.length < 2 then "0" ++ n else n)

/-- The layout of a nonzero decimal. -/
def Scaled.text (d : Scaled) : String :=
  let ds := (toString d.digits).toList
  let n := ds.length
  let e := d.exponent + n - 1
  if e < -4 ∨ 16 ≤ e then
    let rest := String.ofList (ds.drop 1)
    String.ofList (ds.take 1) ++ (if n = 1 then "" else "." ++ rest) ++ "e" ++ exponentText e
  else if e < 0 then
    "0." ++ zeros (-e - 1).toNat ++ String.ofList ds
  else
    let whole := e.toNat + 1
    if n ≤ whole then String.ofList ds ++ zeros (whole - n) ++ ".0"
    else String.ofList (ds.take whole) ++ "." ++ String.ofList (ds.drop whole)

/-- The text of a number in tables and reports. -/
def text (x : Float) : String :=
  match Kind.ofFloat x with
  | .notANumber => "nan"
  | .infinite negative => if negative then "-inf" else "inf"
  | .finite negative m =>
    (if negative then "-" else "") ++ (if m.mantissa = 0 then "0.0" else (shortest m).text)

end SatSearch.Decimal
