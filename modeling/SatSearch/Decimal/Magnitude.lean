/-!
# Finite floating-point magnitudes

A 64-bit floating-point number is not a number, an infinity, or a sign with a magnitude
`mantissa * 2 ^ exponent` (`Magnitude`). The exact value of a magnitude is compared with decimals by
multiplying out, so that nothing is rounded.
-/

namespace SatSearch.Decimal

/-- The exact value `mantissa * 2 ^ exponent` of a finite number without its sign. -/
structure Magnitude where
  mantissa : Nat
  exponent : Int
  /-- Whether the next smaller number is half as far away as the next greater one. -/
  narrowBelow : Bool

/-- The three kinds of floating-point numbers. -/
inductive Kind where
  | notANumber
  | infinite (negative : Bool)
  | finite (negative : Bool) (magnitude : Magnitude)

/-- The kind of a number, read off its bits. -/
def Kind.ofFloat (x : Float) : Kind :=
  let bits : Nat := x.toBits.toNat
  let negative := bits ≥ Nat.pow 2 63
  let biased : Nat := (bits >>> 52) % 2048
  let fraction : Nat := bits % Nat.pow 2 52
  if biased = 2047 then
    if fraction = 0 then infinite negative else notANumber
  else if biased = 0 then
    finite negative { mantissa := fraction, exponent := -1074, narrowBelow := false }
  else
    finite negative
      { mantissa := Nat.pow 2 52 + fraction
        exponent := (biased : Int) - 1075
        narrowBelow := fraction == 0 && biased > 1 }

/-- `2 ^ i` for `i ≥ 0`, else one. -/
def twoUp (i : Int) : Nat := Nat.pow 2 i.toNat

/-- `10 ^ i` for `i ≥ 0`, else one. -/
def tenUp (i : Int) : Nat := Nat.pow 10 i.toNat

/-- Compares `a * 10 ^ i` with `n * 2 ^ j`. -/
def compareScaled (a : Nat) (i : Int) (n : Nat) (j : Int) : Ordering :=
  compare (a * tenUp i * twoUp (-j)) (n * twoUp j * tenUp (-i))

namespace Magnitude

/-- Numerator and denominator of the value in units of `10 ^ i`. -/
def inUnits (x : Magnitude) (i : Int) : Nat × Nat :=
  (x.mantissa * twoUp x.exponent * tenUp (-i), twoUp (-x.exponent) * tenUp i)

/-- Whether `digits * 10 ^ i` lies among the reals that round to this magnitude, a half going to the
even neighbour. -/
def readsBack (x : Magnitude) (digits : Nat) (i : Int) : Bool :=
  let low := if x.narrowBelow then 4 * x.mantissa - 1 else 4 * x.mantissa - 2
  let high := 4 * x.mantissa + 2
  let closed := x.mantissa % 2 == 0
  let atLow := compareScaled digits i low (x.exponent - 2)
  let atHigh := compareScaled digits i high (x.exponent - 2)
  (atLow == .gt || (closed && atLow == .eq)) && (atHigh == .lt || (closed && atHigh == .eq))

end Magnitude

/-- The quotient of two naturals, rounded to the nearest integer, a half to the even one. -/
def roundDiv (n d : Nat) : Nat :=
  let q := n / d
  match compare (2 * (n % d)) d with
  | .lt => q
  | .gt => q + 1
  | .eq => if q % 2 = 0 then q else q + 1

end SatSearch.Decimal
