import SatSearch.Decimal.Magnitude

/-!
# A fixed number of places

`fixed` writes a number with a given number of places. The exact binary value is rounded, a half to the
even neighbour. `truncate` is the whole part and `roundToInt` the nearest integer of a number.
-/

namespace SatSearch.Decimal

/-- The text of a number with `places` digits behind the point. -/
def fixed (places : Nat) (x : Float) : String :=
  match Kind.ofFloat x with
  | .notANumber => "nan"
  | .infinite negative => if negative then "-inf" else "inf"
  | .finite negative m =>
    let (num, den) := m.inUnits (-(places : Int))
    let ds := (toString (roundDiv num den)).toList
    let padded := List.replicate (places + 1 - ds.length) '0' ++ ds
    let whole := padded.length - places
    (if negative then "-" else "") ++ String.ofList (padded.take whole) ++ "." ++
      String.ofList (padded.drop whole)

/-- Why a number has no integer near it. -/
inductive NoInteger where
  | infinite
  | notANumber
deriving DecidableEq

/-- An integer from a number by a rule for quotients of naturals. -/
def toIntBy (rule : Nat → Nat → Nat) (x : Float) : Except NoInteger Int :=
  match Kind.ofFloat x with
  | .notANumber => .error .notANumber
  | .infinite _ => .error .infinite
  | .finite negative m =>
    let (num, den) := m.inUnits 0
    let n : Int := rule num den
    .ok (if negative then -n else n)

/-- The whole part of a number. -/
def truncate (x : Float) : Except NoInteger Int :=
  toIntBy (· / ·) x

/-- The nearest integer of a number, a half going to the even one. -/
def roundToInt (x : Float) : Except NoInteger Int :=
  toIntBy roundDiv x

end SatSearch.Decimal
