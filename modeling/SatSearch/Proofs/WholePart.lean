import Mathlib
import SatSearch.Decimal.Fixed

/-!
# The whole part of a number

The kind of a floating-point number is read off its bits; so are the orders `<` and `≤`, by the model of
floating-point numbers in the core library. Both readings agree on the finite numbers
(`Kind.ofFloat_of_finite`). Main statements: every positive number but infinity has a whole part
(`truncate_of_pos`), and it is below `2 ^ 31` exactly if the number is (`lt_two_pow_iff_of_truncate`,
`two_pow_le_iff_of_truncate`).
-/

namespace SatSearch.Decimal

open Float.Model Float.Model.UnpackedFloat

/-! ### The fields of the bits -/

theorem toNat_unpackExponent (x : Float) :
    (@unpackExponent Format.binary64 x.toModel.toBits.toBitVec).toNat =
      (x.toBits.toNat >>> 52) % 2048 := by
  unfold unpackExponent
  simp only [BitVec.toNat_cast, BitVec.extractLsb_toNat]
  rfl

theorem toNat_unpackMantissa (x : Float) :
    (@unpackMantissa Format.binary64 x.toModel.toBits.toBitVec).toNat =
      x.toBits.toNat % Nat.pow 2 52 := by
  unfold unpackMantissa
  simp only [BitVec.toNat_cast, BitVec.extractLsb_toNat]
  rfl

theorem beq_negative_unpackSign (x : Float) :
    (Sign.ofBitVec (@unpackSign Format.binary64 x.toModel.toBits.toBitVec) == .negative) =
      decide (x.toBits.toNat ≥ Nat.pow 2 63) := by
  have hsign : (@unpackSign Format.binary64 x.toModel.toBits.toBitVec).toNat =
      x.toBits.toNat / 2 ^ 63 := by
    unfold unpackSign
    simp only [BitVec.toNat_cast, BitVec.extractLsb_toNat, Nat.shiftRight_eq_div_pow]
    exact Nat.mod_eq_of_lt (Nat.div_lt_of_lt_mul x.toBits.toNat_lt)
  have hzero : @unpackSign Format.binary64 x.toModel.toBits.toBitVec = 0#1 ↔
      x.toBits.toNat < Nat.pow 2 63 := by
    rw [← BitVec.toNat_inj, hsign]
    exact Nat.div_eq_zero_iff_lt (by decide)
  rw [Sign.ofBitVec]
  by_cases hlt : x.toBits.toNat < Nat.pow 2 63
  · rw [if_pos (hzero.2 hlt), decide_eq_false (Nat.not_le.2 hlt)]
    rfl
  · rw [if_neg (mt hzero.1 hlt), decide_eq_true (Nat.not_lt.1 hlt)]
    rfl

/-- The leading bit of a mantissa is left out in the bits of the number. -/
theorem toNat_leading_append (v : BitVec 52) : (1#1 ++ v).toNat = Nat.pow 2 52 + v.toNat := by
  rw [BitVec.toNat_append, ← Nat.shiftLeft_add_eq_or_of_lt v.isLt]
  rfl

theorem Kind.ofFloat_of_finite {x : Float} {s : Sign} {m : Nat} {e : Int} {hm : 0 < m}
    (h : x.toModel.unpack = .finite s m e hm) :
    ∃ narrow, Kind.ofFloat x = .finite (s == .negative) ⟨m, e, narrow⟩ := by
  unfold Float.Model.unpack UnpackedFloat.unpack at h
  simp only [← BitVec.toNat_inj, toNat_unpackExponent] at h
  unfold Kind.ofFloat
  simp only
  have hbias : Format.binary64.exponentBias = 1023 := rfl
  split_ifs at h with hones hnone hlow hzero
  · -- A subnormal number has no leading bit.
    have hlow : (x.toBits.toNat >>> 52) % 2048 = 0 := hlow
    injection h with hs hmantissa hexponent
    refine ⟨false, ?_⟩
    rw [if_neg (by omega), if_pos hlow, ← hs, beq_negative_unpackSign, ← hmantissa,
      toNat_unpackMantissa, ← hexponent, hlow, hbias]
    rfl
  · have hones : (x.toBits.toNat >>> 52) % 2048 ≠ 2047 := hones
    have hlow : (x.toBits.toNat >>> 52) % 2048 ≠ 0 := hlow
    injection h with hs hmantissa hexponent
    refine ⟨x.toBits.toNat % Nat.pow 2 52 == 0 && decide ((x.toBits.toNat >>> 52) % 2048 > 1), ?_⟩
    rw [if_neg hones, if_neg hlow, ← hs, beq_negative_unpackSign, ← hmantissa, toNat_leading_append,
      toNat_unpackMantissa, ← hexponent, hbias]
    rfl

theorem Kind.ofFloat_of_infinity {x : Float} {s : Sign} (h : x.toModel.unpack = .infinity s) :
    Kind.ofFloat x = .infinite (s == .negative) := by
  unfold Float.Model.unpack UnpackedFloat.unpack at h
  simp only [← BitVec.toNat_inj, toNat_unpackExponent, toNat_unpackMantissa] at h
  unfold Kind.ofFloat
  simp only
  split_ifs at h with hones hnone
  have hones : (x.toBits.toNat >>> 52) % 2048 = 2047 := hones
  have hnone : x.toBits.toNat % Nat.pow 2 52 = 0 := hnone
  injection h with hs
  rw [if_pos hones, if_pos hnone, ← hs, beq_negative_unpackSign]

theorem Kind.mantissa_bounds {x : Float} {negative : Bool} {y : Magnitude}
    (h : Kind.ofFloat x = .finite negative y) :
    y.mantissa < 2 ^ 53 ∧ (2 ^ 52 ≤ y.mantissa ∨ y.exponent = -1074) := by
  have hfraction : x.toBits.toNat % Nat.pow 2 52 < 2 ^ 52 := Nat.mod_lt _ (by decide)
  unfold Kind.ofFloat at h
  simp only at h
  split_ifs at h
  · cases h
    exact ⟨Nat.lt_trans hfraction (by decide), .inr rfl⟩
  · cases h
    exact ⟨Nat.add_lt_add_left hfraction (Nat.pow 2 52), .inl (Nat.le_add_right _ _)⟩

/-! ### The whole part of a positive number -/

theorem unpack_two_pow :
    (2147483648.0 : Float).toModel.unpack = .finite .positive (2 ^ 52) (-21) (by decide) := rfl

theorem unpack_zero : (0.0 : Float).toModel.unpack = .zero .positive := rfl

theorem unpack_infinity : (1.0 / 0.0 : Float).toModel.unpack = .infinity .positive := rfl

theorem lt_iff_compare {x y : Float} :
    x < y ↔ x.toModel.unpack.compare y.toModel.unpack = some .lt := by
  show (decide (x.toModel < y.toModel) = true) ↔ _
  rw [decide_eq_true_eq]
  show x.toModel.unpack.lt y.toModel.unpack = true ↔ _
  rw [UnpackedFloat.lt, beq_iff_eq]

theorem le_iff_compare {x y : Float} :
    x ≤ y ↔ (x.toModel.unpack.compare y.toModel.unpack).any (·.isLE) = true := by
  show (decide (x.toModel ≤ y.toModel) = true) ↔ _
  rw [decide_eq_true_eq]
  rfl

theorem unpack_of_pos {x : Float} (hpos : 0.0 < x) :
    x.toModel.unpack = .infinity .positive ∨
      ∃ m e, ∃ hm : 0 < m, x.toModel.unpack = .finite .positive m e hm := by
  rw [lt_iff_compare, unpack_zero] at hpos
  cases hx : x.toModel.unpack with
  | notANumber => simp [hx, UnpackedFloat.compare] at hpos
  | zero s => simp [hx, UnpackedFloat.compare] at hpos
  | infinity s =>
    cases s with
    | negative => simp [hx, UnpackedFloat.compare] at hpos
    | positive => exact .inl rfl
  | finite s m e hm =>
    cases s with
    | negative => simp [hx, UnpackedFloat.compare] at hpos
    | positive => exact .inr ⟨m, e, hm, rfl⟩

theorem pos_of_two_pow_le {x : Float} (h : 2147483648.0 ≤ x) : 0.0 < x := by
  rw [le_iff_compare, unpack_two_pow] at h
  rw [lt_iff_compare, unpack_zero]
  cases hx : x.toModel.unpack with
  | notANumber => simp [hx, UnpackedFloat.compare] at h
  | zero s => simp [hx, UnpackedFloat.compare] at h
  | infinity s =>
    cases s with
    | negative => simp [hx, UnpackedFloat.compare] at h
    | positive => rfl
  | finite s m e hm =>
    cases s with
    | negative => simp [hx, UnpackedFloat.compare] at h
    | positive => rfl

theorem unpack_of_infinity_le {x : Float} (h : 1.0 / 0.0 ≤ x) :
    x.toModel.unpack = .infinity .positive := by
  rw [le_iff_compare, unpack_infinity] at h
  cases hx : x.toModel.unpack with
  | infinity s =>
    cases s with
    | negative => exact absurd (hx ▸ h) (by decide)
    | positive => rfl
  | notANumber => simp [hx, UnpackedFloat.compare] at h
  | zero s => simp [hx, UnpackedFloat.compare] at h
  | finite s m e hm => simp [hx, UnpackedFloat.compare] at h

theorem two_pow_le_of_infinity_le {x : Float} (h : 1.0 / 0.0 ≤ x) : 2147483648.0 ≤ x := by
  rw [le_iff_compare, unpack_two_pow, unpack_of_infinity_le h]
  rfl

/-- Infinity has no whole part. -/
theorem truncate_of_infinity_le {x : Float} (h : 1.0 / 0.0 ≤ x) : truncate x = .error .infinite := by
  rw [truncate, toIntBy, Kind.ofFloat_of_infinity (unpack_of_infinity_le h)]

section Finite

variable {x : Float} {m : Nat} {e : Int} {hm : 0 < m} (h : x.toModel.unpack = .finite .positive m e hm)

include h

theorem two_pow_le_iff : 2147483648.0 ≤ x ↔ -21 < e ∨ -21 = e ∧ 2 ^ 52 ≤ m := by
  rw [le_iff_compare, unpack_two_pow, h, UnpackedFloat.compare, Option.any_some]
  simp [Ordering.isLE_then_iff_or, Int.compare_eq_lt, Nat.isLE_compare]

theorem lt_two_pow_iff : x < 2147483648.0 ↔ ¬ 2147483648.0 ≤ x := by
  rw [two_pow_le_iff h, lt_iff_compare, unpack_two_pow, h, UnpackedFloat.compare, Option.some.injEq,
    Ordering.then_eq_lt, Int.compare_eq_lt, Int.compare_eq_eq, Nat.compare_eq_lt]
  omega

theorem truncate_eq : truncate x = .ok ((m * 2 ^ e.toNat / 2 ^ (-e).toNat : Nat) : Int) := by
  obtain ⟨narrow, hkind⟩ := Kind.ofFloat_of_finite h
  rw [truncate, toIntBy, hkind]
  simp [Magnitude.inUnits, twoUp, tenUp]

theorem two_pow_le_whole_iff : 2 ^ 31 ≤ m * 2 ^ e.toNat / 2 ^ (-e).toNat ↔ 2147483648.0 ≤ x := by
  obtain ⟨narrow, hkind⟩ := Kind.ofFloat_of_finite h
  obtain ⟨hm53, hm52⟩ := Kind.mantissa_bounds hkind
  simp only at hm53 hm52
  rw [two_pow_le_iff h, Nat.le_div_iff_mul_le (Nat.two_pow_pos _)]
  constructor
  · intro hle
    -- With a lower exponent even the greatest mantissa is not enough.
    by_contra hsmall
    have hzero : e.toNat = 0 := by omega
    rw [hzero, Nat.pow_zero, Nat.mul_one] at hle
    obtain he | rfl := Int.lt_or_eq_of_le (show e ≤ -21 by omega)
    · have hpow : 2 ^ 22 ≤ 2 ^ (-e).toNat := Nat.pow_le_pow_right (by decide) (by omega)
      omega
    · exact hsmall (.inr ⟨rfl, hle⟩)
  · intro hlarge
    have hm52 : 2 ^ 52 ≤ m := by omega
    calc 2 ^ 31 * 2 ^ (-e).toNat ≤ 2 ^ 31 * 2 ^ 21 :=
          Nat.mul_le_mul_left _ (Nat.pow_le_pow_right (by decide) (by omega))
      _ ≤ m := hm52
      _ ≤ m * 2 ^ e.toNat := Nat.le_mul_of_pos_right _ (Nat.two_pow_pos _)

end Finite

theorem truncate_of_pos {x : Float} (hpos : 0.0 < x) :
    1.0 / 0.0 ≤ x ∨ ∃ n : Nat, truncate x = .ok (n : Int) := by
  obtain h | ⟨m, e, hm, h⟩ := unpack_of_pos hpos
  · left
    rw [le_iff_compare, unpack_infinity, h]
    rfl
  · exact .inr ⟨_, truncate_eq h⟩

/-! ### Comparing the whole part -/

section Truncated

variable {x : Float} {n : Nat} (hpos : 0.0 < x) (h : truncate x = .ok (n : Int))

include hpos h

theorem exists_finite_of_truncate :
    ∃ m e, ∃ hm : 0 < m, x.toModel.unpack = .finite .positive m e hm ∧
      n = m * 2 ^ e.toNat / 2 ^ (-e).toNat := by
  obtain hinfinity | ⟨m, e, hm, hx⟩ := unpack_of_pos hpos
  · rw [truncate, toIntBy, Kind.ofFloat_of_infinity hinfinity] at h
    cases h
  · rw [truncate_eq hx, Except.ok.injEq, Int.natCast_inj] at h
    exact ⟨m, e, hm, hx, h.symm⟩

theorem two_pow_le_iff_of_truncate : 2147483648.0 ≤ x ↔ 2 ^ 31 ≤ n := by
  obtain ⟨m, e, hm, hx, rfl⟩ := exists_finite_of_truncate hpos h
  exact (two_pow_le_whole_iff hx).symm

theorem lt_two_pow_iff_of_truncate : x < 2147483648.0 ↔ n < 2 ^ 31 := by
  obtain ⟨m, e, hm, hx, rfl⟩ := exists_finite_of_truncate hpos h
  rw [lt_two_pow_iff hx, ← two_pow_le_whole_iff hx, Nat.not_le]

end Truncated

/-- A positive number below `2 ^ 31` has a whole part, and it is below that as well. -/
theorem exists_truncate_eq {x : Float} (hpos : 0.0 < x) (hlt : x < 2147483648.0) :
    ∃ n : Nat, truncate x = .ok (n : Int) ∧ n < 2 ^ 31 := by
  obtain hinfinity | ⟨n, hn⟩ := truncate_of_pos hpos
  · rw [lt_iff_compare, unpack_two_pow, unpack_of_infinity_le hinfinity] at hlt
    exact absurd hlt (by decide)
  · exact ⟨n, hn, (lt_two_pow_iff_of_truncate hpos hn).1 hlt⟩

end SatSearch.Decimal
