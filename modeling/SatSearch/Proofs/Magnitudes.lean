import SatSearch.Decimal.Shortest
import SatSearch.Proofs.WholePart

/-!
# Which decimals are rounded to a number

A decimal is rounded to the number that is nearest to it, and half-way between two numbers to the one with the
even mantissa (`RoundsTo`). The decimals that are rounded to a number make up an interval around it, whose lower
half is narrower at a power of two (`Magnitude.IsCanonical.roundsTo_iff`). Main statement: whether a decimal lies
in this interval is told by multiplying out (`Magnitude.IsCanonical.readsBack_eq_true_iff`).
-/

namespace SatSearch.Decimal

/-! ### Comparing decimals with binary numbers -/

theorem twoUp_pos (i : ℤ) : 0 < twoUp i :=
  Nat.pow_pos (by decide)

theorem tenUp_pos (i : ℤ) : 0 < tenUp i :=
  Nat.pow_pos (by decide)

theorem zpow_eq_div (b : ℚ) (i : ℤ) : b ^ i = b ^ i.toNat / b ^ (-i).toNat := by
  rcases Int.le_total 0 i with hi | hi
  · obtain ⟨n, rfl⟩ := Int.eq_ofNat_of_zero_le hi
    simp
  · obtain ⟨n, hn⟩ := Int.eq_ofNat_of_zero_le (Int.neg_nonneg_of_nonpos hi)
    obtain rfl : i = -n := by omega
    simp

theorem two_zpow_eq (i : ℤ) : (2 : ℚ) ^ i = twoUp i / twoUp (-i) := by
  rw [zpow_eq_div, twoUp, twoUp, Nat.pow_eq, Nat.pow_eq]
  norm_cast

theorem ten_zpow_eq (i : ℤ) : (10 : ℚ) ^ i = tenUp i / tenUp (-i) := by
  rw [zpow_eq_div, tenUp, tenUp, Nat.pow_eq, Nat.pow_eq]
  norm_cast

theorem scaled_lt_scaled_iff (a : ℕ) (i : ℤ) (n : ℕ) (j : ℤ) :
    a * tenUp i * twoUp (-j) < n * twoUp j * tenUp (-i) ↔ (a : ℚ) * 10 ^ i < n * 2 ^ j := by
  have hten : (0 : ℚ) < tenUp (-i) := mod_cast tenUp_pos (-i)
  have htwo : (0 : ℚ) < twoUp (-j) := mod_cast twoUp_pos (-j)
  rw [ten_zpow_eq, two_zpow_eq, mul_div_assoc', mul_div_assoc', div_lt_div_iff₀ hten htwo]
  norm_cast

theorem scaled_eq_scaled_iff (a : ℕ) (i : ℤ) (n : ℕ) (j : ℤ) :
    a * tenUp i * twoUp (-j) = n * twoUp j * tenUp (-i) ↔ (a : ℚ) * 10 ^ i = n * 2 ^ j := by
  have hten : (tenUp (-i) : ℚ) ≠ 0 := mod_cast (tenUp_pos (-i)).ne'
  have htwo : (twoUp (-j) : ℚ) ≠ 0 := mod_cast (twoUp_pos (-j)).ne'
  rw [ten_zpow_eq, two_zpow_eq, mul_div_assoc', mul_div_assoc', div_eq_div_iff hten htwo]
  norm_cast

theorem compareScaled_eq_lt {a : ℕ} {i : ℤ} {n : ℕ} {j : ℤ} :
    compareScaled a i n j = .lt ↔ (a : ℚ) * 10 ^ i < n * 2 ^ j := by
  rw [compareScaled, Nat.compare_eq_lt, scaled_lt_scaled_iff]

theorem compareScaled_eq_eq {a : ℕ} {i : ℤ} {n : ℕ} {j : ℤ} :
    compareScaled a i n j = .eq ↔ (a : ℚ) * 10 ^ i = n * 2 ^ j := by
  rw [compareScaled, Nat.compare_eq_eq, scaled_eq_scaled_iff]

theorem compareScaled_eq_gt {a : ℕ} {i : ℤ} {n : ℕ} {j : ℤ} :
    compareScaled a i n j = .gt ↔ n * 2 ^ j < (a : ℚ) * 10 ^ i := by
  rw [compareScaled, Nat.compare_eq_gt, ← not_le, le_iff_lt_or_eq, scaled_lt_scaled_iff,
    scaled_eq_scaled_iff, ← le_iff_lt_or_eq, not_le]

/-! ### Rounding -/

/-- The numbers that decimals are rounded to: they have at most 53 bits, and an exponent that is not below -1074.
A decimal that is too great is told by what it is rounded to, so exponents are not bounded above. -/
def IsBinary (q : ℚ) : Prop :=
  ∃ (m : ℕ) (e : ℤ), m < 2 ^ 53 ∧ -1074 ≤ e ∧ q = m * 2 ^ e

/-- The decimal `d` is rounded to `m * 2 ^ e`: no number is nearer to it, and if another one is as near the
mantissa is even. -/
structure RoundsTo (d : ℚ) (m : ℕ) (e : ℤ) : Prop where
  nearest : ∀ q, IsBinary q → |d - m * 2 ^ e| ≤ |d - q|
  even : ∀ q, IsBinary q → q ≠ m * 2 ^ e → |d - q| = |d - m * 2 ^ e| → Even m

namespace Magnitude

/-- A magnitude of a floating-point number that is not zero. -/
structure IsCanonical (y : Magnitude) : Prop where
  pos : 0 < y.mantissa
  lt : y.mantissa < 2 ^ 53
  low : -1074 ≤ y.exponent
  high : y.exponent ≤ 971
  normal : 2 ^ 52 ≤ y.mantissa ∨ y.exponent = -1074
  narrow : y.narrowBelow = true ↔ y.mantissa = 2 ^ 52 ∧ -1074 < y.exponent

/-- The exact value. -/
def value (y : Magnitude) : ℚ :=
  y.mantissa * 2 ^ y.exponent

/-- How far away the next smaller number is. -/
def gap (y : Magnitude) : ℚ :=
  if y.narrowBelow then 2 ^ (y.exponent - 1) else 2 ^ y.exponent

/-- The decimal lies at most half-way to the neighbours of a magnitude, and less if the mantissa is odd. -/
structure Covers (y : Magnitude) (d : ℚ) : Prop where
  low : y.value - y.gap / 2 < d ∨ Even y.mantissa ∧ d = y.value - y.gap / 2
  high : d < y.value + 2 ^ y.exponent / 2 ∨ Even y.mantissa ∧ d = y.value + 2 ^ y.exponent / 2

variable {y : Magnitude}

theorem two_zpow_exponent : (2 : ℚ) ^ y.exponent = 2 * 2 ^ (y.exponent - 1) := by
  rw [zpow_sub_one₀ two_ne_zero]
  ring

theorem gap_pos : 0 < y.gap := by
  rw [gap]
  split_ifs <;> exact zpow_pos two_pos _

theorem gap_of_narrow (h : y.narrowBelow = true) : y.gap = 2 ^ y.exponent / 2 := by
  rw [gap, if_pos h, two_zpow_exponent]
  ring

theorem gap_le : y.gap ≤ 2 ^ y.exponent := by
  cases h : y.narrowBelow with
  | true =>
    rw [gap_of_narrow h]
    exact half_le_self (zpow_pos two_pos _).le
  | false => rw [gap, h, if_neg Bool.false_ne_true]

/-- What lies between two decimals that are rounded to a magnitude is rounded to it as well. -/
theorem Covers.convex {a b d : ℚ} (ha : y.Covers a) (hb : y.Covers b) (had : a ≤ d) (hdb : d ≤ b) :
    y.Covers d where
  low := by
    rcases ha.low with h | ⟨heven, rfl⟩
    · exact .inl (h.trans_le had)
    · exact (lt_or_eq_of_le had).imp id fun h => ⟨heven, h.symm⟩
  high := by
    rcases hb.high with h | ⟨heven, rfl⟩
    · exact .inl (hdb.trans_lt h)
    · exact (lt_or_eq_of_le hdb).imp id fun h => ⟨heven, h⟩

theorem covers_value : y.Covers y.value where
  low := .inl (sub_lt_self _ (half_pos gap_pos))
  high := .inl (lt_add_of_pos_right _ (half_pos (zpow_pos two_pos _)))

namespace IsCanonical

variable (hy : y.IsCanonical)

include hy

theorem isBinary_above : IsBinary (y.value + 2 ^ y.exponent) := by
  obtain hlt | heq := Nat.lt_or_eq_of_le (Nat.succ_le_of_lt hy.lt)
  · refine ⟨y.mantissa + 1, y.exponent, hlt, hy.low, ?_⟩
    rw [value]
    push_cast
    ring
  · -- The mantissa overflows, and the exponent takes it up.
    refine ⟨2 ^ 52, y.exponent + 1, by norm_num, by linarith [hy.low], ?_⟩
    have hm : (y.mantissa : ℚ) = 2 ^ 53 - 1 := by
      rw [eq_sub_iff_add_eq]
      exact_mod_cast heq
    rw [value, hm, zpow_add_one₀ two_ne_zero]
    push_cast
    ring

theorem isBinary_below : IsBinary (y.value - y.gap) := by
  cases h : y.narrowBelow with
  | true =>
    obtain ⟨hm, he⟩ := hy.narrow.1 h
    refine ⟨2 ^ 53 - 1, y.exponent - 1, by norm_num, by omega, ?_⟩
    rw [gap, if_pos h, value, hm, two_zpow_exponent]
    push_cast
    ring
  | false =>
    refine ⟨y.mantissa - 1, y.exponent, by have := hy.lt; omega, hy.low, ?_⟩
    rw [gap, h, if_neg Bool.false_ne_true, value, Nat.cast_sub hy.pos]
    ring

/-- Below the exponent of a magnitude with a leading bit, 53 bits do not reach it. -/
theorem le_of_lt_exponent {m : ℕ} {e : ℤ} (hm : m < 2 ^ 53) (he : -1074 ≤ e) (hlt : e < y.exponent) :
    (m : ℚ) * 2 ^ e ≤ y.value - y.gap := by
  have hp : (0 : ℚ) < 2 ^ y.exponent := zpow_pos two_pos _
  have hnormal : 2 ^ 52 ≤ y.mantissa := hy.normal.resolve_right (by omega)
  have hm' : (m : ℚ) ≤ 2 ^ 53 - 1 := by
    rw [le_sub_iff_add_le]
    exact_mod_cast hm
  have hstep : (2 : ℚ) ^ e ≤ 2 ^ (y.exponent - 1) := zpow_le_zpow_right₀ one_le_two (by omega)
  have hbound : (m : ℚ) * 2 ^ e ≤ (2 ^ 53 - 1) * 2 ^ (y.exponent - 1) := by gcongr
  obtain hgt | heq := Nat.lt_or_eq_of_le hnormal
  · have hm : (2 : ℚ) ^ 52 + 1 ≤ y.mantissa := mod_cast hgt
    have hvalue : (2 ^ 52 + 1) * 2 ^ y.exponent ≤ y.value := by
      rw [value]
      gcongr
    linarith [gap_le (y := y), two_zpow_exponent (y := y)]
  · have hgap := gap_of_narrow (hy.narrow.2 ⟨heq.symm, by omega⟩)
    have hvalue : y.value = 2 ^ 52 * 2 ^ y.exponent := by
      rw [value, ← heq]
      norm_num
    linarith [two_zpow_exponent (y := y)]

omit hy in
/-- No multiple of the last place lies between a magnitude and its neighbours. -/
theorem le_or_le_of_ne_mantissa {n : ℕ} (hne : n ≠ y.mantissa) :
    (n : ℚ) * 2 ^ y.exponent ≤ y.value - y.gap ∨ y.value + 2 ^ y.exponent ≤ (n : ℚ) * 2 ^ y.exponent := by
  have hp : (0 : ℚ) < 2 ^ y.exponent := zpow_pos two_pos _
  rcases Nat.lt_or_gt_of_ne hne with hlt | hgt
  · left
    have hn : (n : ℚ) + 1 ≤ y.mantissa := mod_cast hlt
    have hvalue : (n + 1) * 2 ^ y.exponent ≤ y.value := by
      rw [value]
      gcongr
    linarith [gap_le (y := y)]
  · right
    have hn : (y.mantissa : ℚ) + 1 ≤ n := mod_cast hgt
    calc y.value + 2 ^ y.exponent = (y.mantissa + 1) * 2 ^ y.exponent := by rw [value]; ring
      _ ≤ n * 2 ^ y.exponent := by gcongr

/-- No number lies between a magnitude and its neighbours. -/
theorem le_or_le_of_isBinary {q : ℚ} (hq : IsBinary q) (hne : q ≠ y.value) :
    q ≤ y.value - y.gap ∨ y.value + 2 ^ y.exponent ≤ q := by
  obtain ⟨m, e, hm, he, rfl⟩ := hq
  rcases Int.lt_or_le e y.exponent with hlt | hle
  · exact .inl (hy.le_of_lt_exponent hm he hlt)
  · obtain ⟨k, rfl⟩ := Int.le.dest hle
    have hq : (m : ℚ) * 2 ^ (y.exponent + k) = (m * 2 ^ k : ℕ) * 2 ^ y.exponent := by
      rw [zpow_add₀ two_ne_zero, zpow_natCast]
      push_cast
      ring
    rw [hq] at hne ⊢
    refine le_or_le_of_ne_mantissa fun heq => hne ?_
    rw [heq, value]

theorem covers_of_roundsTo {d : ℚ} (h : RoundsTo d y.mantissa y.exponent) : y.Covers d := by
  obtain ⟨hnearest, heven⟩ := h
  rw [← value] at hnearest heven
  have hgap := gap_pos (y := y)
  have hp : (0 : ℚ) < 2 ^ y.exponent := zpow_pos two_pos _
  have hlow : y.value - y.gap / 2 ≤ d := by
    have h := hnearest _ hy.isBinary_below
    rcases abs_cases (d - y.value) with h' | h' <;>
      rcases abs_cases (d - (y.value - y.gap)) with h'' | h'' <;> linarith
  have hhigh : d ≤ y.value + 2 ^ y.exponent / 2 := by
    have h := hnearest _ hy.isBinary_above
    rcases abs_cases (d - y.value) with h' | h' <;>
      rcases abs_cases (d - (y.value + 2 ^ y.exponent)) with h'' | h'' <;> linarith
  refine ⟨(lt_or_eq_of_le hlow).imp id fun heq => ⟨heven _ hy.isBinary_below (by linarith) ?_, heq.symm⟩,
    (lt_or_eq_of_le hhigh).imp id fun heq => ⟨heven _ hy.isBinary_above (by linarith) ?_, heq⟩⟩
  · rw [← heq, show y.value - y.gap / 2 - (y.value - y.gap) = y.gap / 2 by ring,
      show y.value - y.gap / 2 - y.value = -(y.gap / 2) by ring, abs_neg]
  · rw [heq, show y.value + 2 ^ y.exponent / 2 - (y.value + 2 ^ y.exponent) = -(2 ^ y.exponent / 2) by ring,
      show y.value + 2 ^ y.exponent / 2 - y.value = 2 ^ y.exponent / 2 by ring, abs_neg]

theorem roundsTo_of_covers {d : ℚ} (h : y.Covers d) : RoundsTo d y.mantissa y.exponent := by
  have hlow : y.value - y.gap / 2 ≤ d := h.low.elim le_of_lt fun h => h.2.ge
  have hhigh : d ≤ y.value + 2 ^ y.exponent / 2 := h.high.elim le_of_lt fun h => h.2.le
  refine ⟨fun q hq => ?_, fun q hq hne heq => ?_⟩
  · rw [← value]
    by_cases hne : q = y.value
    · rw [hne]
    · rw [abs_le]
      rcases hy.le_or_le_of_isBinary hq hne with hq | hq
      · constructor <;> linarith [le_abs_self (d - q), gap_pos (y := y)]
      · constructor <;> linarith [neg_le_abs (d - q), zpow_pos (two_pos (α := ℚ)) y.exponent]
  · rw [← value] at hne heq
    -- A tie is only possible at an end of the interval.
    rcases hy.le_or_le_of_isBinary hq hne with hq | hq
    · refine h.low.elim (fun hlt => ?_) And.left
      rcases abs_cases (d - y.value) with h' | h' <;> linarith [le_abs_self (d - q), gap_pos (y := y)]
    · refine h.high.elim (fun hlt => ?_) And.left
      rcases abs_cases (d - y.value) with h' | h' <;>
        linarith [neg_le_abs (d - q), zpow_pos (two_pos (α := ℚ)) y.exponent]

/-- What is rounded to a magnitude lies between the middles of the gaps around it. -/
theorem roundsTo_iff {d : ℚ} : RoundsTo d y.mantissa y.exponent ↔ y.Covers d :=
  ⟨hy.covers_of_roundsTo, hy.roundsTo_of_covers⟩

/-- Whether a decimal is rounded to a magnitude is told by multiplying out. -/
theorem readsBack_eq_true_iff (digits : ℕ) (i : ℤ) :
    y.readsBack digits i = true ↔ y.Covers (digits * 10 ^ i) := by
  have hquarter : (2 : ℚ) ^ y.exponent = 4 * 2 ^ (y.exponent - 2) := by
    rw [zpow_sub₀ two_ne_zero]
    ring
  have hlow : ((if y.narrowBelow then 4 * y.mantissa - 1 else 4 * y.mantissa - 2 : ℕ) : ℚ) *
      2 ^ (y.exponent - 2) = y.value - y.gap / 2 := by
    have hpos := hy.pos
    rw [value, hquarter]
    cases h : y.narrowBelow with
    | true =>
      rw [gap_of_narrow h, hquarter, if_pos rfl, Nat.cast_sub (by omega)]
      push_cast
      ring
    | false =>
      rw [gap, h, if_neg Bool.false_ne_true, if_neg Bool.false_ne_true, hquarter, Nat.cast_sub (by omega)]
      push_cast
      ring
  have hhigh : ((4 * y.mantissa + 2 : ℕ) : ℚ) * 2 ^ (y.exponent - 2) =
      y.value + 2 ^ y.exponent / 2 := by
    rw [value, hquarter]
    push_cast
    ring
  unfold readsBack
  simp only [Bool.and_eq_true, Bool.or_eq_true, beq_iff_eq, compareScaled_eq_lt, compareScaled_eq_gt,
    compareScaled_eq_eq, hlow, hhigh, ← Nat.even_iff]
  exact ⟨fun h => ⟨h.1, h.2⟩, fun h => ⟨h.1, h.2⟩⟩

end IsCanonical

end Magnitude

/-! ### The magnitude of a number -/

open Float.Model Float.Model.UnpackedFloat

theorem Kind.ofFloat_of_zero {x : Float} {s : Sign} (h : x.toModel.unpack = .zero s) :
    ∃ y, Kind.ofFloat x = .finite (s == .negative) y ∧ y.mantissa = 0 := by
  unfold Float.Model.unpack UnpackedFloat.unpack at h
  simp only [← BitVec.toNat_inj, toNat_unpackExponent, toNat_unpackMantissa] at h
  unfold Kind.ofFloat
  simp only
  split_ifs at h with hones hnone hlow hzero
  have hlow : (x.toBits.toNat >>> 52) % 2048 = 0 := hlow
  have hzero : x.toBits.toNat % Nat.pow 2 52 = 0 := hzero
  injection h with hs
  rw [if_neg (by omega), if_pos hlow, ← hs, beq_negative_unpackSign]
  exact ⟨_, rfl, hzero⟩

theorem Kind.ofFloat_of_notANumber {x : Float} (h : x.toModel.unpack = .notANumber) :
    Kind.ofFloat x = .notANumber := by
  unfold Float.Model.unpack UnpackedFloat.unpack at h
  simp only [← BitVec.toNat_inj, toNat_unpackExponent, toNat_unpackMantissa] at h
  unfold Kind.ofFloat
  simp only
  split_ifs at h with hones hnone
  have hones : (x.toBits.toNat >>> 52) % 2048 = 2047 := hones
  have hnone : ¬x.toBits.toNat % Nat.pow 2 52 = 0 := hnone
  rw [if_pos hones, if_neg hnone]

theorem Kind.isCanonical_of_ofFloat {x : Float} {negative : Bool} {y : Magnitude}
    (h : Kind.ofFloat x = .finite negative y) (hpos : 0 < y.mantissa) : y.IsCanonical := by
  obtain ⟨hlt, hnormal⟩ := Kind.mantissa_bounds h
  have hbiased : (x.toBits.toNat >>> 52) % 2048 < 2048 := Nat.mod_lt _ (by decide)
  unfold Kind.ofFloat at h
  simp only at h
  split_ifs at h with hones hnone hzero
  · cases h
    refine ⟨hpos, hlt, le_rfl, by simp, .inr rfl, iff_of_false Bool.false_ne_true ?_⟩
    exact fun h => absurd h.2 (lt_irrefl _)
  · cases h
    refine ⟨hpos, hlt, ?_, ?_, hnormal, ?_⟩
    · dsimp only
      omega
    · dsimp only
      omega
    · have hpow : Nat.pow 2 52 = 2 ^ 52 := rfl
      simp only [Bool.and_eq_true, beq_iff_eq, decide_eq_true_eq, hpow]
      omega

/-- The magnitude of a finite number that is not zero. -/
theorem Kind.exists_isCanonical {x : Float} {s : Sign} {m : ℕ} {e : ℤ} {hm : 0 < m}
    (h : x.toModel.unpack = .finite s m e hm) :
    ∃ y, Kind.ofFloat x = .finite (s == .negative) y ∧ y.mantissa = m ∧ y.exponent = e ∧ y.IsCanonical := by
  obtain ⟨narrow, hkind⟩ := Kind.ofFloat_of_finite h
  exact ⟨_, hkind, rfl, rfl, Kind.isCanonical_of_ofFloat hkind hm⟩

end SatSearch.Decimal
