import SatSearch.Proofs.Magnitudes

/-!
# The shortest decimal

Of the decimals that are rounded to a number, the one with the fewest digits is written, and of several with as
many digits the one that is closest to the number (`IsShortest`). Between the two neighbours on a decimal grid there
is no decimal with as few digits (`Magnitude.Spans.exists_neighbour`), so it is enough to try these two for each
number of digits, and seventeen digits are enough (`Magnitude.IsCanonical.exists_covers_seventeen`). Main statement:
what is found is the shortest decimal (`Magnitude.IsCanonical.isShortest_shortest`).
-/

namespace SatSearch.Decimal

/-- A decimal with at most `n` digits. -/
def HasDigits (q : ℚ) (n : ℕ) : Prop :=
  ∃ (k : ℕ) (i : ℤ), k < 10 ^ n ∧ q = k * 10 ^ i

/-- Of the decimals that are rounded to `m * 2 ^ e`, none has fewer than the `n` digits of `q`, and of those with
`n` digits none is closer. If another one is as close, the last digit of `q` is even. -/
structure IsShortest (q : ℚ) (n : ℕ) (m : ℕ) (e : ℤ) : Prop where
  hasDigits : HasDigits q n
  roundsTo : RoundsTo q m e
  fewest : ∀ q' n', RoundsTo q' m e → HasDigits q' n' → n ≤ n'
  closest : ∀ q', RoundsTo q' m e → HasDigits q' n → |q - m * 2 ^ e| ≤ |q' - m * 2 ^ e|
  even : ∀ q', RoundsTo q' m e → HasDigits q' n → q' ≠ q → |q - m * 2 ^ e| = |q' - m * 2 ^ e| →
    ∃ (k : ℕ) (i : ℤ), k < 10 ^ n ∧ Even k ∧ q = k * 10 ^ i

/-- The value of a decimal. -/
def Scaled.value (d : Scaled) : ℚ :=
  d.digits * 10 ^ d.exponent

/-! ### Powers of two and of ten -/

/-! The powers are compared through `10 ^ 31 ≤ 2 ^ 103` and `2 ^ 93 ≤ 10 ^ 28`. -/

theorem ten_zpow_le_of_nonneg {a t : ℤ} (ha : 0 ≤ a) (h : 103 * a ≤ 31 * t) : (10 : ℚ) ^ a ≤ 2 ^ t := by
  refine (pow_le_pow_iff_left₀ (by positivity) (by positivity) (by decide : 31 ≠ 0)).1 ?_
  calc ((10 : ℚ) ^ a) ^ 31 = (10 ^ 31) ^ a := by rw [← zpow_natCast, zpow_comm, zpow_natCast]
    _ ≤ (2 ^ 103) ^ a := zpow_le_zpow_left₀ ha (by positivity) (by norm_num)
    _ = 2 ^ (103 * a) := by rw [zpow_mul]; norm_cast
    _ ≤ 2 ^ (31 * t) := zpow_le_zpow_right₀ one_le_two h
    _ = (2 ^ t) ^ 31 := by rw [mul_comm, zpow_mul]; norm_cast

theorem two_zpow_le_of_nonneg {a t : ℤ} (ha : 0 ≤ a) (h : 28 * t ≤ 93 * a) : (2 : ℚ) ^ t ≤ 10 ^ a := by
  refine (pow_le_pow_iff_left₀ (by positivity) (by positivity) (by decide : 28 ≠ 0)).1 ?_
  calc ((2 : ℚ) ^ t) ^ 28 = 2 ^ (28 * t) := by rw [mul_comm, zpow_mul]; norm_cast
    _ ≤ 2 ^ (93 * a) := zpow_le_zpow_right₀ one_le_two h
    _ = (2 ^ 93) ^ a := by rw [zpow_mul]; norm_cast
    _ ≤ (10 ^ 28) ^ a := zpow_le_zpow_left₀ ha (by positivity) (by norm_num)
    _ = (10 ^ a) ^ 28 := by rw [← zpow_natCast, zpow_comm, zpow_natCast]

theorem ten_zpow_le_two_zpow {a t : ℤ} (h : 103 * a ≤ 31 * t) (h' : 93 * a ≤ 28 * t) :
    (10 : ℚ) ^ a ≤ 2 ^ t := by
  rcases Int.le_total 0 a with ha | ha
  · exact ten_zpow_le_of_nonneg ha h
  · have hinv := two_zpow_le_of_nonneg (a := -a) (t := -t) (by omega) (by omega)
    rwa [zpow_neg, zpow_neg, inv_le_inv₀ (by positivity) (by positivity)] at hinv

theorem two_zpow_le_ten_zpow {a t : ℤ} (h : 31 * t ≤ 103 * a) (h' : 28 * t ≤ 93 * a) :
    (2 : ℚ) ^ t ≤ 10 ^ a := by
  rcases Int.le_total 0 a with ha | ha
  · exact two_zpow_le_of_nonneg ha h'
  · have hinv := ten_zpow_le_of_nonneg (a := -a) (t := -t) (by omega) (by omega)
    rwa [zpow_neg, zpow_neg, inv_le_inv₀ (by positivity) (by positivity)] at hinv

namespace Magnitude

variable {y : Magnitude}

/-! ### The scale -/

theorem compareScaled_one_eq_gt {k : ℤ} :
    (compareScaled 1 k y.mantissa y.exponent == .gt) = true ↔ y.value < 10 ^ k := by
  rw [beq_iff_eq, compareScaled_eq_gt, Nat.cast_one, one_mul, value]

theorem IsCanonical.scale_spec (hy : y.IsCanonical) :
    10 ^ (y.scale - 1) ≤ y.value ∧ y.value < 10 ^ y.scale := by
  have hm := hy.pos.ne'
  have hlog : Nat.log2 y.mantissa < 53 := (Nat.log2_lt hm).2 hy.lt
  have hlow := hy.low
  have hhigh := hy.high
  have hself : ((2 ^ Nat.log2 y.mantissa : ℕ) : ℚ) ≤ y.mantissa := mod_cast Nat.log2_self_le hm
  have hsucc : (y.mantissa : ℚ) < (2 ^ (Nat.log2 y.mantissa + 1) : ℕ) := mod_cast Nat.lt_log2_self
  -- The binary logarithm `t` bounds the value.
  generalize ht : (Nat.log2 y.mantissa : ℤ) + y.exponent = t
  have hbelow : (2 : ℚ) ^ t ≤ y.value := by
    rw [← ht, zpow_add₀ two_ne_zero, value, zpow_natCast]
    push_cast at hself
    gcongr
  have habove : y.value < 2 ^ (t + 1) := by
    rw [← ht, add_right_comm, zpow_add₀ two_ne_zero, value]
    push_cast at hsucc
    norm_cast at hsucc ⊢
    gcongr
  generalize hk : Int.fdiv (t * 30103) 100000 = k
  have hk' : 100000 * k ≤ t * 30103 ∧ t * 30103 < 100000 * (k + 1) := by
    rw [← hk, Int.fdiv_eq_ediv_of_nonneg _ (by decide)]
    omega
  have hleast : 10 ^ (k - 2) ≤ y.value :=
    (ten_zpow_le_two_zpow (by omega) (by omega)).trans hbelow
  have hgreatest : y.value < 10 ^ (k + 2) :=
    habove.trans_le (two_zpow_le_ten_zpow (by omega) (by omega))
  unfold scale
  simp only [ht, hk, compareScaled_one_eq_gt]
  split_ifs with h1 h2 h3
  · rw [sub_sub]
    exact ⟨hleast, h1⟩
  · exact ⟨not_lt.1 h1, h2⟩
  · rw [add_sub_cancel_right]
    exact ⟨not_lt.1 h2, h3⟩
  · rw [show k + 2 - 1 = k + 1 by ring]
    exact ⟨not_lt.1 h3, hgreatest⟩

/-! ### Neighbours on a decimal grid -/

/-- The greatest multiple of `10 ^ i` that is not above a magnitude, in units of `10 ^ i`. -/
def lower (y : Magnitude) (i : ℤ) : ℕ :=
  (y.inUnits i).1 / (y.inUnits i).2

theorem inUnits_pos (i : ℤ) : 0 < (y.inUnits i).2 :=
  Nat.mul_pos (twoUp_pos _) (tenUp_pos _)

theorem value_eq_div_mul (i : ℤ) : y.value = (y.inUnits i).1 / (y.inUnits i).2 * 10 ^ i := by
  have htwo : (twoUp (-y.exponent) : ℚ) ≠ 0 := mod_cast (twoUp_pos _).ne'
  have hten : (tenUp i : ℚ) ≠ 0 := mod_cast (tenUp_pos _).ne'
  have hten' : (tenUp (-i) : ℚ) ≠ 0 := mod_cast (tenUp_pos _).ne'
  rw [value, inUnits, two_zpow_eq, ten_zpow_eq]
  push_cast
  field_simp

/-- How far a magnitude lies above the multiple of `10 ^ i` below it. -/
theorem value_sub_lower (i : ℤ) :
    y.value - y.lower i * 10 ^ i = ((y.inUnits i).1 % (y.inUnits i).2 : ℕ) / (y.inUnits i).2 * 10 ^ i := by
  have hden : ((y.inUnits i).2 : ℚ) ≠ 0 := mod_cast (inUnits_pos i).ne'
  have hnum : ((y.inUnits i).1 : ℚ) =
      (y.inUnits i).2 * y.lower i + ((y.inUnits i).1 % (y.inUnits i).2 : ℕ) := by
    rw [lower]
    exact_mod_cast (Nat.div_add_mod _ _).symm
  rw [value_eq_div_mul i, hnum]
  field_simp
  ring

theorem lower_le (i : ℤ) : y.lower i * 10 ^ i ≤ y.value := by
  rw [← sub_nonneg, value_sub_lower]
  positivity

theorem lt_lower_add_one (i : ℤ) : y.value < (y.lower i + 1) * 10 ^ i := by
  have hden : (0 : ℚ) < (y.inUnits i).2 := mod_cast inUnits_pos i
  have hmod : (((y.inUnits i).1 % (y.inUnits i).2 : ℕ) : ℚ) / (y.inUnits i).2 < 1 := by
    rw [div_lt_one hden]
    exact_mod_cast Nat.mod_lt _ (inUnits_pos i)
  have hten : (0 : ℚ) < 10 ^ i := by positivity
  linarith [value_sub_lower (y := y) i, mul_lt_mul_of_pos_right hmod hten]

/-- In units of `10 ^ i` a magnitude has `n + 1` digits in front of the point. -/
def Spans (y : Magnitude) (i : ℤ) (n : ℕ) : Prop :=
  10 ^ (i + n) ≤ y.value ∧ y.value < 10 ^ (i + n + 1)

section Grid

variable {i : ℤ} {n : ℕ} (h : y.Spans i n)

include h

theorem Spans.lower_lt : y.lower i < 10 ^ (n + 1) := by
  have hten : (0 : ℚ) < 10 ^ i := by positivity
  have hlt : (y.lower i : ℚ) * 10 ^ i < 10 ^ (n + 1) * 10 ^ i := by
    calc (y.lower i : ℚ) * 10 ^ i ≤ y.value := lower_le i
      _ < 10 ^ (i + n + 1) := h.2
      _ = 10 ^ (n + 1) * 10 ^ i := by
          rw [← zpow_natCast, ← zpow_add₀ (by norm_num)]
          push_cast
          ring_nf
  exact_mod_cast lt_of_mul_lt_mul_right hlt hten.le

theorem Spans.le_lower : 10 ^ n ≤ y.lower i := by
  have hten : (0 : ℚ) < 10 ^ i := by positivity
  have hlt : (10 : ℚ) ^ n * 10 ^ i < (y.lower i + 1) * 10 ^ i := by
    calc (10 : ℚ) ^ n * 10 ^ i = 10 ^ (i + n) := by
          rw [← zpow_natCast, ← zpow_add₀ (by norm_num), add_comm]
      _ ≤ y.value := h.1
      _ < (y.lower i + 1) * 10 ^ i := lt_lower_add_one i
  have hlt' : (10 : ℚ) ^ n < y.lower i + 1 := lt_of_mul_lt_mul_right hlt hten.le
  exact Nat.lt_add_one_iff.1 (mod_cast hlt')

/-- No decimal with as many digits lies between the two neighbours of a magnitude on the grid. -/
theorem Spans.le_or_le_of_hasDigits {q : ℚ} (hq : HasDigits q (n + 1)) :
    q ≤ y.lower i * 10 ^ i ∨ (y.lower i + 1) * 10 ^ i ≤ q := by
  obtain ⟨k, j, hk, rfl⟩ := hq
  rcases Int.lt_or_le j i with hlt | hle
  · -- On a finer grid as many digits do not reach the power of ten below the magnitude.
    left
    have hk' : (k : ℚ) ≤ 10 ^ (n + 1) := mod_cast hk.le
    have hlower : (10 : ℚ) ^ n ≤ y.lower i := mod_cast h.le_lower
    calc (k : ℚ) * 10 ^ j ≤ 10 ^ (n + 1) * 10 ^ (i - 1) := by
          gcongr
          · norm_num
          · omega
      _ = 10 ^ n * 10 ^ i := by
          rw [zpow_sub_one₀ (by norm_num), pow_succ]
          ring
      _ ≤ y.lower i * 10 ^ i := by gcongr
  · obtain ⟨t, rfl⟩ := Int.le.dest hle
    have hq : (k : ℚ) * 10 ^ (i + t) = (k * 10 ^ t : ℕ) * 10 ^ i := by
      rw [zpow_add₀ (by norm_num), zpow_natCast]
      push_cast
      ring
    rw [hq]
    rcases Nat.lt_or_ge (y.lower i) (k * 10 ^ t) with hlt | hge
    · right
      have hlt' : (y.lower i : ℚ) + 1 ≤ (k * 10 ^ t : ℕ) := mod_cast hlt
      gcongr
    · left
      gcongr

/-- The neighbour of a magnitude on the side of a decimal is rounded to it if the decimal is, and it is no farther
away. -/
theorem Spans.exists_neighbour {q : ℚ} (hq : HasDigits q (n + 1)) (hcovers : y.Covers q) :
    ∃ c, (c = y.lower i ∨ c = y.lower i + 1) ∧ y.Covers (c * 10 ^ i) ∧
      |c * 10 ^ i - y.value| ≤ |q - y.value| ∧
      (|c * 10 ^ i - y.value| = |q - y.value| → q = c * 10 ^ i) := by
  have hvalue := covers_value (y := y)
  rcases h.le_or_le_of_hasDigits hq with hle | hle
  · have hlower := lower_le (y := y) i
    refine ⟨y.lower i, .inl rfl, hcovers.convex hvalue hle hlower, ?_⟩
    rw [abs_of_nonpos (by linarith), abs_of_nonpos (by linarith)]
    exact ⟨by linarith, fun heq => by linarith⟩
  · have hupper := lt_lower_add_one (y := y) i
    refine ⟨y.lower i + 1, .inr rfl, ?_⟩
    push_cast
    refine ⟨hvalue.convex hcovers hupper.le hle, ?_⟩
    rw [abs_of_pos (by linarith), abs_of_pos (by linarith)]
    exact ⟨by linarith, fun heq => by linarith⟩

end Grid

/-! ### The decimal with a number of digits -/

/-- Of the two neighbours on a grid, `d` is rounded to the magnitude. If the other one is as well, it is no closer,
and `d` is even if it is as close. -/
structure Picks (y : Magnitude) (i : ℤ) (d : ℕ) : Prop where
  neighbour : d = y.lower i ∨ d = y.lower i + 1
  covers : y.Covers (d * 10 ^ i)
  closest : ∀ c, (c = y.lower i ∨ c = y.lower i + 1) → y.Covers (c * 10 ^ i) →
    |d * 10 ^ i - y.value| ≤ |c * 10 ^ i - y.value|
  even : ∀ c, (c = y.lower i ∨ c = y.lower i + 1) → y.Covers (c * 10 ^ i) → c ≠ d →
    |d * 10 ^ i - y.value| = |c * 10 ^ i - y.value| → Even d

section Neighbours

variable {i : ℤ}

theorem abs_lower (y : Magnitude) (i : ℤ) :
    |y.lower i * 10 ^ i - y.value| = y.value - y.lower i * 10 ^ i := by
  rw [abs_of_nonpos (sub_nonpos.2 (lower_le i)), neg_sub]

theorem abs_upper (y : Magnitude) (i : ℤ) :
    |(y.lower i + 1 : ℕ) * 10 ^ i - y.value| = (y.lower i + 1) * 10 ^ i - y.value := by
  push_cast
  exact abs_of_pos (sub_pos.2 (lt_lower_add_one i))

theorem picks_lower (hlower : y.Covers (y.lower i * 10 ^ i))
    (h : y.Covers ((y.lower i + 1 : ℕ) * 10 ^ i) →
      y.value - y.lower i * 10 ^ i ≤ (y.lower i + 1) * 10 ^ i - y.value ∧
        (y.value - y.lower i * 10 ^ i = (y.lower i + 1) * 10 ^ i - y.value → Even (y.lower i))) :
    y.Picks i (y.lower i) where
  neighbour := .inl rfl
  covers := hlower
  closest := by
    rintro c (rfl | rfl) hc
    · exact le_rfl
    · rw [abs_lower, abs_upper]
      exact (h hc).1
  even := by
    rintro c (rfl | rfl) hc hne heq
    · exact absurd rfl hne
    · rw [abs_lower, abs_upper] at heq
      exact (h hc).2 heq

theorem picks_upper (hupper : y.Covers ((y.lower i + 1 : ℕ) * 10 ^ i))
    (h : y.Covers (y.lower i * 10 ^ i) →
      (y.lower i + 1) * 10 ^ i - y.value ≤ y.value - y.lower i * 10 ^ i ∧
        ((y.lower i + 1) * 10 ^ i - y.value = y.value - y.lower i * 10 ^ i → Even (y.lower i + 1))) :
    y.Picks i (y.lower i + 1) where
  neighbour := .inr rfl
  covers := hupper
  closest := by
    rintro c (rfl | rfl) hc
    · rw [abs_lower, abs_upper]
      exact (h hc).1
    · exact le_rfl
  even := by
    rintro c (rfl | rfl) hc hne heq
    · rw [abs_lower, abs_upper] at heq
      exact (h hc).2 heq
    · exact absurd rfl hne

/-- Rounding picks the closer neighbour, and of two that are as close the even one. -/
theorem picks_roundDiv (hlower : y.Covers (y.lower i * 10 ^ i))
    (hupper : y.Covers ((y.lower i + 1 : ℕ) * 10 ^ i)) :
    y.Picks i (roundDiv (y.inUnits i).1 (y.inUnits i).2) := by
  have hten : (0 : ℚ) < 10 ^ i := by positivity
  have hden : (0 : ℚ) < (y.inUnits i).2 := mod_cast inUnits_pos i
  have hrest := value_sub_lower (y := y) i
  have hquotient : (y.inUnits i).1 / (y.inUnits i).2 = y.lower i := rfl
  rw [roundDiv, hquotient]
  generalize (y.inUnits i).1 % (y.inUnits i).2 = r at hrest
  generalize (y.inUnits i).2 = den at hden hrest
  -- The rest in relation to the divisor is the distance in relation to the unit.
  have hunit : (r : ℚ) / den * 10 ^ i + (den - r : ℚ) / den * 10 ^ i = 10 ^ i := by
    field_simp
    ring
  rcases Nat.lt_trichotomy (2 * r) den with hlt | heq | hgt
  · have hlt' : (r : ℚ) / den * 10 ^ i < (den - r) / den * 10 ^ i := by
      have : (2 : ℚ) * r < den := mod_cast hlt
      gcongr
      linarith
    rw [Nat.compare_eq_lt.2 hlt]
    exact picks_lower hlower fun _ => ⟨by linarith, fun _ => by linarith⟩
  · have heq' : (r : ℚ) / den * 10 ^ i = (den - r) / den * 10 ^ i := by
      have : (2 : ℚ) * r = den := mod_cast heq
      rw [← this]
      ring
    rw [Nat.compare_eq_eq.2 heq]
    dsimp only
    split_ifs with heven
    · exact picks_lower hlower fun _ => ⟨by linarith, fun _ => Nat.even_iff.2 heven⟩
    · exact picks_upper hupper fun _ => ⟨by linarith, fun _ => Nat.even_iff.2 (by omega)⟩
  · have hgt' : (den - r : ℚ) / den * 10 ^ i < r / den * 10 ^ i := by
      have : (den : ℚ) < 2 * r := mod_cast hgt
      gcongr
      linarith
    rw [Nat.compare_eq_gt.2 hgt]
    exact picks_upper hupper fun _ => ⟨by linarith, fun _ => by linarith⟩

end Neighbours

theorem withDigits?_eq (y : Magnitude) (scale : ℤ) (n : ℕ) : y.withDigits? scale n =
    match y.readsBack (y.lower (scale - n)) (scale - n), y.readsBack (y.lower (scale - n) + 1) (scale - n) with
    | false, false => none
    | true, false => some { digits := y.lower (scale - n), exponent := scale - n }
    | false, true => some { digits := y.lower (scale - n) + 1, exponent := scale - n }
    | true, true =>
      some { digits := roundDiv (y.inUnits (scale - n)).1 (y.inUnits (scale - n)).2, exponent := scale - n } :=
  rfl

namespace IsCanonical

variable (hy : y.IsCanonical) {scale : ℤ} {n : ℕ}

include hy

theorem picks_of_withDigits? {d : Scaled} (h : y.withDigits? scale n = some d) :
    d.exponent = scale - n ∧ y.Picks (scale - n) d.digits := by
  have hlower := hy.readsBack_eq_true_iff (y.lower (scale - n)) (scale - n)
  have hupper := hy.readsBack_eq_true_iff (y.lower (scale - n) + 1) (scale - n)
  rw [withDigits?_eq] at h
  split at h
  · cases h
  · next hl hu =>
    cases h
    refine ⟨rfl, picks_lower (hlower.1 hl) fun hcovers => ?_⟩
    rw [hupper.2 hcovers] at hu
    cases hu
  · next hl hu =>
    cases h
    refine ⟨rfl, picks_upper (hupper.1 hu) fun hcovers => ?_⟩
    rw [hlower.2 hcovers] at hl
    cases hl
  · next hl hu =>
    cases h
    exact ⟨rfl, picks_roundDiv (hlower.1 hl) (hupper.1 hu)⟩

theorem not_covers_of_withDigits? (h : y.withDigits? scale n = none) {c : ℕ}
    (hc : c = y.lower (scale - n) ∨ c = y.lower (scale - n) + 1) : ¬y.Covers (c * 10 ^ (scale - n)) := by
  rw [← hy.readsBack_eq_true_iff, Bool.not_eq_true]
  rw [withDigits?_eq] at h
  split at h
  · next hl hu =>
    rcases hc with rfl | rfl
    · exact hl
    · exact hu
  all_goals cases h

end IsCanonical

end Magnitude

/-- Zeros are dropped without changing the value. -/
theorem Scaled.value_trimZeros (n : ℕ) (d : Scaled) : (d.trimZeros n).value = d.value := by
  induction n generalizing d with
  | zero => rfl
  | succ n ih =>
    rw [trimZeros]
    split_ifs with hzero
    · have hdigits : (d.digits : ℚ) = (d.digits / 10 : ℕ) * 10 :=
        mod_cast (Nat.div_mul_cancel (Nat.dvd_of_mod_eq_zero hzero)).symm
      rw [ih, value, value, hdigits, zpow_add_one₀ (by norm_num)]
      ring
    · rfl

/-- No zero is left at the end if as many are dropped as there can be. -/
theorem Scaled.digits_trimZeros {n : ℕ} {d : Scaled} (hpos : 0 < d.digits) (hlt : d.digits < 10 ^ (n + 1)) :
    (d.trimZeros n).digits % 10 ≠ 0 := by
  induction n generalizing d with
  | zero =>
    rw [trimZeros]
    omega
  | succ n ih =>
    rw [trimZeros]
    split_ifs with hzero
    · refine ih ?_ ?_
      · show 0 < d.digits / 10
        omega
      · show d.digits / 10 < 10 ^ (n + 1)
        rw [Nat.div_lt_iff_lt_mul (by decide), ← Nat.pow_succ]
        exact hlt
    · exact hzero

/-! ### The fewest digits -/

theorem exists_of_findSome?_range {α : Type} {f : ℕ → Option α} {m : ℕ} {a : α}
    (h : (List.range m).findSome? f = some a) : ∃ n < m, f n = some a ∧ ∀ k < n, f k = none := by
  induction m with
  | zero => cases h
  | succ m ih =>
    rw [List.range_succ, List.findSome?_append] at h
    cases hbefore : (List.range m).findSome? f with
    | some b =>
      rw [hbefore] at h
      obtain ⟨n, hn, hf, hk⟩ := ih (hbefore.trans h)
      exact ⟨n, Nat.lt_succ_of_lt hn, hf, hk⟩
    | none =>
      rw [hbefore, Option.none_or, List.findSome?_singleton] at h
      exact ⟨m, Nat.lt_succ_self m, h, fun k hk => List.findSome?_eq_none_iff.1 hbefore k (List.mem_range.2 hk)⟩

theorem hasDigits_of_le {k n : ℕ} (i : ℤ) (hn : 0 < n) (h : k ≤ 10 ^ n) : HasDigits (k * 10 ^ i) n := by
  obtain hlt | rfl := Nat.lt_or_eq_of_le h
  · exact ⟨k, i, hlt, rfl⟩
  · refine ⟨1, i + n, Nat.one_lt_pow hn.ne' (by decide), ?_⟩
    rw [zpow_add₀ (by norm_num), zpow_natCast]
    push_cast
    ring

namespace Magnitude.IsCanonical

variable {y : Magnitude} (hy : y.IsCanonical) {i : ℤ}

include hy

/-- In seventeen digits the unit of the last one is smaller than the gap below the magnitude. -/
theorem unit_lt_gap (h : y.Spans i 16) : 10 ^ i < y.gap := by
  have hunit : (10 : ℚ) ^ i * 10 ^ 16 ≤ y.mantissa * 2 ^ y.exponent := by
    calc (10 : ℚ) ^ i * 10 ^ 16 = 10 ^ (i + (16 : ℕ)) := by
          rw [zpow_add₀ (by norm_num), zpow_natCast]
      _ ≤ y.mantissa * 2 ^ y.exponent := h.1
  have hp : (0 : ℚ) < 2 ^ y.exponent := by positivity
  cases hnarrow : y.narrowBelow with
  | true =>
    rw [(hy.narrow.1 hnarrow).1] at hunit
    rw [gap_of_narrow hnarrow]
    push_cast at hunit
    linarith
  | false =>
    have hm : (y.mantissa : ℚ) * 2 ^ y.exponent < 2 ^ 53 * 2 ^ y.exponent := by
      have hlt : (y.mantissa : ℚ) < 2 ^ 53 := mod_cast hy.lt
      gcongr
    rw [gap, hnarrow, if_neg Bool.false_ne_true]
    linarith

/-- Of the neighbours with seventeen digits the closer one is rounded to the magnitude. -/
theorem exists_covers_seventeen (h : y.Spans i 16) :
    ∃ c, (c = y.lower i ∨ c = y.lower i + 1) ∧ y.Covers (c * 10 ^ i) := by
  have hgap := hy.unit_lt_gap h
  have hgap' := gap_le (y := y)
  have hlow := lower_le (y := y) i
  have hhigh := lt_lower_add_one (y := y) i
  have hp : (0 : ℚ) < 2 ^ y.exponent := by positivity
  rcases le_total (y.value - y.lower i * 10 ^ i) ((y.lower i + 1) * 10 ^ i - y.value) with hle | hle
  · exact ⟨_, .inl rfl, .inl (by linarith), .inl (by linarith)⟩
  · refine ⟨_, .inr rfl, ?_⟩
    push_cast
    exact ⟨.inl (by linarith), .inl (by linarith)⟩

/-- No magnitude lies half-way between the greatest decimal with one digit and the next one. -/
theorem two_mul_value_ne (h9 : y.Covers (9 * 10 ^ i)) (h10 : y.Covers (10 * 10 ^ i)) :
    2 * y.value ≠ 19 * 10 ^ i := by
  intro htie
  have hlow : y.value - y.gap / 2 ≤ 9 * 10 ^ i := h9.low.elim le_of_lt fun h => h.2.ge
  have hhigh : 10 * 10 ^ i ≤ y.value + 2 ^ y.exponent / 2 := h10.high.elim le_of_lt fun h => h.2.le
  have hp : (0 : ℚ) < 2 ^ y.exponent := by positivity
  have hunit : (10 : ℚ) ^ i ≤ 2 ^ y.exponent := by linarith [gap_le (y := y)]
  -- Only numbers with a short mantissa are as far apart, and these have the least exponent.
  have hm : (y.mantissa : ℚ) ≤ 19 / 2 := by
    rw [value] at htie
    refine le_of_mul_le_mul_right ?_ hp
    linarith
  have hm' : 2 * y.mantissa ≤ 19 := by
    have : (2 : ℚ) * y.mantissa ≤ 19 := by linarith
    exact_mod_cast this
  obtain ⟨k, hk, he⟩ : ∃ k : ℕ, 0 < k ∧ y.exponent = -(k : ℤ) :=
    ⟨1074, by decide, hy.normal.resolve_left (by omega)⟩
  have hi : i < 0 := by
    by_contra hi
    have hone : (1 : ℚ) ≤ 10 ^ i := one_le_zpow₀ (by norm_num) (by omega)
    have htwo : (2 : ℚ) ^ y.exponent < 1 := zpow_lt_one_of_neg₀ one_lt_two (by omega)
    linarith
  obtain ⟨j, rfl⟩ : ∃ j : ℕ, i = -((j + 1 : ℕ) : ℤ) := ⟨(-i - 1).toNat, by omega⟩
  have hproduct : 2 * y.mantissa * 10 ^ (j + 1) = 19 * 2 ^ k := by
    rw [value, he, zpow_neg, zpow_neg, zpow_natCast, zpow_natCast] at htie
    field_simp at htie
    rw [mul_comm 19]
    exact_mod_cast htie
  have hdvd : 5 ∣ 19 * 2 ^ k := by
    rw [← hproduct]
    exact Dvd.dvd.mul_left (Dvd.dvd.trans (by decide) (dvd_pow_self 10 (Nat.succ_ne_zero j))) _
  have hcoprime : Nat.Coprime 5 (19 * 2 ^ k) :=
    Nat.Coprime.mul_right (by decide) (Nat.Coprime.pow_right _ (by decide))
  exact absurd (hcoprime.eq_one_of_dvd hdvd) (by decide)

theorem spans_scale (n : ℕ) : y.Spans (y.scale - (n + 1 : ℕ)) n := by
  have hscale := hy.scale_spec
  have hlow : y.scale - (n + 1 : ℕ) + n = y.scale - 1 := by
    push_cast
    ring
  rw [Spans, hlow, sub_add_cancel]
  exact hscale

/-- What is found has the fewest digits for which there is a decimal that is rounded to the magnitude. -/
theorem exists_shortest_eq : ∃ n d, n < 17 ∧ shortest y = d.trimZeros 17 ∧
    y.withDigits? y.scale (n + 1) = some d ∧ ∀ k < n, y.withDigits? y.scale (k + 1) = none := by
  unfold shortest
  dsimp only
  cases hfind : (List.range 17).findSome? fun n => y.withDigits? y.scale (n + 1) with
  | none =>
    have hnone := List.findSome?_eq_none_iff.1 hfind 16 (by decide)
    obtain ⟨c, hc, hcovers⟩ := hy.exists_covers_seventeen (hy.spans_scale 16)
    exact absurd hcovers (hy.not_covers_of_withDigits? hnone hc)
  | some d =>
    obtain ⟨n, hn, hd, hbefore⟩ := exists_of_findSome?_range hfind
    exact ⟨n, d, hn, rfl, hd, hbefore⟩

theorem not_covers_zero : ¬y.Covers 0 := by
  intro h
  have hle : y.value - y.gap / 2 ≤ 0 := h.low.elim le_of_lt fun h => h.2.ge
  have hp : (0 : ℚ) < 2 ^ y.exponent := by positivity
  have hvalue : (1 : ℚ) * 2 ^ y.exponent ≤ y.value := by
    have hm : (1 : ℚ) ≤ y.mantissa := mod_cast hy.pos
    rw [value]
    gcongr
  linarith [gap_le (y := y)]

/-- With fewer digits there is no decimal that is rounded to the magnitude. -/
theorem le_of_hasDigits {n : ℕ} (hbefore : ∀ k < n, y.withDigits? y.scale (k + 1) = none) {q : ℚ} {m : ℕ}
    (hcovers : y.Covers q) (hq : HasDigits q m) : n + 1 ≤ m := by
  by_contra hlt
  cases m with
  | zero =>
    obtain ⟨k, j, hk, rfl⟩ := hq
    obtain rfl : k = 0 := by simpa using hk
    exact hy.not_covers_zero (by simpa using hcovers)
  | succ m =>
    obtain ⟨c, hc, hc', -⟩ := (hy.spans_scale m).exists_neighbour hq hcovers
    exact hy.not_covers_of_withDigits? (hbefore m (by omega)) hc hc'

/-- If a magnitude lies half-way between its neighbours, the upper one is no power of ten. -/
theorem lt_of_tie {n c d : ℕ} (hspans : y.Spans i n) (hpicks : y.Picks i d)
    (hfewest : ∀ m, HasDigits (d * 10 ^ i) m → n + 1 ≤ m) (hc : c = y.lower i ∨ c = y.lower i + 1)
    (hcovers : y.Covers (c * 10 ^ i)) (hne : c ≠ d) (heq : |d * 10 ^ i - y.value| = |c * 10 ^ i - y.value|) :
    d < 10 ^ (n + 1) := by
  have hlower := hspans.lower_lt
  by_contra hge
  have hupper : d = y.lower i + 1 := hpicks.neighbour.resolve_left (by omega)
  obtain rfl : c = y.lower i := hc.resolve_right (by omega)
  rw [hupper, abs_upper, abs_lower] at heq
  -- A power of ten has one digit, so the neighbours are nine and ten units.
  have hone : HasDigits (d * 10 ^ i) 1 := by
    obtain rfl : d = 10 ^ (n + 1) := by omega
    refine ⟨1, i + (n + 1 : ℕ), by decide, ?_⟩
    rw [zpow_add₀ (by norm_num), zpow_natCast]
    push_cast
    ring
  obtain rfl : n = 0 := by
    have := hfewest 1 hone
    omega
  obtain rfl : d = 10 := by omega
  have hnine : y.lower i = 9 := by omega
  rw [hnine] at hcovers heq
  refine hy.two_mul_value_ne hcovers hpicks.covers ?_
  push_cast at heq
  linarith

/-- What is found is the shortest decimal, with no zero at its end. -/
theorem isShortest_shortest : (shortest y).digits % 10 ≠ 0 ∧
    ∃ n, IsShortest (shortest y).value n y.mantissa y.exponent := by
  obtain ⟨n, d, hn, hshortest, hd, hbefore⟩ := hy.exists_shortest_eq
  obtain ⟨hexponent, hpicks⟩ := hy.picks_of_withDigits? hd
  have hspans := hy.spans_scale n
  have hvalue : (shortest y).value = d.digits * 10 ^ (y.scale - (n + 1 : ℕ)) := by
    rw [hshortest, Scaled.value_trimZeros, Scaled.value, hexponent]
  generalize y.scale - (n + 1 : ℕ) = i at hpicks hspans hvalue
  have hlower := hspans.lower_lt
  have hle : d.digits ≤ 10 ^ (n + 1) := by
    rcases hpicks.neighbour with h | h <;> omega
  have hdigits : HasDigits (d.digits * 10 ^ i) (n + 1) := hasDigits_of_le i (Nat.succ_pos n) hle
  have hfewest := fun q m => hy.le_of_hasDigits hbefore (q := q) (m := m)
  refine ⟨?_, n + 1, ?_⟩
  · have hpos : 0 < d.digits := (Nat.pow_pos (by decide)).trans_le
      (hspans.le_lower.trans (by rcases hpicks.neighbour with h | h <;> omega))
    rw [hshortest]
    refine Scaled.digits_trimZeros hpos (hle.trans_lt ?_)
    exact Nat.pow_lt_pow_right (by decide) (by omega)
  · rw [hvalue]
    refine ⟨hdigits, hy.roundsTo_of_covers hpicks.covers, ?_, ?_, ?_⟩
    · intro q m hq hm
      exact hfewest q m (hy.covers_of_roundsTo hq) hm
    · intro q hq hm
      obtain ⟨c, hc, hcovers, hclose, -⟩ := hspans.exists_neighbour hm (hy.covers_of_roundsTo hq)
      exact (hpicks.closest c hc hcovers).trans hclose
    · intro q hq hm hne heq
      obtain ⟨c, hc, hcovers, hclose, hsame⟩ := hspans.exists_neighbour hm (hy.covers_of_roundsTo hq)
      rw [← value] at heq
      have hc' := le_antisymm (hpicks.closest c hc hcovers) (heq ▸ hclose)
      obtain rfl := hsame (hc'.symm.trans heq)
      have hcd : c ≠ d.digits := by
        rintro rfl
        exact hne rfl
      have hlt := hy.lt_of_tie hspans hpicks (fun m => hfewest _ m hpicks.covers) hc hcovers hcd hc'
      exact ⟨_, i, hlt, hpicks.even c hc hcovers hcd hc', rfl⟩

end Magnitude.IsCanonical

end SatSearch.Decimal
