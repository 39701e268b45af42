import SatSearch.Proofs.Shortest

/-!
# The text of a number

A number is written as the shortest decimal that is rounded to it. A decimal from `10 ^ -4` up to `10 ^ 16` is laid
out with a point, with a digit on both sides of it and no more zeros than that takes; any other one has a digit in
front of the point and an exponent of at least two digits (`Lays`). Main statement: this is the text of every number
(`isText_text`).
-/

namespace SatSearch.Decimal

open Float.Model.UnpackedFloat

/-! ### Digits -/

/-- One ASCII digit or more. -/
structure IsDigits (s : List Char) : Prop where
  ne_nil : s ≠ []
  digit : ∀ c ∈ s, c.isDigit = true

/-- The number that digits spell. -/
def number (s : List Char) : ℕ :=
  Nat.ofDigitChars 10 s 0

theorem isDigits_toString (n : ℕ) : IsDigits (toString n).toList := by
  rw [Nat.toString_eq_repr, Nat.toList_repr]
  exact ⟨Nat.toDigits_ne_nil, fun c hc => Nat.isDigit_of_mem_toDigits (by decide) (by decide) hc⟩

theorem IsDigits.append {s t : List Char} (hs : IsDigits s) (ht : ∀ c ∈ t, c.isDigit = true) :
    IsDigits (s ++ t) :=
  ⟨List.append_ne_nil_of_left_ne_nil hs.ne_nil t, List.forall_mem_append.2 ⟨hs.digit, ht⟩⟩

/-- A part of some digits, if it is not empty. -/
theorem IsDigits.of_sublist {s t : List Char} (h : IsDigits s) (ht : t.Sublist s) (hne : t ≠ []) :
    IsDigits t :=
  ⟨hne, fun c hc => h.digit c (ht.subset hc)⟩

theorem isDigits_zero : IsDigits ['0'] :=
  ⟨List.cons_ne_nil _ _, List.forall_mem_singleton.2 (by decide)⟩

theorem isDigit_zeros (n : ℕ) : ∀ c ∈ List.replicate n '0', c.isDigit = true := by
  intro c hc
  rw [List.eq_of_mem_replicate hc]
  decide

theorem number_append (s t : List Char) : number (s ++ t) = 10 ^ t.length * number s + number t := by
  rw [number, Nat.ofDigitChars_append, Nat.ofDigitChars_eq_ofDigitChars_zero]
  rfl

theorem number_zeros (n : ℕ) : number (List.replicate n '0') = 0 := by
  rw [number, Nat.ofDigitChars_replicate_zero, Nat.mul_zero]

theorem number_toString (n : ℕ) : number (toString n).toList = n := by
  rw [number, Nat.toString_eq_repr, Nat.toList_repr, Nat.ofDigitChars_ten_toDigits]

theorem lt_pow_length (n : ℕ) : n < 10 ^ (toString n).toList.length := by
  rw [Nat.toString_eq_repr, Nat.toList_repr, ← Nat.length_toDigits_le_iff (by decide)]
  exact List.length_pos_iff.2 Nat.toDigits_ne_nil

theorem pow_length_le {n : ℕ} (hn : 0 < n) : 10 ^ ((toString n).toList.length - 1) ≤ n := by
  rw [Nat.toString_eq_repr, Nat.toList_repr]
  cases hlength : (Nat.toDigits 10 n).length - 1 with
  | zero => exact hn
  | succ k =>
    by_contra hlt
    have hle := (Nat.length_toDigits_le_iff (by decide) (Nat.succ_pos k)).2 (Nat.lt_of_not_le hlt)
    omega

theorem number_lt {s : List Char} (h : ∀ c ∈ s, c.isDigit = true) : number s < 10 ^ s.length := by
  induction s using List.reverseRecOn with
  | nil => exact Nat.one_pos
  | append_singleton s c ih =>
    obtain ⟨hs, hc⟩ := List.forall_mem_append.1 h
    have hc' : number [c] < 10 := by
      have hdigit := hc c (List.mem_singleton_self c)
      rw [Char.isDigit, Bool.and_eq_true, decide_eq_true_eq, decide_eq_true_eq] at hdigit
      have hle : c.toNat ≤ 57 := hdigit.2
      show 10 * 0 + (c.toNat - 48) < 10
      omega
    rw [number_append, List.length_append, List.length_singleton, pow_one, pow_succ]
    have := ih hs
    omega

/-- No zero stands in front of the digits that are written for a number. -/
theorem head?_toString {n : ℕ} (hn : 0 < n) : (toString n).toList.head? ≠ some '0' := by
  intro hhead
  obtain ⟨t, ht⟩ := List.head?_eq_some_iff.1 hhead
  have hdigits := (isDigits_toString n).digit
  have hle := pow_length_le hn
  have hnumber := number_toString n
  rw [ht] at hdigits hle hnumber
  have hlt := number_lt (List.forall_mem_cons.1 hdigits).2
  rw [← List.singleton_append, number_append, show number ['0'] = 0 from rfl, Nat.mul_zero, Nat.zero_add] at hnumber
  rw [List.length_cons, Nat.add_sub_cancel, ← hnumber] at hle
  omega

theorem getLast?_toString {n : ℕ} (hn : n % 10 ≠ 0) : (toString n).toList.getLast? ≠ some '0' := by
  intro hlast
  obtain ⟨t, ht⟩ := List.getLast?_eq_some_iff.1 hlast
  have hnumber := number_toString n
  rw [ht, number_append, show number ['0'] = 0 from rfl, List.length_singleton] at hnumber
  omega

/-! ### Layout -/

/-- The part of an exponent behind the mark: a sign and at least two digits, with a zero in front only if it would
be one digit otherwise. -/
inductive LaysExponent : ℤ → List Char → Prop
  | positive {ds : List Char} (digits : IsDigits ds) (two : 2 ≤ ds.length)
      (lead : 2 < ds.length → ds.head? ≠ some '0') : LaysExponent (number ds) ('+' :: ds)
  | negative {ds : List Char} (digits : IsDigits ds) (two : 2 ≤ ds.length)
      (lead : 2 < ds.length → ds.head? ≠ some '0') : LaysExponent (-number ds) ('-' :: ds)

/-- The text of a positive decimal. -/
inductive Lays (q : ℚ) : List Char → Prop
  | positional {whole fraction : List Char} (hwhole : IsDigits whole) (hfraction : IsDigits fraction)
      (first : whole.head? = some '0' → whole = ['0'])
      (last : fraction.getLast? = some '0' → fraction = ['0'])
      (value : q = number (whole ++ fraction) / 10 ^ fraction.length)
      (range : 1 / 10 ^ 4 ≤ q ∧ q < 10 ^ 16) : Lays q (whole ++ '.' :: fraction)
  | scientific {first : Char} {rest exponent : List Char} {e : ℤ} (digits : IsDigits (first :: rest))
      (hfirst : first ≠ '0') (last : rest.getLast? ≠ some '0') (hexponent : LaysExponent e exponent)
      (value : q = number (first :: rest) * 10 ^ (e - rest.length))
      (range : q < 1 / 10 ^ 4 ∨ 10 ^ 16 ≤ q) :
      Lays q (first :: ((if rest = [] then [] else '.' :: rest) ++ 'e' :: exponent))

theorem laysExponent_exponentText {e : ℤ} (he : e ≠ 0) : LaysExponent e (exponentText e).toList := by
  obtain ⟨ds, hds, hdigits, htwo, hlead, hnumber⟩ : ∃ ds, ds =
      (if (toString e.natAbs).length < 2 then "0" ++ toString e.natAbs else toString e.natAbs).toList ∧
        IsDigits ds ∧ 2 ≤ ds.length ∧ (2 < ds.length → ds.head? ≠ some '0') ∧ number ds = e.natAbs := by
    rw [← String.length_toList]
    have hpos := List.length_pos_iff.2 (isDigits_toString e.natAbs).ne_nil
    refine ⟨_, rfl, ?_⟩
    split_ifs with hshort
    · rw [String.toList_append, show "0".toList = ['0'] from rfl, List.singleton_append, List.length_cons]
      refine ⟨isDigits_zero.append (isDigits_toString _).digit, by omega, fun hlong => by omega, ?_⟩
      rw [← List.singleton_append, number_append, number_toString, show number ['0'] = 0 from rfl, Nat.mul_zero,
        Nat.zero_add]
    · exact ⟨isDigits_toString _, by omega, fun _ => head?_toString (by omega), number_toString _⟩
  rw [exponentText, String.toList_append, ← hds]
  split_ifs with hneg
  · have hvalue : e = -number ds := by omega
    rw [hvalue]
    exact .negative hdigits htwo hlead
  · have hvalue : e = number ds := by omega
    rw [hvalue]
    exact .positive hdigits htwo hlead

theorem toList_zeros (n : ℕ) : (zeros n).toList = List.replicate n '0' := by
  rw [zeros, String.toList_ofList]

section Range

variable {q : ℚ} {e : ℤ}

theorem out_of_range (hge : 10 ^ e ≤ q) (hlt : q < 10 ^ (e + 1)) (he : e < -4 ∨ 16 ≤ e) :
    q < 1 / 10 ^ 4 ∨ 10 ^ 16 ≤ q := by
  refine he.imp (fun he => hlt.trans_le ?_) fun he => le_trans ?_ hge
  · calc (10 : ℚ) ^ (e + 1) ≤ 10 ^ (-4 : ℤ) := zpow_le_zpow_right₀ (by norm_num) (by omega)
      _ = 1 / 10 ^ 4 := by norm_num
  · calc (10 : ℚ) ^ 16 = 10 ^ (16 : ℤ) := by norm_num
      _ ≤ 10 ^ e := zpow_le_zpow_right₀ (by norm_num) he

theorem in_range (hge : 10 ^ e ≤ q) (hlt : q < 10 ^ (e + 1)) (he : ¬(e < -4 ∨ 16 ≤ e)) :
    1 / 10 ^ 4 ≤ q ∧ q < 10 ^ 16 := by
  refine ⟨le_trans ?_ hge, hlt.trans_le ?_⟩
  · calc (1 : ℚ) / 10 ^ 4 = 10 ^ (-4 : ℤ) := by norm_num
      _ ≤ 10 ^ e := zpow_le_zpow_right₀ (by norm_num) (by omega)
  · calc (10 : ℚ) ^ (e + 1) ≤ 10 ^ (16 : ℤ) := zpow_le_zpow_right₀ (by norm_num) (by omega)
      _ = 10 ^ 16 := by norm_num

end Range

/-! Digits that neither start nor end with a zero, and the ways to lay them out. -/

section Spelled

variable {ds : List Char} {i : ℤ} {q : ℚ} {k : ℕ} (hdigits : IsDigits ds) (hfirst : ds.head? ≠ some '0')
  (hlast : ds.getLast? ≠ some '0') (hq : q = number ds * 10 ^ i)

include hq

theorem Lays.of_spelled {whole fraction : List Char} (hwhole : IsDigits whole) (hfraction : IsDigits fraction)
    (hlead : whole.head? = some '0' → whole = ['0']) (htail : fraction.getLast? = some '0' → fraction = ['0'])
    (hspelled : (number (whole ++ fraction) : ℚ) = number ds * 10 ^ (i + fraction.length))
    (hrange : 1 / 10 ^ 4 ≤ q ∧ q < 10 ^ 16) : Lays q (whole ++ '.' :: fraction) := by
  refine .positional hwhole hfraction hlead htail ?_ hrange
  rw [hspelled, zpow_add₀ (by norm_num), zpow_natCast, ← mul_assoc, mul_div_cancel_right₀ _ (by positivity), hq]

include hdigits hlast

/-- Zeros between the point and the digits. -/
theorem Lays.of_zeros_in_front (hk : i + (k + ds.length : ℕ) = 0) (hrange : 1 / 10 ^ 4 ≤ q ∧ q < 10 ^ 16) :
    Lays q ('0' :: '.' :: (List.replicate k '0' ++ ds)) := by
  have hfraction : IsDigits (List.replicate k '0' ++ ds) :=
    ⟨List.append_ne_nil_of_right_ne_nil _ hdigits.ne_nil, List.forall_mem_append.2 ⟨isDigit_zeros k, hdigits.digit⟩⟩
  refine Lays.of_spelled hq isDigits_zero hfraction (fun _ => rfl) (fun hend => ?_) ?_ hrange
  · rw [List.getLast?_append_of_ne_nil _ hdigits.ne_nil] at hend
    exact absurd hend hlast
  · rw [List.length_append, List.length_replicate, hk, zpow_zero, mul_one, number_append, number_append,
      number_zeros, show number ['0'] = 0 from rfl, Nat.mul_zero, Nat.mul_zero, Nat.zero_add, Nat.zero_add]

include hfirst

/-- The point between the digits. -/
theorem Lays.of_point_inside (hpos : 0 < k) (hlt : k < ds.length) (hk : i + (ds.length - k : ℕ) = 0)
    (hrange : 1 / 10 ^ 4 ≤ q ∧ q < 10 ^ 16) : Lays q (ds.take k ++ '.' :: ds.drop k) := by
  have hwhole : ds.take k ≠ [] := by
    rw [ne_eq, List.take_eq_nil_iff]
    exact not_or_intro hpos.ne' hdigits.ne_nil
  have hfraction : ds.drop k ≠ [] := by
    rw [ne_eq, List.drop_eq_nil_iff]
    omega
  refine Lays.of_spelled hq (hdigits.of_sublist (List.take_sublist k ds) hwhole)
    (hdigits.of_sublist (List.drop_sublist k ds) hfraction) (fun hhead => ?_) (fun hend => ?_) ?_ hrange
  · rw [List.head?_take, if_neg hpos.ne'] at hhead
    exact absurd hhead hfirst
  · rw [List.getLast?_drop, if_neg (Nat.not_le_of_lt hlt)] at hend
    exact absurd hend hlast
  · rw [List.take_append_drop, List.length_drop, hk, zpow_zero, mul_one]

omit hlast in
/-- Zeros between the digits and the point. -/
theorem Lays.of_zeros_behind (hk : i = k) (hrange : 1 / 10 ^ 4 ≤ q ∧ q < 10 ^ 16) :
    Lays q (ds ++ List.replicate k '0' ++ ['.', '0']) := by
  refine Lays.of_spelled hq (hdigits.append (isDigit_zeros k)) isDigits_zero (fun hhead => ?_) (fun _ => rfl) ?_ hrange
  · rw [List.head?_append_of_ne_nil _ hdigits.ne_nil] at hhead
    exact absurd hhead hfirst
  · rw [hk, number_append, number_append, number_zeros, show number ['0'] = 0 from rfl, List.length_replicate,
      List.length_singleton, zpow_add₀ (by norm_num), zpow_natCast]
    push_cast
    ring

/-- One digit in front of the point, and an exponent. -/
theorem Lays.of_exponent {n : ℕ} (hn : ds.length = n + 1) (hne : i + n ≠ 0)
    (hrange : q < 1 / 10 ^ 4 ∨ 10 ^ 16 ≤ q) :
    Lays q (ds.take 1 ++ ((if n = 0 then [] else '.' :: ds.drop 1) ++ 'e' :: (exponentText (i + n)).toList)) := by
  obtain ⟨first, rest, rfl⟩ := List.exists_cons_of_ne_nil hdigits.ne_nil
  have hrest : rest.length = n := by simpa using hn
  have hnil : n = 0 ↔ rest = [] := by rw [← hrest, List.length_eq_zero_iff]
  simp only [hnil]
  refine .scientific hdigits (fun h => hfirst (by rw [h]; rfl)) ?_ (laysExponent_exponentText hne) ?_ hrange
  · rcases List.eq_nil_or_concat' rest with rfl | ⟨front, c, rfl⟩
    · simp
    · rwa [← List.cons_append, List.getLast?_concat, ← List.getLast?_concat] at hlast
  · rw [hq, hrest, add_sub_cancel_right]

end Spelled

/-- The number of digits tells between which powers of ten a decimal lies. -/
theorem value_bounds {d : Scaled} {n : ℕ} (hlow : 10 ^ n ≤ d.digits) (hhigh : d.digits < 10 ^ (n + 1)) :
    10 ^ (d.exponent + n) ≤ d.value ∧ d.value < 10 ^ (d.exponent + n + 1) := by
  have hlow' : (10 : ℚ) ^ n ≤ d.digits := mod_cast hlow
  have hhigh' : (d.digits : ℚ) < 10 ^ (n + 1) := mod_cast hhigh
  have hsplit (k : ℕ) : (10 : ℚ) ^ (d.exponent + k) = 10 ^ k * 10 ^ d.exponent := by
    rw [add_comm, zpow_add₀ (by norm_num), zpow_natCast]
  rw [add_assoc, ← Nat.cast_succ, hsplit, hsplit, Scaled.value]
  exact ⟨by gcongr, by gcongr⟩

/-- A decimal without a zero at its end is laid out as it should be. -/
theorem lays_text {d : Scaled} (hd : d.digits % 10 ≠ 0) : Lays d.value d.text.toList := by
  have hpos : 0 < d.digits := Nat.pos_of_ne_zero fun h => hd (by rw [h])
  have hdigits := isDigits_toString d.digits
  have hfirst := head?_toString hpos
  have hlast := getLast?_toString hd
  have hlow := pow_length_le hpos
  have hhigh := lt_pow_length d.digits
  have hvalue : d.value = number (toString d.digits).toList * 10 ^ d.exponent := by
    rw [number_toString, Scaled.value]
  rw [Scaled.text]
  generalize (toString d.digits).toList = ds at hdigits hfirst hlast hlow hhigh hvalue
  obtain ⟨n, hn⟩ : ∃ n, ds.length = n + 1 := Nat.exists_eq_add_one.2 (List.length_pos_iff.2 hdigits.ne_nil)
  rw [hn, Nat.add_sub_cancel] at hlow
  rw [hn] at hhigh ⊢
  generalize he : d.exponent + ((n + 1 : ℕ) : ℤ) - 1 = e
  obtain rfl : e = d.exponent + n := by omega
  obtain ⟨hge, hlt⟩ := value_bounds hlow hhigh
  extract_lets rest whole
  split_ifs with hscaled hone hsmall hshort
  · have hlays := Lays.of_exponent hdigits hfirst hlast hvalue hn (by omega) (out_of_range hge hlt hscaled)
    obtain rfl : n = 0 := by omega
    simpa using hlays
  · have hlays := Lays.of_exponent hdigits hfirst hlast hvalue hn (by omega) (out_of_range hge hlt hscaled)
    have hne : n ≠ 0 := by omega
    simpa [rest, hne] using hlays
  · have hlays := Lays.of_zeros_in_front (k := (-(d.exponent + n) - 1).toNat) hdigits hlast hvalue (by omega)
      (in_range hge hlt hscaled)
    simpa [toList_zeros] using hlays
  · have hlays := Lays.of_zeros_behind (k := whole - (n + 1)) hdigits hfirst hvalue (by omega)
      (in_range hge hlt hscaled)
    simpa [toList_zeros] using hlays
  · have hlays := Lays.of_point_inside (k := whole) hdigits hfirst hlast hvalue (by omega) (by omega) (by omega)
      (in_range hge hlt hscaled)
    simpa using hlays

/-! ### Numbers -/

/-- What stands in front of the digits for a sign. -/
def signText : Sign → List Char
  | .positive => []
  | .negative => ['-']

/-- The text of a number: a word if it is infinite or no number, and else the shortest decimal that is rounded to
it. -/
inductive IsText (x : Float) : List Char → Prop
  | notANumber (h : x.toModel.unpack = .notANumber) : IsText x "nan".toList
  | infinity {s : Sign} (h : x.toModel.unpack = .infinity s) : IsText x (signText s ++ "inf".toList)
  | zero {s : Sign} (h : x.toModel.unpack = .zero s) : IsText x (signText s ++ "0.0".toList)
  | finite {s : Sign} {m n : ℕ} {e : ℤ} {hm : 0 < m} {q : ℚ} {t : List Char}
      (h : x.toModel.unpack = .finite s m e hm) (shortest : IsShortest q n m e) (layout : Lays q t) :
      IsText x (signText s ++ t)

theorem toList_sign (s : Sign) : (if (s == .negative) = true then "-" else "").toList = signText s := by
  cases s <;> rfl

theorem isText_text (x : Float) : IsText x (text x).toList := by
  rw [text]
  cases h : x.toModel.unpack with
  | notANumber =>
    rw [Kind.ofFloat_of_notANumber h]
    exact .notANumber h
  | infinity s =>
    have htext : (if (s == .negative) = true then "-inf" else "inf").toList = signText s ++ "inf".toList := by
      cases s <;> rfl
    rw [Kind.ofFloat_of_infinity h]
    dsimp only
    rw [htext]
    exact .infinity h
  | zero s =>
    obtain ⟨y, hkind, hy⟩ := Kind.ofFloat_of_zero h
    rw [hkind]
    dsimp only
    rw [if_pos hy, String.toList_append, toList_sign]
    exact .zero h
  | finite s m e hm =>
    obtain ⟨y, hkind, rfl, rfl, hy⟩ := Kind.exists_isCanonical h
    obtain ⟨hdigits, n, hshortest⟩ := hy.isShortest_shortest
    rw [hkind]
    dsimp only
    rw [if_neg hm.ne', String.toList_append, toList_sign]
    exact .finite h hshortest (lays_text hdigits)

end SatSearch.Decimal
