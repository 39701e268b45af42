import Mathlib
import SatSearch.Proofs.Words
import SatSearch.Text.Integer

/-!
# Numerals

`Numeral s n` is the grammar of integers in text, said without the reader: an optional sign and digits, with
single underscores between digits allowed, at most `digitLimit` digits. The reader accepts exactly the
numerals (`integer?_eq_some_iff`). What is written for an integer is a numeral of it unless it has too many
digits (`numeral_toString`), and no numeral stands for an integer with more (`Numeral.natAbs_lt`).
-/

namespace SatSearch.Text

/-! ### Digits -/

theorem digitValue?_lt {c : Char} {d : Nat} (h : digitValue? c = some d) : d < 10 := by
  unfold digitValue? at h
  split at h
  · split at h
    · next hc =>
      have hle : c.toNat ≤ '9'.toNat := hc.2
      have hnine : '9'.toNat = '0'.toNat + 9 := rfl
      rw [Option.some.injEq] at h
      omega
    · cases h
  · obtain ⟨z, hz, rfl⟩ := Option.map_eq_some_iff.1 h
    have hrange := List.find?_some hz
    simp only [Bool.and_eq_true, decide_eq_true_eq] at hrange
    omega

theorem digitValue?_of_isDigit {c : Char} (h : c.isDigit = true) :
    digitValue? c = some (c.toNat - '0'.toNat) := by
  rw [Char.isDigit, Bool.and_eq_true, decide_eq_true_eq, decide_eq_true_eq] at h
  have hrange : '0' ≤ c ∧ c ≤ '9' := h
  have hle : c.toNat ≤ '9'.toNat := h.2
  have hnine : '9'.toNat = 0x39 := rfl
  rw [digitValue?, if_pos (by omega), if_pos hrange]

theorem foldl_digits_lt {ds : List Nat} (h : ∀ d ∈ ds, d < 10) (n : Nat) :
    ds.foldl (fun n d => 10 * n + d) n < (n + 1) * 10 ^ ds.length := by
  induction ds generalizing n with
  | nil => simp
  | cons d ds ih =>
    obtain ⟨hd, hds⟩ := List.forall_mem_cons.1 h
    rw [List.foldl_cons, List.length_cons, Nat.pow_succ']
    calc ds.foldl (fun n d => 10 * n + d) (10 * n + d)
        < (10 * n + d + 1) * 10 ^ ds.length := ih hds _
      _ ≤ ((n + 1) * 10) * 10 ^ ds.length := Nat.mul_le_mul_right _ (by omega)
      _ = (n + 1) * (10 * 10 ^ ds.length) := Nat.mul_assoc ..

theorem ofDigits_lt {ds : List Nat} (h : ∀ d ∈ ds, d < 10) : ofDigits ds < 10 ^ ds.length := by
  simpa [ofDigits] using foldl_digits_lt h 0

/-! ### The grammar -/

/-- A text of digits with these values, with single underscores between digits allowed. -/
inductive Digits : List Char → List Nat → Prop
  | single {c : Char} {d : Nat} (first : digitValue? c = some d) : Digits [c] [d]
  | cons {c : Char} {d : Nat} {s : List Char} {ds : List Nat} (first : digitValue? c = some d)
      (rest : Digits s ds) : Digits (c :: s) (d :: ds)
  | underscore {c : Char} {d : Nat} {s : List Char} {ds : List Nat} (first : digitValue? c = some d)
      (rest : Digits s ds) : Digits (c :: '_' :: s) (d :: ds)

/-- A text that spells an integer. -/
inductive Numeral : List Char → Int → Prop
  | unsigned {s : List Char} {ds : List Nat} (digits : Digits s ds) (short : ds.length ≤ digitLimit) :
      Numeral s (ofDigits ds)
  | plus {s : List Char} {ds : List Nat} (digits : Digits s ds) (short : ds.length ≤ digitLimit) :
      Numeral ('+' :: s) (ofDigits ds)
  | minus {s : List Char} {ds : List Nat} (digits : Digits s ds) (short : ds.length ≤ digitLimit) :
      Numeral ('-' :: s) (-(ofDigits ds : Int))

theorem Digits.exists_cons {s : List Char} {ds : List Nat} (h : Digits s ds) :
    ∃ c t d, s = c :: t ∧ digitValue? c = some d := by
  cases h with
  | single first => exact ⟨_, _, _, rfl, first⟩
  | cons first rest => exact ⟨_, _, _, rfl, first⟩
  | underscore first rest => exact ⟨_, _, _, rfl, first⟩

theorem Digits.lt {s : List Char} {ds : List Nat} (h : Digits s ds) : ∀ d ∈ ds, d < 10 := by
  induction h with
  | single first => exact List.forall_mem_singleton.2 (digitValue?_lt first)
  | cons first rest ih => exact List.forall_mem_cons.2 ⟨digitValue?_lt first, ih⟩
  | underscore first rest ih => exact List.forall_mem_cons.2 ⟨digitValue?_lt first, ih⟩

theorem digits?_eq_some_iff {s : List Char} {ds : List Nat} : digits? s = some ds ↔ Digits s ds := by
  constructor
  · intro h
    fun_induction digits? s generalizing ds with
    | case1 => cases h
    | case2 c =>
      obtain ⟨d, hd, rfl⟩ := Option.map_eq_some_iff.1 h
      exact .single hd
    | case3 c rest ih =>
      obtain ⟨d, hd, h⟩ := Option.bind_eq_some_iff.1 h
      obtain ⟨ds, hds, ⟨⟩⟩ := Option.bind_eq_some_iff.1 h
      exact .underscore hd (ih hds)
    | case4 c rest _ _ ih =>
      obtain ⟨d, hd, h⟩ := Option.bind_eq_some_iff.1 h
      obtain ⟨ds, hds, ⟨⟩⟩ := Option.bind_eq_some_iff.1 h
      exact .cons hd (ih hds)
  · intro h
    induction h with
    | single first => simp [digits?, first]
    | cons first rest ih =>
      -- A digit follows, so this is no underscore.
      obtain ⟨c, t, d, rfl, hd⟩ := rest.exists_cons
      have hc : c ≠ '_' := by
        rintro rfl
        cases hd
      simp [digits?, hc, first, ih]
    | underscore first rest ih => simp [digits?, first, ih]

theorem natural?_eq_some_iff {s : List Char} {n : Nat} :
    natural? s = some n ↔ ∃ ds, Digits s ds ∧ ds.length ≤ digitLimit ∧ ofDigits ds = n := by
  simp only [natural?, bind, Option.bind_eq_some_iff, digits?_eq_some_iff, ite_eq_iff, reduceCtorEq,
    and_false, or_false, Option.some.injEq]

theorem splitSign_of_digits {s : List Char} {ds : List Nat} (h : Digits s ds) :
    splitSign s = (false, s) := by
  obtain ⟨c, t, d, rfl, hd⟩ := h.exists_cons
  unfold splitSign
  split
  · next e =>
    injection e with e
    subst e
    cases hd
  · next e =>
    injection e with e
    subst e
    cases hd
  · rfl

theorem integer?_eq_map (s : List Char) :
    integer? s =
      (natural? (splitSign s).2).map fun n : Nat => if (splitSign s).1 then -(n : Int) else n := by
  unfold integer?
  dsimp only
  cases natural? (splitSign s).2 <;> rfl

theorem integer?_eq_some_iff {s : List Char} {n : Int} : integer? s = some n ↔ Numeral s n := by
  rw [integer?_eq_map, Option.map_eq_some_iff]
  constructor
  · rintro ⟨m, hm, rfl⟩
    obtain ⟨ds, hds, hshort, rfl⟩ := natural?_eq_some_iff.1 hm
    unfold splitSign at hds ⊢
    split at hds
    · exact .minus hds hshort
    · exact .plus hds hshort
    · exact .unsigned hds hshort
  · intro h
    cases h with
    | unsigned digits short =>
      rw [splitSign_of_digits digits]
      exact ⟨_, natural?_eq_some_iff.2 ⟨_, digits, short, rfl⟩, rfl⟩
    | plus digits short => exact ⟨_, natural?_eq_some_iff.2 ⟨_, digits, short, rfl⟩, rfl⟩
    | minus digits short => exact ⟨_, natural?_eq_some_iff.2 ⟨_, digits, short, rfl⟩, rfl⟩

/-! ### How long a numeral is -/

theorem Digits.ofDigits_lt {s : List Char} {ds : List Nat} (h : Digits s ds)
    (short : ds.length ≤ digitLimit) : ofDigits ds < 10 ^ digitLimit :=
  (Text.ofDigits_lt h.lt).trans_le (Nat.pow_le_pow_right (by decide) short)

theorem Numeral.natAbs_lt {s : List Char} {n : Int} (h : Numeral s n) : n.natAbs < 10 ^ digitLimit := by
  cases h with
  | unsigned digits short => exact digits.ofDigits_lt short
  | plus digits short => exact digits.ofDigits_lt short
  | minus digits short =>
    rw [Int.natAbs_neg]
    exact digits.ofDigits_lt short

theorem digits_of_isDigit {s : List Char} (hne : s ≠ []) (h : ∀ c ∈ s, c.isDigit = true) :
    Digits s (s.map fun c => c.toNat - '0'.toNat) := by
  induction s with
  | nil => exact absurd rfl hne
  | cons c s ih =>
    obtain ⟨hc, hs⟩ := List.forall_mem_cons.1 h
    cases s with
    | nil => exact .single (digitValue?_of_isDigit hc)
    | cons c' s => exact .cons (digitValue?_of_isDigit hc) (ih (List.cons_ne_nil c' s) hs)

/-- The decimal digits of a number, and nothing else, are written for it. -/
theorem exists_digits_toString {n : Nat} (h : n < 10 ^ digitLimit) :
    ∃ ds, Digits (toString n).toList ds ∧ ds.length ≤ digitLimit ∧ ofDigits ds = n := by
  rw [Nat.toString_eq_repr, Nat.toList_repr]
  refine ⟨_, digits_of_isDigit Nat.toDigits_ne_nil ?_, ?_, ?_⟩
  · intro c hc
    exact Nat.isDigit_of_mem_toDigits (by decide) (by decide) hc
  · rw [List.length_map, Nat.length_toDigits_le_iff (by decide) (by decide)]
    exact h
  · rw [ofDigits, List.foldl_map, ← Nat.ofDigitChars_eq_foldl, Nat.ofDigitChars_ten_toDigits]

theorem numeral_toString {n : Int} (h : n.natAbs < 10 ^ digitLimit) :
    Numeral (toString n).toList n := by
  obtain ⟨ds, hds, hshort, hvalue⟩ := exists_digits_toString h
  cases n with
  | ofNat m =>
    obtain rfl : ofDigits ds = m := hvalue
    exact .unsigned hds hshort
  | negSucc m =>
    have htext : toString (Int.negSucc m) = "-" ++ toString (m + 1) := rfl
    have hneg : Int.negSucc m = -(ofDigits ds : Int) := by
      rw [hvalue]
      rfl
    rw [htext, String.toList_append, hneg]
    exact .minus hds hshort

theorem hasLongText_eq_false_iff {n : Int} : hasLongText n = false ↔ n.natAbs < 10 ^ digitLimit := by
  rw [hasLongText, decide_eq_false_iff_not, Nat.not_le, Nat.pow_eq]

theorem numeral_toString_natCast {n : Nat} (h : n < 10 ^ digitLimit) :
    Numeral (toString n).toList n :=
  numeral_toString (n := (n : Int)) h

/-! ### What a numeral looks like -/

theorem digitZeros_unblank :
    ∀ z ∈ digitZeros, ∀ r ∈ blankRanges, r.2 < z ∨ z + 10 ≤ r.1 := by
  decide

theorem isBlank_of_digitValue? {c : Char} {d : Nat} (h : digitValue? c = some d) :
    isBlank c = false := by
  rw [isBlank, List.any_eq_false]
  intro r hr
  rw [Bool.and_eq_true, decide_eq_true_eq, decide_eq_true_eq]
  rintro ⟨hlow, hhigh⟩
  unfold digitValue? at h
  split at h
  · split at h
    · next hc =>
      -- The ASCII digits are the first run.
      have hle : c.toNat ≤ '9'.toNat := hc.2
      have hge : '0'.toNat ≤ c.toNat := hc.1
      have hzero : '0'.toNat = 0x30 := rfl
      have hnine : '9'.toNat = 0x39 := rfl
      have := digitZeros_unblank 0x30 List.mem_cons_self r hr
      omega
    · cases h
  · obtain ⟨z, hz, -⟩ := Option.map_eq_some_iff.1 h
    have hrange := List.find?_some hz
    simp only [Bool.and_eq_true, decide_eq_true_eq] at hrange
    have := digitZeros_unblank z (List.mem_of_find?_eq_some hz) r hr
    omega

theorem Digits.isWord {s : List Char} {ds : List Nat} (h : Digits s ds) : IsWord s := by
  induction h with
  | single first => exact ⟨by simp, List.forall_mem_singleton.2 (isBlank_of_digitValue? first)⟩
  | cons first rest ih => exact ih.cons (isBlank_of_digitValue? first)
  | underscore first rest ih => exact (ih.cons (by decide)).cons (isBlank_of_digitValue? first)

theorem Numeral.isWord {s : List Char} {n : Int} (h : Numeral s n) : IsWord s := by
  cases h with
  | unsigned digits short => exact digits.isWord
  | plus digits short => exact digits.isWord.cons (by decide)
  | minus digits short => exact digits.isWord.cons (by decide)

/-- No numeral looks like a comment. -/
theorem Numeral.head?_ne {s : List Char} {n : Int} (h : Numeral s n) : s.head? ≠ some 'c' := by
  cases h with
  | unsigned digits short =>
    obtain ⟨c, t, d, rfl, hd⟩ := digits.exists_cons
    rintro ⟨⟩
    cases hd
  | plus digits short => simp
  | minus digits short => simp

end SatSearch.Text
