import SatSearch.Csv.Column
import SatSearch.Proofs.DecimalText
import SatSearch.Proofs.Words

/-!
# Numbers in tables

The text of a number is a decimal with a point or an exponent, a word for infinity, or a word that counts as missing
(`IsText.isNumeric`). Main statement: as a field of a table such a text is read as a number or missing, and never as
a whole number (`IsNumeric.isReal`).
-/

namespace SatSearch.Decimal

open SatSearch.Csv

/-! ### Digits -/

theorem asciiDigit?_eq (c : Char) :
    asciiDigit? c = if c.isDigit then some (c.toNat - '0'.toNat) else none := by
  have hrange : c.isDigit = true ↔ '0' ≤ c ∧ c ≤ '9' := by
    rw [Char.isDigit, Bool.and_eq_true, decide_eq_true_eq, decide_eq_true_eq]
    exact Iff.rfl
  rw [asciiDigit?]
  simp only [hrange]

theorem asciiDigits_append {ds rest : List Char} (hds : ∀ c ∈ ds, c.isDigit = true)
    (hrest : ∀ c ∈ rest.head?, c.isDigit = false) :
    asciiDigits (ds ++ rest) = (ds.map fun c => c.toNat - '0'.toNat, rest) := by
  induction ds with
  | nil =>
    cases rest with
    | nil => rfl
    | cons c rest =>
      rw [List.nil_append, asciiDigits, asciiDigit?_eq, hrest c rfl]
      rfl
  | cons d ds ih =>
    obtain ⟨hd, hds⟩ := List.forall_mem_cons.1 hds
    rw [List.cons_append, asciiDigits, asciiDigit?_eq, hd, ih hds]
    rfl

theorem IsDigits.exists_eq {ds : List Char} (hds : IsDigits ds) (rest : List Char)
    (hrest : ∀ c ∈ rest.head?, c.isDigit = false) :
    ∃ n ns, asciiDigits (ds ++ rest) = (n :: ns, rest) := by
  obtain ⟨d, ds, rfl⟩ := List.exists_cons_of_ne_nil hds.ne_nil
  exact ⟨_, _, asciiDigits_append hds.digit hrest⟩

/-! ### Decimals -/

/-- The mark of an exponent, a sign and digits. -/
inductive IsExponent : List Char → Prop
  | signed {sign : Char} {ds : List Char} (hsign : sign = '-' ∨ sign = '+') (hds : IsDigits ds) :
    IsExponent ('e' :: sign :: ds)

/-- What follows the digits at the front of a decimal: a point and digits, an exponent, or both. -/
inductive IsTail : List Char → Prop
  | exponent {exponent : List Char} (h : IsExponent exponent) : IsTail exponent
  | point {fraction exponent : List Char} (hfraction : IsDigits fraction)
    (hexponent : exponent = [] ∨ IsExponent exponent) : IsTail ('.' :: (fraction ++ exponent))

/-- A decimal that is not written as a whole number; it may have a minus sign. -/
inductive IsDecimal : List Char → Prop
  | unsigned {whole tail : List Char} (hwhole : IsDigits whole) (htail : IsTail tail) :
    IsDecimal (whole ++ tail)
  | minus {whole tail : List Char} (hwhole : IsDigits whole) (htail : IsTail tail) :
    IsDecimal ('-' :: (whole ++ tail))

/-- The words that are written for numbers without a decimal. -/
def numberWords : List (List Char) :=
  ["nan".toList, "inf".toList, "-inf".toList]

/-- What is written for a number that is no whole one. -/
inductive IsNumeric (s : List Char) : Prop
  | decimal (h : IsDecimal s)
  | word (h : s ∈ numberWords)

theorem IsDigits.splitSign_eq {ds : List Char} (h : IsDigits ds) (rest : List Char) :
    Text.splitSign (ds ++ rest) = (false, ds ++ rest) := by
  obtain ⟨d, ds, rfl⟩ := List.exists_cons_of_ne_nil h.ne_nil
  have hd := h.digit d List.mem_cons_self
  rw [List.cons_append]
  unfold Text.splitSign
  split
  · next heq => exact absurd hd (by rw [(List.cons.inj heq).1]; decide)
  · next heq => exact absurd hd (by rw [(List.cons.inj heq).1]; decide)
  · rfl

theorem IsDecimal.exists_splitSign {s : List Char} (h : IsDecimal s) :
    ∃ negative whole tail, Text.splitSign s = (negative, whole ++ tail) ∧ IsDigits whole ∧ IsTail tail := by
  obtain ⟨hwhole, htail⟩ | ⟨hwhole, htail⟩ := h
  · exact ⟨false, _, _, hwhole.splitSign_eq _, hwhole, htail⟩
  · exact ⟨true, _, _, rfl, hwhole, htail⟩

theorem head?_exponent {s : List Char} (h : s = [] ∨ IsExponent s) : ∀ c ∈ s.head?, c.isDigit = false := by
  obtain rfl | ⟨hsign, hds⟩ := h
  · simp
  · rintro c ⟨⟩
    decide

theorem asciiExponent?_isSome {s : List Char} (h : s = [] ∨ IsExponent s) :
    (asciiExponent? s).isSome = true := by
  obtain rfl | ⟨hsign, hds⟩ := h
  · rfl
  · obtain ⟨n, ns, hdigits⟩ := hds.exists_eq [] (by simp)
    rw [List.append_nil] at hdigits
    obtain rfl | rfl := hsign <;> simp [asciiExponent?, Text.splitSign, hdigits]

theorem IsTail.exists_cons {s : List Char} (h : IsTail s) : ∃ c t, s = c :: t ∧ (c = '.' ∨ c = 'e') := by
  obtain ⟨⟨hsign, hds⟩⟩ | ⟨hfraction, hexponent⟩ := h
  · exact ⟨'e', _, rfl, .inr rfl⟩
  · exact ⟨'.', _, rfl, .inl rfl⟩

theorem IsTail.head? {s : List Char} (h : IsTail s) : ∀ c ∈ s.head?, c.isDigit = false := by
  obtain ⟨c, t, rfl, hc⟩ := h.exists_cons
  rintro d ⟨⟩
  rcases hc with rfl | rfl <;> decide

/-- A decimal is read as a number. -/
theorem IsDecimal.isSome {s : List Char} (h : IsDecimal s) : (asciiDecimal? s).isSome = true := by
  obtain ⟨negative, whole, tail, hsign, hwhole, htail⟩ := h.exists_splitSign
  obtain ⟨n, ns, hdigits⟩ := hwhole.exists_eq tail htail.head?
  unfold asciiDecimal?
  rw [hsign]
  dsimp only
  rw [hdigits]
  obtain ⟨hexponent⟩ | ⟨hfraction, hexponent⟩ := htail
  · obtain ⟨hmark, hds⟩ := hexponent
    simpa using asciiExponent?_isSome (.inr (.signed hmark hds))
  · obtain ⟨m, ms, hfractions⟩ := hfraction.exists_eq _ (head?_exponent hexponent)
    simpa [hfractions] using asciiExponent?_isSome hexponent

/-! ### Layout -/

theorem LaysExponent.isExponent {e : ℤ} {s : List Char} (h : LaysExponent e s) : IsExponent ('e' :: s) := by
  cases h with
  | positive digits two lead => exact .signed (.inr rfl) digits
  | negative digits two lead => exact .signed (.inl rfl) digits

theorem Lays.exists_tail {q : ℚ} {s : List Char} (h : Lays q s) :
    ∃ whole tail, s = whole ++ tail ∧ IsDigits whole ∧ IsTail tail := by
  cases h with
  | positional hwhole hfraction first last value range =>
    exact ⟨_, _, rfl, hwhole, by simpa using IsTail.point hfraction (.inl rfl)⟩
  | @scientific first rest exponent e digits hfirst last hexponent value range =>
    have hone : IsDigits [first] := digits.of_sublist (by simp) (List.cons_ne_nil _ _)
    have hmark := hexponent.isExponent
    refine ⟨[first], _, rfl, hone, ?_⟩
    split_ifs with hrest
    · exact .exponent hmark
    · exact .point (digits.of_sublist (List.sublist_cons_self _ _) hrest) (.inr hmark)

/-! ### Characters -/

/-- Whether the character may stand in a decimal. -/
def isDecimalChar (c : Char) : Bool :=
  c.isDigit || c == '.' || c == 'e' || c == '-' || c == '+'

theorem isDecimalChar_of_isDigit {c : Char} (h : c.isDigit = true) : isDecimalChar c = true := by
  simp [isDecimalChar, h]

theorem IsDigits.decimalChar {s : List Char} (h : IsDigits s) : ∀ c ∈ s, isDecimalChar c = true :=
  fun c hc => isDecimalChar_of_isDigit (h.digit c hc)

theorem IsExponent.decimalChar {s : List Char} (h : IsExponent s) : ∀ c ∈ s, isDecimalChar c = true := by
  obtain ⟨hsign, hds⟩ := h
  refine List.forall_mem_cons.2 ⟨by decide, List.forall_mem_cons.2 ⟨?_, hds.decimalChar⟩⟩
  rcases hsign with rfl | rfl <;> decide

theorem IsTail.decimalChar {s : List Char} (h : IsTail s) : ∀ c ∈ s, isDecimalChar c = true := by
  obtain ⟨hexponent⟩ | ⟨hfraction, hexponent⟩ := h
  · exact hexponent.decimalChar
  · refine List.forall_mem_cons.2 ⟨by decide, List.forall_mem_append.2 ⟨hfraction.decimalChar, ?_⟩⟩
    rcases hexponent with rfl | hexponent
    · exact List.forall_mem_nil _
    · exact hexponent.decimalChar

theorem IsDecimal.decimalChar {s : List Char} (h : IsDecimal s) : ∀ c ∈ s, isDecimalChar c = true := by
  obtain ⟨hwhole, htail⟩ | ⟨hwhole, htail⟩ := h
  · exact List.forall_mem_append.2 ⟨hwhole.decimalChar, htail.decimalChar⟩
  · exact List.forall_mem_cons.2
      ⟨by decide, List.forall_mem_append.2 ⟨hwhole.decimalChar, htail.decimalChar⟩⟩

theorem isFieldBlank_eq_false {c : Char} (h : isDecimalChar c = true) : isFieldBlank c = false := by
  have hdigit : c.isDigit = true → isFieldBlank c = false := by
    intro hc
    rw [Char.isDigit, Bool.and_eq_true, decide_eq_true_eq, decide_eq_true_eq] at hc
    rw [isFieldBlank, Bool.or_eq_false_iff, beq_eq_false_iff_ne, Bool.and_eq_false_iff,
      decide_eq_false_iff_not, decide_eq_false_iff_not]
    refine ⟨?_, .inr ?_⟩
    · rintro rfl
      exact absurd hc (by decide)
    · intro hle
      exact absurd (hc.1.trans hle) (by decide)
  simp only [isDecimalChar, Bool.or_eq_true, beq_iff_eq] at h
  rcases h with (((h | rfl) | rfl) | rfl) | rfl
  · exact hdigit h
  all_goals decide

/-! ### Fields -/

theorem missingWords_decimalChar :
    ∀ w ∈ missingWords, w = "" ∨ w.toList.any (!isDecimalChar ·) = true := by
  decide

theorem IsDecimal.isMissing_eq_false {s : List Char} (h : IsDecimal s) : isMissing s = false := by
  rw [isMissing, Bool.eq_false_iff, ne_eq, List.contains_iff_mem]
  intro hmem
  rcases missingWords_decimalChar _ hmem with hempty | hany
  · obtain ⟨negative, whole, tail, hsign, hwhole, htail⟩ := h.exists_splitSign
    rw [← String.toList_eq_nil_iff, String.toList_ofList] at hempty
    rw [hempty] at hsign
    exact hwhole.ne_nil (List.append_eq_nil_iff.1 (Prod.mk.inj hsign).2.symm).1
  · rw [String.toList_ofList, List.any_eq_true] at hany
    obtain ⟨c, hc, hchar⟩ := hany
    rw [h.decimalChar c hc] at hchar
    exact absurd hchar (by decide)

theorem IsDecimal.trimBy_eq {s : List Char} (h : IsDecimal s) : Text.trimBy isFieldBlank s = s :=
  Text.trimBy_eq_self (fun c hc => isFieldBlank_eq_false (h.decimalChar c (List.mem_of_mem_head? hc)))
    fun c hc => isFieldBlank_eq_false (h.decimalChar c (List.mem_of_mem_getLast? hc))

theorem IsDecimal.dropWhile_eq {s : List Char} (h : IsDecimal s) : s.dropWhile isFieldBlank = s := by
  cases s with
  | nil => rfl
  | cons c s =>
    rw [List.dropWhile_cons_of_neg]
    rw [isFieldBlank_eq_false (h.decimalChar c List.mem_cons_self)]
    exact Bool.false_ne_true

/-- No decimal is a whole number. -/
theorem signedWhole_of_isDecimal {s : List Char} (h : IsDecimal s) : signedWhole s = .error .notWhole := by
  obtain ⟨negative, whole, tail, hsign, hwhole, htail⟩ := h.exists_splitSign
  obtain ⟨n, ns, hdigits⟩ := hwhole.exists_eq tail htail.head?
  obtain ⟨c, rest, rfl, hc⟩ := htail.exists_cons
  have hblank : (c :: rest).all isFieldBlank = false := by
    rw [List.all_cons, isFieldBlank_eq_false (by rcases hc with rfl | rfl <;> decide), Bool.false_and]
  rw [signedWhole, h.dropWhile_eq, hsign]
  dsimp only
  rw [boundedWhole, hdigits]
  dsimp only
  rw [hblank]
  simp

theorem fieldNumber?_isSome {s : List Char} (h : IsDecimal s) : (fieldNumber? s).isSome = true := by
  obtain ⟨x, hx⟩ := Option.isSome_iff_exists.1 h.isSome
  rw [fieldNumber?, h.trimBy_eq, hx]
  rfl

/-- What a table makes of a field: it is missing, or a number that is no whole one. -/
inductive IsReal (s : List Char) : Prop
  | missing (hmissing : isMissing s = true) (hnumber : fieldNumber? s = none)
  | number (hmissing : isMissing s = false) (hwhole : signedWhole s = .error .notWhole)
    (hnumber : (fieldNumber? s).isSome = true)

theorem IsNumeric.isReal {s : List Char} (h : IsNumeric s) : IsReal s := by
  cases h with
  | decimal h => exact .number h.isMissing_eq_false (signedWhole_of_isDecimal h) (fieldNumber?_isSome h)
  | word h =>
    simp only [numberWords, List.mem_cons, List.not_mem_nil, or_false] at h
    rcases h with rfl | rfl | rfl
    · exact .missing (by decide) rfl
    · exact .number (by decide) (by decide) rfl
    · exact .number (by decide) (by decide) rfl

theorem IsNumeric.zero_not_mem {s : List Char} (h : IsNumeric s) : Char.ofNat 0 ∉ s := by
  cases h with
  | decimal h => exact fun hmem => absurd (h.decimalChar _ hmem) (by decide)
  | word h =>
    have hwords : ∀ w ∈ numberWords, Char.ofNat 0 ∉ w := by decide
    exact hwords s h

/-! ### The text of a number -/

theorem isDecimal_signText {s : Float.Model.UnpackedFloat.Sign} {whole tail : List Char}
    (hwhole : IsDigits whole) (htail : IsTail tail) : IsDecimal (signText s ++ (whole ++ tail)) := by
  cases s with
  | positive =>
    show IsDecimal (whole ++ tail)
    exact .unsigned hwhole htail
  | negative =>
    show IsDecimal ('-' :: (whole ++ tail))
    exact .minus hwhole htail

theorem IsText.isNumeric {x : Float} {s : List Char} (h : IsText x s) : IsNumeric s := by
  obtain h | ⟨h⟩ | h | ⟨h, shortest, layout⟩ := h
  · exact .word (by decide)
  · next s => exact .word (by cases s <;> decide)
  · exact .decimal (isDecimal_signText isDigits_zero (.point isDigits_zero (.inl rfl)))
  · obtain ⟨whole, tail, rfl, hwhole, htail⟩ := layout.exists_tail
    exact .decimal (isDecimal_signText hwhole htail)

end SatSearch.Decimal
