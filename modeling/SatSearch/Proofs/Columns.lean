import SatSearch.Proofs.Decimals
import SatSearch.Proofs.Lists

/-!
# Columns of numbers and columns of words

Where no field is a whole number, a column is read field by field: as numbers if all its fields are numbers
(`values_of_isReal`), and as words if none is a number or a truth value (`values_of_isOther`).
-/

namespace SatSearch.Csv

open SatSearch.Decimal

variable {fields : List (List Char)}

/-! ### Fields that are there -/

section Present

variable {ε α : Type} {read : List Char → Except ε α}

theorem readPresent_eq_ok {g : List Char → Option α}
    (hmissing : ∀ s ∈ fields, isMissing s = true → g s = none)
    (h : ∀ s ∈ fields, isMissing s = false → (read s).map some = .ok (g s)) :
    readPresent read fields = .ok (fields.map g) := by
  rw [readPresent, mapM_eq_ok_iff, List.forall₂_map_right_iff, List.forall₂_same]
  intro s hs
  cases hs' : isMissing s with
  | true => rw [if_pos rfl, hmissing s hs hs']
  | false => rw [if_neg Bool.false_ne_true, h s hs hs']

theorem readPresent_eq_error {e : ε} (h : ∀ s ∈ fields, isMissing s = false → read s = .error e)
    (hpresent : ∃ s ∈ fields, isMissing s = false) : readPresent read fields = .error e := by
  cases hread : readPresent read fields with
  | ok values =>
    obtain ⟨s, hs, hmissing⟩ := hpresent
    obtain ⟨v, -, hv⟩ := exists_mem_of_forall₂ (mapM_eq_ok_iff.1 hread).flip s hs
    rw [hmissing, if_neg Bool.false_ne_true, h s hs hmissing] at hv
    cases hv
  | error e' =>
    obtain ⟨s, hs, herror⟩ := exists_mem_of_mapM_eq_error hread
    cases hmissing : isMissing s with
    | true =>
      rw [hmissing, if_pos rfl] at herror
      cases herror
    | false =>
      rw [hmissing, if_neg Bool.false_ne_true, h s hs hmissing] at herror
      cases herror
      rfl

end Present

/-! ### Columns without whole numbers -/

theorem wholeColumn_of_missing (h : ∀ s ∈ fields, isMissing s = true) :
    wholeColumn fields = some (fields.map fun _ => none) := by
  have hread : readPresent signedWhole fields = .ok (fields.map fun _ => none) :=
    readPresent_eq_ok (fun _ _ _ => rfl) fun s hs hmissing => by rw [h s hs] at hmissing; cases hmissing
  rw [wholeColumn, hread]
  dsimp only
  split_ifs <;> simp

theorem wholeColumn_of_present (h : ∀ s ∈ fields, isMissing s = false → signedWhole s = .error .notWhole)
    (hpresent : ∃ s ∈ fields, isMissing s = false) : wholeColumn fields = none := by
  rw [wholeColumn, readPresent_eq_error h hpresent]

theorem columnOfKind_eq_some {read : List Char → Option Value}
    (hmissing : ∀ s ∈ fields, isMissing s = true → read s = none)
    (h : ∀ s ∈ fields, isMissing s = false → (read s).isSome = true) :
    columnOfKind read fields = some (fields.map read) := by
  rw [columnOfKind, readPresent_eq_ok hmissing, Except.toOption]
  intro s hs hs'
  obtain ⟨v, hv⟩ := Option.isSome_iff_exists.1 (h s hs hs')
  rw [hv]
  rfl

theorem columnOfKind_eq_none {read : List Char → Option Value}
    (h : ∀ s ∈ fields, isMissing s = false → read s = none) (hpresent : ∃ s ∈ fields, isMissing s = false) :
    columnOfKind read fields = none := by
  rw [columnOfKind, readPresent_eq_error (e := ()) _ hpresent, Except.toOption]
  intro s hs hs'
  rw [h s hs hs']
  rfl

theorem all_missing_or_present (fields : List (List Char)) :
    (∀ s ∈ fields, isMissing s = true) ∨ ∃ s ∈ fields, isMissing s = false := by
  by_contra h
  rw [not_or, not_forall] at h
  obtain ⟨⟨s, hs⟩, hpresent⟩ := h
  rw [Classical.not_imp, Bool.not_eq_true] at hs
  exact hpresent ⟨s, hs⟩

/-- A column of numbers, none of them whole, is read field by field. -/
theorem values_of_isReal (h : ∀ s ∈ fields, IsReal s) :
    values fields = fields.map fun s => (fieldNumber? s).map .real := by
  have hmissing : ∀ s ∈ fields, isMissing s = true → (fieldNumber? s).map Value.real = none := by
    intro s hs hs'
    obtain ⟨-, hnumber⟩ | ⟨hfalse, -, -⟩ := h s hs
    · rw [hnumber, Option.map_none]
    · rw [hfalse] at hs'
      cases hs'
  have hpresent : ∀ s ∈ fields, isMissing s = false →
      signedWhole s = .error .notWhole ∧ ((fieldNumber? s).map Value.real).isSome = true := by
    intro s hs hs'
    obtain ⟨htrue, -⟩ | ⟨-, hwhole, hnumber⟩ := h s hs
    · rw [htrue] at hs'
      cases hs'
    · exact ⟨hwhole, by rw [Option.isSome_map, hnumber]⟩
  rw [values]
  rcases all_missing_or_present fields with hall | hany
  · rw [wholeColumn_of_missing hall]
    show (fields.map fun _ => none) = _
    exact List.map_congr_left fun s hs => (hmissing s hs (hall s hs)).symm
  · rw [wholeColumn_of_present (fun s hs hs' => (hpresent s hs hs').1) hany,
      columnOfKind_eq_some hmissing fun s hs hs' => (hpresent s hs hs').2]
    rfl

/-- A field that spells no number and no truth value. -/
structure IsOther (s : List Char) : Prop where
  whole : signedWhole s = .error .notWhole
  number : fieldNumber? s = none
  truth : truth? s = none

/-- A column of words is read field by field. -/
theorem values_of_isOther (h : ∀ s ∈ fields, isMissing s = false → IsOther s) :
    values fields = wordColumn fields := by
  rw [values]
  rcases all_missing_or_present fields with hall | hany
  · rw [wholeColumn_of_missing hall, wordColumn]
    show (fields.map fun _ => none) = _
    exact List.map_congr_left fun s hs => by rw [hall s hs, if_pos rfl]
  · rw [wholeColumn_of_present (fun s hs hs' => (h s hs hs').whole) hany,
      columnOfKind_eq_none (fun s hs hs' => by rw [(h s hs hs').number, Option.map_none]) hany,
      columnOfKind_eq_none (fun s hs hs' => by rw [(h s hs hs').truth, Option.map_none]) hany]
    rfl

end SatSearch.Csv
