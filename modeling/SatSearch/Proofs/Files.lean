import Mathlib
import SatSearch.Files

/-!
# Files that were written

Writing changes what stands at one place and on no way through directories (`follow_put`), so a file that was
written is read back (`read_of_write`). Making a directory that is there changes nothing
(`makeDirectories_of_isDirectory`).
-/

namespace SatSearch.Files

variable {fs fs' : Files} {place : List String}

/-! ### Entries -/

theorem lookup_map_put (entries : List (List String × Entry)) (place other : List String) (e : Entry) :
    (entries.map fun (p, old) => if p = place then (p, e) else (p, old)).lookup other =
      if other = place then (entries.lookup other).map fun _ => e else entries.lookup other := by
  induction entries with
  | nil => simp
  | cons entry entries ih =>
    obtain ⟨p, old⟩ := entry
    by_cases hother : other = p
    · subst hother
      by_cases hplace : other = place <;> simp [hplace]
    · have hbeq : (other == p) = false := beq_eq_false_iff_ne.2 hother
      by_cases hplace : p = place
      · subst hplace
        simp [List.lookup_cons, hbeq, ih]
      · simp [List.lookup_cons, hbeq, hplace, ih]

theorem lookup_put_self (fs : Files) (place : List String) (e : Entry) :
    (fs.put place e).entries.lookup place = some e := by
  rw [put]
  split
  · next h =>
    rw [lookup_map_put, if_pos rfl]
    obtain ⟨old, hold⟩ := Option.isSome_iff_exists.1 h
    rw [hold, Option.map_some]
  · next h =>
    rw [Bool.not_eq_true, Option.isSome_eq_false_iff, Option.isNone_iff_eq_none] at h
    rw [List.lookup_append, h]
    simp

theorem lookup_put_of_ne (fs : Files) {place other : List String} (e : Entry) (h : other ≠ place) :
    (fs.put place e).entries.lookup other = fs.entries.lookup other := by
  rw [put]
  split
  · rw [lookup_map_put, if_neg h]
  · rw [List.lookup_append]
    simp [List.lookup_cons, beq_eq_false_iff_ne.2 h]

theorem entry?_put_self (fs : Files) {place : List String} (e : Entry) (h : isAbove place = false) :
    entry? (fs.put place e) place = some e := by
  unfold entry?
  rw [h, if_neg Bool.false_ne_true, lookup_put_self]

theorem entry?_put_of_ne (fs : Files) {place other : List String} (e : Entry) (h : other ≠ place) :
    entry? (fs.put place e) other = fs.entry? other := by
  unfold entry?
  rw [lookup_put_of_ne fs e h]

theorem isAbove_eq_false (h : fs.entry? place ≠ some .directory) : isAbove place = false := by
  cases hplace : isAbove place with
  | false => rfl
  | true =>
    unfold entry? at h
    rw [if_pos hplace] at h
    exact absurd rfl h

/-! ### Ways -/

/-- A way leads through directories only, so it does not meet a place where there is none. -/
theorem follow_put {changed start : List String} {e : Entry} {parts : List String}
    (hchanged : fs.entry? changed ≠ some .directory) (h : fs.follow start parts = .ok place) :
    (fs.put changed e).follow start parts = .ok place := by
  induction parts generalizing start with
  | nil => exact h
  | cons part rest ih =>
    unfold follow at h ⊢
    split at h
    · cases h
    · cases h
    · next hstart =>
      have hne : start ≠ changed := fun hs => hchanged (hs ▸ hstart)
      rw [entry?_put_of_ne fs e hne, hstart]
      dsimp only
      split_ifs at h ⊢
      · exact ih h
      · exact ih h
      · exact ih h

theorem place_put {changed : List String} {e : Entry} {path : String}
    (hchanged : fs.entry? changed ≠ some .directory) (h : fs.place path = .ok place) :
    (fs.put changed e).place path = .ok place := by
  unfold Files.place at h ⊢
  split_ifs at h ⊢
  exact follow_put hchanged h

/-! ### Writing and reading -/

section OnPath

variable {α : Type} {path : String} {op : Except FileFault α} {a : α}

theorem onPath_eq_ok_iff :
    onPath path op = .ok a ↔ hasZero path = false ∧ isTooLong path = false ∧ op = .ok a := by
  unfold onPath
  cases hasZero path <;> cases isTooLong path <;> cases op <;> simp [Except.mapError]

theorem onPath_ne_zeroCharacter (h : hasZero path = false) : onPath path op ≠ .error .zeroCharacter := by
  unfold onPath
  rw [h]
  cases isTooLong path <;> cases op <;> simp [Except.mapError]

end OnPath

theorem read_ne_zeroCharacter {path : String} (h : hasZero path = false) :
    fs.read path ≠ .error .zeroCharacter :=
  onPath_ne_zeroCharacter h

theorem read_eq_ok_iff {path : String} {bytes : List UInt8} :
    fs.read path = .ok bytes ↔ hasZero path = false ∧ isTooLong path = false ∧
      ∃ place, fs.place path = .ok place ∧ fs.entry? place = some (.file bytes) := by
  rw [read, onPath_eq_ok_iff]
  refine and_congr_right fun _ => and_congr_right fun _ => ?_
  cases fs.place path with
  | error e => simp [bind, Except.bind]
  | ok place =>
    simp only [bind, Except.bind, Except.ok.injEq, exists_eq_left']
    cases fs.entry? place with
    | none => simp [throw, throwThe, MonadExceptOf.throw]
    | some entry =>
      cases entry <;> simp [throw, throwThe, MonadExceptOf.throw, pure, Except.pure]

theorem write_eq_ok_iff {path : String} {bytes : List UInt8} :
    fs.write path bytes = .ok fs' ↔ hasZero path = false ∧ isTooLong path = false ∧
      path.endsWith "/" = false ∧ ∃ place, fs.place path = .ok place ∧
        fs.entry? place ≠ some .directory ∧ fs' = fs.put place (.file bytes) := by
  rw [write, onPath_eq_ok_iff]
  refine and_congr_right fun _ => and_congr_right fun _ => ?_
  cases path.endsWith "/" with
  | true => simp [bind, Except.bind, throw, throwThe, MonadExceptOf.throw]
  | false =>
    cases fs.place path with
    | error e => simp [bind, Except.bind]
    | ok place =>
      simp only [bind, Except.bind, pure, Except.pure, Except.ok.injEq, exists_eq_left', true_and,
        Bool.false_eq_true, if_false]
      split
      · next hdirectory => simp [hdirectory, throw, throwThe, MonadExceptOf.throw]
      · next hdirectory =>
        have hne : fs.entry? place ≠ some .directory := hdirectory
        rw [Except.ok.injEq, and_iff_right hne]
        exact eq_comm

/-- A file that was written is read back. -/
theorem read_of_write {path : String} {bytes : List UInt8} (h : fs.write path bytes = .ok fs') :
    fs'.read path = .ok bytes := by
  obtain ⟨hzero, hlong, -, place, hplace, hdirectory, rfl⟩ := write_eq_ok_iff.1 h
  exact read_eq_ok_iff.2 ⟨hzero, hlong, place, place_put hdirectory hplace,
    entry?_put_self fs _ (isAbove_eq_false hdirectory)⟩

/-! ### Directories that are there -/

theorem makeDirectory_eq_error {path : String} (hbare : bare path = path) (h : fs.isDirectory path = true) :
    ∃ e, fs.makeDirectory path = .error e := by
  rw [isDirectory, beq_iff_eq, find?] at h
  cases hmake : fs.makeDirectory path with
  | error e => exact ⟨e, rfl⟩
  | ok made =>
    rw [makeDirectory, onPath_eq_ok_iff, hbare] at hmake
    obtain ⟨-, -, hmade⟩ := hmake
    cases hplace : fs.place path with
    | error e =>
      rw [hplace] at hmade
      cases hmade
    | ok place =>
      rw [hplace] at h hmade
      simp only [bind, Except.bind, h] at hmade
      cases hmade

/-- To make a directory that is there already changes nothing. -/
theorem makeDirectories_of_isDirectory {path : String} (hfront : (splitName path.toList).1 = [])
    (hbare : bare path = path) (h : fs.isDirectory path = true) : fs.makeDirectories path.toList = .ok fs := by
  obtain ⟨e, hmake⟩ := makeDirectory_eq_error hbare h
  rw [makeDirectories, ensureDirectories, dif_neg fun hsplit => hsplit.1 hfront, String.ofList_toList,
    ensureDirectory, hmake]
  dsimp only
  rw [h, if_pos rfl]

end SatSearch.Files
