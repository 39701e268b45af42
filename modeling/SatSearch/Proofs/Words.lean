import Mathlib
import SatSearch.Text.Blank

/-!
# Words and lines that were joined

Cutting a text undoes joining: words joined by blanks are cut into the same words (`words_intercalate`), and a
line feed divides the lines in front of it from those behind it (`lines_append_newline`). A text that starts
and ends in a word has nothing to strip (`strip_intercalate`).
-/

namespace SatSearch.Text

theorem isBlank_space : isBlank ' ' = true := by decide

/-! ### Lines -/

theorem lines_of_not_mem {l : List Char} (h : '\n' ∉ l) : lines l = [l] := by
  induction l with
  | nil => rfl
  | cons c l ih =>
    rw [List.mem_cons, not_or] at h
    rw [lines, if_neg (Ne.symm h.1), ih h.2]

theorem lines_ne_nil (s : List Char) : lines s ≠ [] := by
  fun_induction lines s <;> simp_all

/-- A line feed divides the lines in front of it from those behind it. -/
theorem lines_append_newline (s t : List Char) : lines (s ++ '\n' :: t) = lines s ++ lines t := by
  induction s with
  | nil => rfl
  | cons c s ih =>
    rw [List.cons_append, lines, lines, ih]
    obtain ⟨l, ls, hlines⟩ := List.exists_cons_of_ne_nil (lines_ne_nil s)
    rw [hlines]
    split_ifs <;> rfl

/-! ### Stripping -/

theorem trimBy_eq_self {p : Char → Bool} {s : List Char} (hfirst : ∀ c ∈ s.head?, p c = false)
    (hlast : ∀ c ∈ s.getLast?, p c = false) : trimBy p s = s := by
  have hdrop : ∀ t : List Char, (∀ c ∈ t.head?, p c = false) → t.dropWhile p = t := by
    intro t ht
    cases t with
    | nil => rfl
    | cons c t => exact List.dropWhile_cons_of_neg (by simp [ht c rfl])
  rw [trimBy, hdrop s hfirst, hdrop s.reverse (by rwa [List.head?_reverse]), List.reverse_reverse]

/-- Stripping leaves a first character that is no blank. -/
theorem exists_strip_cons {c : Char} (hc : isBlank c = false) (s : List Char) :
    ∃ t, strip (c :: s) = c :: t := by
  have hdrop : (c :: s).dropWhile isBlank = c :: s :=
    List.dropWhile_cons_of_neg (by simp [hc])
  rw [strip, trimBy, hdrop, List.reverse_cons, List.dropWhile_append]
  split
  · refine ⟨[], ?_⟩
    rw [List.dropWhile_cons_of_neg (by simp [hc])]
    rfl
  · exact ⟨_, by rw [List.reverse_append]; rfl⟩

/-! ### Words -/

/-- A word is not empty and holds no blank. -/
structure IsWord (w : List Char) : Prop where
  ne_nil : w ≠ []
  unblank : ∀ c ∈ w, isBlank c = false

theorem IsWord.cons {c : Char} {w : List Char} (hc : isBlank c = false) (h : IsWord w) :
    IsWord (c :: w) :=
  ⟨List.cons_ne_nil c w, List.forall_mem_cons.2 ⟨hc, h.unblank⟩⟩

theorem isWord_of_all {w : List Char} (hne : w ≠ []) (h : w.all (!isBlank ·) = true) : IsWord w := by
  refine ⟨hne, ?_⟩
  intro c hc
  simpa using List.all_eq_true.1 h c hc

theorem words_cons_blank {c : Char} (hc : isBlank c = true) (s : List Char) :
    words (c :: s) = words s := by
  rw [words.eq_def, words.eq_def s, List.dropWhile_cons_of_pos hc]

theorem words_append {w : List Char} (hw : IsWord w) {rest : List Char}
    (hrest : ∀ c ∈ rest.head?, isBlank c = true) : words (w ++ rest) = w :: words rest := by
  obtain ⟨c, w, rfl⟩ := List.exists_cons_of_ne_nil hw.ne_nil
  have hc : isBlank c = false := hw.unblank c List.mem_cons_self
  have hword : ∀ d ∈ w, (!isBlank d) = true := by
    intro d hd
    simp [hw.unblank d (List.mem_cons_of_mem c hd)]
  have hdrop : (c :: w ++ rest).dropWhile isBlank = c :: (w ++ rest) :=
    List.dropWhile_cons_of_neg (by simp [hc])
  have htake : rest.takeWhile (!isBlank ·) = [] := by
    cases rest with
    | nil => rfl
    | cons d rest => exact List.takeWhile_cons_of_neg (by simp [hrest d rfl])
  have hkeep : rest.dropWhile (!isBlank ·) = rest := by
    cases rest with
    | nil => rfl
    | cons d rest => exact List.dropWhile_cons_of_neg (by simp [hrest d rfl])
  rw [words.eq_def, hdrop]
  show (c :: (w ++ rest).takeWhile _) :: words ((w ++ rest).dropWhile _) = _
  rw [List.takeWhile_append_of_pos hword, List.dropWhile_append_of_pos hword, htake, hkeep,
    List.append_nil]

theorem words_intercalate {ws : List (List Char)} (h : ∀ w ∈ ws, IsWord w) :
    words ([' '].intercalate ws) = ws := by
  induction ws with
  | nil => simp [words]
  | cons w ws ih =>
    obtain ⟨hw, hws⟩ := List.forall_mem_cons.1 h
    cases ws with
    | nil =>
      rw [List.intercalate_singleton, ← List.append_nil w, words_append hw (by simp)]
      simp [words]
    | cons w' ws =>
      rw [List.intercalate_cons_cons, List.append_assoc, words_append hw (by simp [isBlank_space]),
        List.singleton_append, words_cons_blank isBlank_space, ih hws]

theorem not_mem_intercalate {c : Char} (hblank : isBlank c = true) (hspace : c ≠ ' ')
    {ws : List (List Char)} (h : ∀ w ∈ ws, IsWord w) : c ∉ [' '].intercalate ws := by
  have hword : ∀ w, IsWord w → c ∉ w := by
    intro w hw hmem
    rw [hw.unblank _ hmem] at hblank
    cases hblank
  induction ws with
  | nil => simp
  | cons w ws ih =>
    obtain ⟨hw, hws⟩ := List.forall_mem_cons.1 h
    cases ws with
    | nil =>
      rw [List.intercalate_singleton]
      exact hword w hw
    | cons w' ws =>
      rw [List.intercalate_cons_cons, List.mem_append, List.mem_append, not_or, not_or,
        List.mem_singleton]
      exact ⟨⟨hword w hw, hspace⟩, ih hws⟩

/-- The first character of joined words is that of the first word. -/
theorem head?_intercalate {w : List Char} (hw : IsWord w) (ws : List (List Char)) :
    ([' '].intercalate (w :: ws)).head? = w.head? := by
  cases ws with
  | nil => rw [List.intercalate_singleton]
  | cons w' ws =>
    rw [List.intercalate_cons_cons, List.append_assoc, List.head?_append_of_ne_nil _ hw.ne_nil]

theorem getLast?_intercalate_unblank {ws : List (List Char)} (h : ∀ w ∈ ws, IsWord w) :
    ∀ c ∈ ([' '].intercalate ws).getLast?, isBlank c = false := by
  induction ws with
  | nil => simp
  | cons w ws ih =>
    obtain ⟨hw, hws⟩ := List.forall_mem_cons.1 h
    cases ws with
    | nil =>
      rw [List.intercalate_singleton]
      intro c hc
      exact hw.unblank c (List.mem_of_getLast? hc)
    | cons w' ws =>
      have hne : [' '].intercalate (w' :: ws) ≠ [] := by
        intro hnil
        have hhead := head?_intercalate (hws w' List.mem_cons_self) ws
        rw [hnil, eq_comm, List.head?_nil, List.head?_eq_none_iff] at hhead
        exact (hws w' List.mem_cons_self).ne_nil hhead
      rw [List.intercalate_cons_cons, List.getLast?_append_of_ne_nil _ hne]
      exact ih hws

theorem strip_intercalate {ws : List (List Char)} (h : ∀ w ∈ ws, IsWord w) :
    strip ([' '].intercalate ws) = [' '].intercalate ws := by
  refine trimBy_eq_self ?_ (getLast?_intercalate_unblank h)
  cases ws with
  | nil => simp
  | cons w ws =>
    obtain ⟨hw, -⟩ := List.forall_mem_cons.1 h
    rw [head?_intercalate hw]
    intro c hc
    exact hw.unblank c (List.mem_of_head? hc)

end SatSearch.Text
