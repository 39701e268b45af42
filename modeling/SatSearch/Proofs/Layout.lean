import SatSearch.Proofs.Comments

/-!
# The layout of DIMACS texts

What a text says does not depend on how it is laid out: on blank lines and comments (`Padded`), on the line ends
(`withReturns`) and on what stands behind the last clause that the header declares (`Complete`). Main statement:
texts that differ in their layout alone, and files that hold them, are read or refused alike (`parse_layout`).
-/

namespace SatSearch.Dimacs

open SatSearch.Text

/-! ### Blanks at the ends of lines -/

theorem strip_blanks_append {blanks : List Char} (h : ∀ c ∈ blanks, isBlank c = true) (s : List Char) :
    strip (blanks ++ s) = strip s := by
  rw [strip, trimBy, List.dropWhile_append_of_pos h]
  rfl

theorem strip_append_blank (s : List Char) {c : Char} (hc : isBlank c = true) : strip (s ++ [c]) = strip s := by
  rw [strip, strip, trimBy, trimBy, List.dropWhile_append]
  split
  · next hnone =>
    rw [List.isEmpty_iff.1 hnone, List.dropWhile_cons_of_pos hc]
    rfl
  · rw [List.reverse_concat, List.dropWhile_cons_of_pos hc]

/-! ### Lines that say something -/

/-- The lines that say something, without blanks at their ends. -/
def significant (ls : List (List Char)) : List (List Char) :=
  (ls.map strip).filter (!isRedundant ·)

theorem significantLines_eq (text : List Char) : significantLines text = significant (lines text) :=
  rfl

theorem significant_append (ls ls' : List (List Char)) :
    significant (ls ++ ls') = significant ls ++ significant ls' := by
  rw [significant, List.map_append, List.filter_append]
  rfl

/-! ### Blank lines and comments -/

/-- A line of blanks alone, or one whose first character that is no blank is the letter `c`. -/
def IsPadding (line : List Char) : Prop :=
  ∃ blanks rest, line = blanks ++ rest ∧ (∀ c ∈ blanks, isBlank c = true) ∧ ∀ c ∈ rest.head?, c = 'c'

/-- The second list has the lines of the first one, in their order, with blank lines and comments anywhere between
them. -/
inductive Padded : List (List Char) → List (List Char) → Prop
  | nil : Padded [] []
  | keep {ls ls' : List (List Char)} (line : List Char) (rest : Padded ls ls') :
      Padded (line :: ls) (line :: ls')
  | pad {ls ls' : List (List Char)} {line : List Char} (padding : IsPadding line) (rest : Padded ls ls') :
      Padded ls (line :: ls')

theorem IsPadding.isRedundant {line : List Char} (h : IsPadding line) : isRedundant (strip line) = true := by
  obtain ⟨blanks, rest, rfl, hblanks, hrest⟩ := h
  rw [strip_blanks_append hblanks]
  cases rest with
  | nil => rfl
  | cons c rest =>
    obtain rfl : c = 'c' := hrest c rfl
    obtain ⟨t, ht⟩ := exists_strip_cons (c := 'c') (by decide) rest
    rw [ht]
    rfl

theorem Padded.significant_eq {ls ls' : List (List Char)} (h : Padded ls ls') :
    significant ls' = significant ls := by
  induction h with
  | nil => rfl
  | keep line rest ih =>
    rw [← List.singleton_append, significant_append, ih, ← significant_append]
    rfl
  | pad padding rest ih =>
    rw [significant, List.map_cons, List.filter_cons_of_neg (by simp [padding.isRedundant])]
    exact ih

/-! ### Line ends -/

/-- The text with a carriage return in front of each line feed. -/
def withReturns (text : List Char) : List Char :=
  text.flatMap fun c => if c = '\n' then ['\r', '\n'] else [c]

theorem withReturns_cons (c : Char) (text : List Char) :
    withReturns (c :: text) = if c = '\n' then '\r' :: '\n' :: withReturns text else c :: withReturns text := by
  rw [withReturns, List.flatMap_cons]
  split_ifs <;> rfl

/-- The lines are the same but for carriage returns at their ends. -/
theorem forall₂_lines_withReturns (text : List Char) :
    List.Forall₂ (fun l l' => l' = l ∨ l' = l ++ ['\r']) (lines text) (lines (withReturns text)) := by
  induction text with
  | nil => exact .cons (.inl rfl) .nil
  | cons c text ih =>
    rw [withReturns_cons, lines]
    split_ifs with hc
    · rw [lines, if_neg (by decide), lines, if_pos rfl]
      exact .cons (.inr rfl) ih
    · obtain ⟨line, more, hlines⟩ := List.exists_cons_of_ne_nil (lines_ne_nil text)
      rw [hlines] at ih ⊢
      obtain ⟨line', more', hline, hmore, hlines'⟩ := List.forall₂_cons_left_iff.1 ih
      rw [lines, if_neg hc, hlines']
      refine .cons ?_ hmore
      rcases hline with rfl | rfl
      · exact .inl rfl
      · exact .inr rfl

theorem significantLines_withReturns (text : List Char) :
    significantLines (withReturns text) = significantLines text := by
  have hstrip : (lines (withReturns text)).map strip = (lines text).map strip := by
    rw [← List.forall₂_eq_eq_eq, List.forall₂_map_left_iff, List.forall₂_map_right_iff]
    refine (forall₂_lines_withReturns text).flip.imp ?_
    rintro l' l (rfl | rfl)
    · rfl
    · exact strip_append_blank l (by decide)
  rw [significantLines, hstrip]
  rfl

theorem unifyLineEnds_withReturns {text : List Char} (h : '\r' ∉ text) :
    unifyLineEnds (withReturns text) = text := by
  induction text with
  | nil => rfl
  | cons c text ih =>
    rw [List.mem_cons, not_or] at h
    rw [withReturns_cons]
    split_ifs with hc
    · rw [unifyLineEnds, ih h.2, hc]
    · rw [unifyLineEnds_cons fun hr => absurd hr.symm h.1, if_neg (Ne.symm h.1), ih h.2]

/-! ### What stands behind the last clause -/

/-- The lines hold a header and at least as many lines of clauses as it declares. -/
def Complete (ls : List (List Char)) : Prop :=
  ∃ header rest h, significant ls = header :: rest ∧ SpellsHeader header h ∧ h.clauseCount ≤ rest.length

theorem parseBody_append {h : Header} {rest : List (List Char)} (henough : h.clauseCount ≤ rest.length)
    (more : List (List Char)) : parseBody h (rest ++ more) = parseBody h rest := by
  rw [parseBody, parseBody, List.take_append_of_le_length (by omega)]

theorem Complete.parse_eq {front : List (List Char)} (hfront : Complete front) {text text' : List Char}
    (h : front <+: lines text) (h' : front <+: lines text') : parse text' = parse text := by
  obtain ⟨header, rest, hd, hlines, hheader, henough⟩ := hfront
  have hparse {t : List Char} (ht : front <+: lines t) : parse t = parseBody hd rest := by
    obtain ⟨more, hmore⟩ := ht
    have hsplit : splitHeader t = .ok (hd, rest ++ significant more) := by
      refine splitHeader_eq_ok_iff.2 ⟨header, ?_, hheader⟩
      rw [significantLines_eq, ← hmore, significant_append, hlines, List.cons_append]
    rw [parse, hsplit]
    exact parseBody_append henough _
  rw [hparse h, hparse h']

/-! ### Layout -/

/-- Blank lines and comments put anywhere, and carriage returns at the ends of lines, leave what is read or why it
is refused as it is, and so does all that stands behind the last clause that the header declares. A file that
holds the text, with either kind of line ends, is read as the text is. -/
theorem parse_layout (text : List Char) :
    (∀ text', Padded (lines text) (lines text') → parse text' = parse text) ∧
    parse (withReturns text) = parse text ∧
    (∀ front text', Complete front → front <+: lines text → front <+: lines text' →
      parse text' = parse text) ∧
    ('\r' ∉ text → parseFile (encode text) = parse text ∧ parseFile (encode (withReturns text)) = parse text) := by
  refine ⟨?_, ?_, ?_, ?_⟩
  · intro text' h
    exact parse_congr h.significant_eq
  · exact parse_congr (significantLines_withReturns text)
  · intro front text' hfront h h'
    exact hfront.parse_eq h h'
  · intro h
    rw [parseFile_encode, parseFile_encode, unifyLineEnds_eq_self h, unifyLineEnds_withReturns h]
    exact ⟨rfl, rfl⟩

/-- A text with one clause. -/
def oneClause : List Char :=
  "p cnf 2 1\n1 -2 0".toList

/-- The same with a comment and a blank line. -/
def commentedClause : List Char :=
  " c two variables\np cnf 2 1\n\t\n1 -2 0".toList

/-- The same with lines behind the clause. -/
def trailedClause : List Char :=
  "p cnf 2 1\n1 -2 0\n%\n0".toList

theorem padded_commentedClause : Padded (lines oneClause) (lines commentedClause) := by
  have hlines : lines commentedClause =
      [" c two variables".toList, "p cnf 2 1".toList, "\t".toList, "1 -2 0".toList] := by decide
  have hcomment : IsPadding " c two variables".toList :=
    ⟨[' '], "c two variables".toList, by decide, List.forall_mem_singleton.2 isBlank_space, by rintro c ⟨⟩; rfl⟩
  have hblank : IsPadding "\t".toList :=
    ⟨['\t'], [], by decide, List.forall_mem_singleton.2 (by decide), by rintro c ⟨⟩⟩
  rw [hlines]
  exact .pad hcomment (.keep _ (.pad hblank (.keep _ .nil)))

theorem complete_oneClause : Complete (lines oneClause) := by
  have hlines : significant (lines oneClause) = ["p cnf 2 1".toList, "1 -2 0".toList] := by decide
  have hheader : parseHeader "p cnf 2 1".toList = .ok ⟨2, 1⟩ := by cbv
  exact ⟨_, _, _, hlines, parseHeader_eq_ok_iff.1 hheader, by decide⟩

/-- The formula that these texts spell. -/
def oneClauseFormula : Formula where
  variableCount := 2
  clauseCount := 1
  clauses := [[1, -2]]
  «variables» := [1, 2]

theorem parse_oneClause : parse oneClause = .ok oneClauseFormula := by
  cbv

theorem parse_layout_oneClause :
    (Padded (lines oneClause) (lines commentedClause) ∧ parse commentedClause = .ok oneClauseFormula) ∧
    (Complete (lines oneClause) ∧ lines oneClause <+: lines trailedClause ∧
      parse trailedClause = .ok oneClauseFormula) ∧
    '\r' ∉ oneClause ∧ parseFile (encode "p cnf 2 1\r\n1 -2 0".toList) = .ok oneClauseFormula := by
  obtain ⟨hpadded, -, hcomplete, hfile⟩ := parse_layout oneClause
  have htrailed : lines oneClause <+: lines trailedClause := by decide
  have hreturns : withReturns oneClause = "p cnf 2 1\r\n1 -2 0".toList := by decide
  rw [← parse_oneClause, ← hreturns]
  exact ⟨⟨padded_commentedClause, hpadded _ padded_commentedClause⟩,
    ⟨complete_oneClause, htrailed, hcomplete _ _ complete_oneClause List.prefix_rfl htrailed⟩, by decide,
    (hfile (by decide)).2⟩

end SatSearch.Dimacs
