import SatSearch.Dimacs.Printer
import SatSearch.Proofs.Grammar

/-!
# Reading what was written

A written formula has one line for each comment, one for the header and one for each clause. The reader
passes over the comments and is left with the header and the clauses (`significantLines_render`), so the
text spells the formula (`spells_render`). Main statement: a written formula is read back, and a formula
that was read can be written and is then read again (`parse_render`).
-/

namespace SatSearch.Dimacs

open SatSearch.Text

/-! ### Words of written lines -/

/-- The words of a written header. -/
def headerWords (f : Cnf) : List (List Char) :=
  [['p'], ['c', 'n', 'f'], (toString f.variables.length).toList, (toString f.length).toList]

/-- The words of a written clause. -/
def clauseWords (c : List Literal) : List (List Char) :=
  (c ++ [0]).map fun l => (toString l).toList

theorem toList_headerLine (f : Cnf) : (headerLine f).toList = [' '].intercalate (headerWords f) := by
  simp only [headerLine, headerWords, String.toList_append, List.intercalate_cons_cons,
    List.intercalate_singleton, List.append_assoc]
  rfl

theorem toList_clauseLine (c : List Literal) :
    (clauseLine c).toList = [' '].intercalate (clauseWords c) := by
  rw [clauseLine, String.toList_intercalate, List.map_map]
  rfl

/-- No literal is zero, and the integers in the text of the formula are short enough to be written: its
literals, and its number of clauses, which stands in the header. No list in memory is longer than that. -/
structure Writable (f : Cnf) : Prop where
  nonzero : ∀ c ∈ f, ∀ l ∈ c, l ≠ 0
  short : ∀ c ∈ f, ∀ l ∈ c, l.natAbs < 10 ^ digitLimit
  count : f.length < 10 ^ digitLimit

namespace Writable

variable {f : Cnf}

/-- There are fewer variables than integers short enough to name one. -/
theorem length_variables_lt (h : Writable f) : (Cnf.variables f).length < 10 ^ digitLimit := by
  have hsub : insert 0 (Cnf.variableSet f) ⊆ Finset.range (10 ^ digitLimit) := by
    intro x hx
    rw [Finset.mem_range]
    rcases Finset.mem_insert.1 hx with rfl | hx
    · exact Nat.pow_pos (by decide)
    · obtain ⟨c, hc, l, hl, rfl⟩ := Cnf.mem_variableSet.1 hx
      exact h.short c hc l hl
  have hzero : 0 ∉ Cnf.variableSet f := by
    intro h0
    obtain ⟨c, hc, l, hl, hl0⟩ := Cnf.mem_variableSet.1 h0
    exact h.nonzero c hc l hl (Int.natAbs_eq_zero.1 hl0)
  have hcard := Finset.card_le_card hsub
  rw [Finset.card_insert_of_notMem hzero, Finset.card_range] at hcard
  rw [Cnf.length_variables]
  exact hcard

theorem numeral_of_mem (h : Writable f) {c : List Literal} (hc : c ∈ f) :
    ∀ l ∈ c ++ [0], Numeral (toString l).toList l := by
  intro l hl
  rcases List.mem_append.1 hl with hl | hl
  · exact numeral_toString (h.short c hc l hl)
  · rw [List.mem_singleton.1 hl]
    exact numeral_toString (Nat.pow_pos (by decide))

theorem isWord_headerWords (h : Writable f) : ∀ w ∈ headerWords f, IsWord w := by
  simp only [headerWords, List.forall_mem_cons]
  refine ⟨isWord_of_all (by decide) (by decide), isWord_of_all (by decide) (by decide), ?_, ?_,
    List.forall_mem_nil _⟩
  · exact (numeral_toString_natCast h.length_variables_lt).isWord
  · exact (numeral_toString_natCast h.count).isWord

theorem isWord_clauseWords (h : Writable f) {c : List Literal} (hc : c ∈ f) :
    ∀ w ∈ clauseWords c, IsWord w := by
  rw [clauseWords, List.forall_mem_map]
  intro l hl
  exact (h.numeral_of_mem hc l hl).isWord

theorem spellsHeader (h : Writable f) :
    SpellsHeader (headerLine f).toList ⟨(Cnf.variables f).length, f.length⟩ := by
  refine ⟨_, _, [], ?_, numeral_toString_natCast h.length_variables_lt, numeral_toString_natCast h.count⟩
  rw [toList_headerLine, words_intercalate h.isWord_headerWords, headerWords]

theorem spellsClause (h : Writable f) {c : List Literal} (hc : c ∈ f) :
    SpellsClause (clauseLine c).toList c := by
  refine ⟨c ++ [0], ?_, ?_⟩
  · rw [toList_clauseLine, words_intercalate (h.isWord_clauseWords hc), clauseWords,
      List.forall₂_map_left_iff, List.forall₂_same]
    exact h.numeral_of_mem hc
  · rw [List.filter_append, List.filter_eq_self.2]
    · simp
    · intro l hl
      simpa using h.nonzero c hc l hl

end Writable

/-! ### The lines of a written formula -/

/-- The line of the header and those of the clauses. -/
def formulaLines (f : Cnf) : List (List Char) :=
  (headerLine f).toList :: f.map fun c => (clauseLine c).toList

theorem toList_render (f : Cnf) (comments : List String) :
    (render f comments).toList =
      ['\n'].intercalate ((comments.map fun s => ("c " ++ s).toList) ++ formulaLines f) ++ ['\n'] := by
  rw [render, String.toList_append, String.toList_intercalate]
  simp only [List.map_append, List.map_map, List.map_cons]
  rfl

theorem significantLines_append (s t : List Char) :
    significantLines (s ++ '\n' :: t) = significantLines s ++ significantLines t := by
  rw [significantLines, lines_append_newline, List.map_append, List.filter_append]
  rfl

theorem significantLines_nil : significantLines [] = [] :=
  rfl

theorem isRedundant_comment (s : String) : isRedundant (strip ("c " ++ s).toList) = true := by
  obtain ⟨t, ht⟩ := exists_strip_cons (c := 'c') (by decide) (' ' :: s.toList)
  rw [String.toList_append]
  show isRedundant (strip ('c' :: ' ' :: s.toList)) = true
  rw [ht]
  rfl

/-- The text is one line without blanks at its ends, and neither empty nor a comment. -/
structure IsSignificant (line : List Char) : Prop where
  strip_eq : strip line = line
  not_redundant : isRedundant line = false
  no_feed : '\n' ∉ line
  no_return : '\r' ∉ line

theorem IsSignificant.significantLines_eq {line : List Char} (h : IsSignificant line) :
    significantLines line = [line] := by
  rw [significantLines, lines_of_not_mem h.no_feed, List.map_singleton, h.strip_eq,
    List.filter_singleton, h.not_redundant]
  rfl

theorem isSignificant_intercalate {w : List Char} {ws : List (List Char)}
    (h : ∀ u ∈ w :: ws, IsWord u) (hc : w.head? ≠ some 'c') :
    IsSignificant ([' '].intercalate (w :: ws)) := by
  have hw := h w List.mem_cons_self
  refine ⟨strip_intercalate h, ?_, not_mem_intercalate (by decide) (by decide) h,
    not_mem_intercalate (by decide) (by decide) h⟩
  rw [← head?_intercalate hw ws] at hc
  have hne : ([' '].intercalate (w :: ws)).head? ≠ none := by
    rw [head?_intercalate hw, Ne, List.head?_eq_none_iff]
    exact hw.ne_nil
  cases hs : [' '].intercalate (w :: ws) with
  | nil => simp [hs] at hne
  | cons d s =>
    rw [hs] at hc
    simpa [isRedundant] using hc

theorem isSignificant_headerLine {f : Cnf} (h : Writable f) : IsSignificant (headerLine f).toList := by
  rw [toList_headerLine]
  exact isSignificant_intercalate h.isWord_headerWords (by decide)

theorem isSignificant_clauseLine {f : Cnf} (h : Writable f) {c : List Literal} (hc : c ∈ f) :
    IsSignificant (clauseLine c).toList := by
  rw [toList_clauseLine]
  -- An empty clause has a word as well, the zero that ends it.
  obtain ⟨l, ls, hcons⟩ := List.exists_cons_of_ne_nil (List.append_ne_nil_of_right_ne_nil c
    (List.cons_ne_nil (0 : Literal) []))
  have hl : l ∈ c ++ [0] := by
    rw [hcons]
    exact List.mem_cons_self
  have hwords := h.isWord_clauseWords hc
  rw [clauseWords, hcons, List.map_cons] at hwords ⊢
  exact isSignificant_intercalate hwords (h.numeral_of_mem hc l hl).head?_ne

theorem isSignificant_of_mem_formulaLines {f : Cnf} (h : Writable f) :
    ∀ l ∈ formulaLines f, IsSignificant l :=
  List.forall_mem_cons.2 ⟨isSignificant_headerLine h, List.forall_mem_map.2 fun _ hc =>
    isSignificant_clauseLine h hc⟩

theorem flatMap_significantLines {ls : List (List Char)} (h : ∀ l ∈ ls, IsSignificant l) :
    ls.flatMap significantLines = ls := by
  induction ls with
  | nil => rfl
  | cons l ls ih =>
    obtain ⟨hl, hls⟩ := List.forall_mem_cons.1 h
    rw [List.flatMap_cons, hl.significantLines_eq, ih hls, List.singleton_append]

theorem significantLines_comment {s : String} (h : '\n' ∉ s.toList) :
    significantLines ("c " ++ s).toList = [] := by
  have hline : '\n' ∉ ("c " ++ s).toList := by simp [h]
  rw [significantLines, lines_of_not_mem hline, List.map_singleton, List.filter_singleton,
    isRedundant_comment]
  rfl

theorem significantLines_render {f : Cnf} (h : Writable f) {comments : List String}
    (hcomments : ∀ s ∈ comments, '\n' ∉ s.toList) :
    significantLines (render f comments).toList = formulaLines f := by
  have hdropped : (comments.map fun s => ("c " ++ s).toList).flatMap significantLines = [] := by
    rw [List.flatMap_eq_nil_iff, List.forall_mem_map]
    exact fun s hs => significantLines_comment (hcomments s hs)
  rw [toList_render, significantLines_append, significantLines_nil, List.append_nil,
    apply_intercalate significantLines_nil significantLines_append, List.flatMap_append, hdropped,
    List.nil_append, flatMap_significantLines (isSignificant_of_mem_formulaLines h)]

/-! ### There and back -/

/-- A written formula spells the formula, whatever the comments. -/
theorem spells_render {f : Cnf} (h : Writable f) {comments : List String}
    (hcomments : ∀ s ∈ comments, '\n' ∉ s.toList) :
    Spells (render f comments).toList
      { variableCount := (Cnf.variables f).length
        clauseCount := f.length
        clauses := f
        «variables» := Cnf.variables f } where
  lines := by
    refine ⟨_, _, significantLines_render h hcomments, h.spellsHeader, Int.natCast_nonneg _, ?_, ?_⟩
    · rw [List.length_map]
    · rw [List.take_of_length_le (by simp), List.forall₂_map_left_iff, List.forall₂_same]
      intro c hc
      exact h.spellsClause hc
  variableCount := congrArg Nat.cast (Cnf.length_variables f)
  ascending := Cnf.pairwise_variables f
  variableSet := Cnf.toFinset_variables f

theorem Writable.render?_eq {f : Cnf} (h : Writable f) (comments : List String) :
    render? f comments = some (render f comments) := by
  have hshort : ∀ n ∈ ((Cnf.variables f).length : Int) :: (f.length : Int) :: f.flatten,
      hasLongText n = false := by
    refine List.forall_mem_cons.2 ⟨?_, List.forall_mem_cons.2 ⟨?_, ?_⟩⟩
    · exact hasLongText_eq_false_iff.2 h.length_variables_lt
    · exact hasLongText_eq_false_iff.2 h.count
    · intro l hl
      obtain ⟨c, hc, hlc⟩ := List.mem_flatten.1 hl
      exact hasLongText_eq_false_iff.2 (h.short c hc l hlc)
  rw [render?, if_neg]
  rw [Bool.not_eq_true, List.any_eq_false]
  intro n hn
  rw [hshort n hn]
  exact Bool.false_ne_true

theorem SpellsClause.ne_zero_and_short {line : List Char} {c : List Literal} (h : SpellsClause line c) :
    ∀ l ∈ c, l ≠ 0 ∧ l.natAbs < 10 ^ digitLimit := by
  obtain ⟨numbers, hnumbers, rfl⟩ := h
  intro l hl
  obtain ⟨hmem, hne⟩ := List.mem_filter.1 hl
  obtain ⟨word, -, hword⟩ := exists_mem_of_forall₂ hnumbers l hmem
  exact ⟨of_decide_eq_true hne, hword.natAbs_lt⟩

/-- What was read can be written. -/
theorem Spells.writable {text : List Char} {f : Formula} (h : Spells text f) : Writable f.clauses := by
  obtain ⟨header, rest, -, ⟨v, m, more, -, -, hm⟩, hnonneg, henough, hclauses⟩ := h.lines
  have hliterals : ∀ c ∈ f.clauses, ∀ l ∈ c, l ≠ 0 ∧ l.natAbs < 10 ^ digitLimit := by
    intro c hc
    obtain ⟨line, -, hline⟩ := exists_mem_of_forall₂ hclauses c hc
    exact hline.ne_zero_and_short
  refine ⟨fun c hc l hl => (hliterals c hc l hl).1, fun c hc l hl => (hliterals c hc l hl).2, ?_⟩
  have hlength := (length_of_forall₂_take hclauses).2 ⟨hnonneg, henough⟩
  have hcount := hm.natAbs_lt
  rwa [← hlength, Int.natAbs_natCast] at hcount

/-- There is one way to fill in the counts and the variables of what was read. -/
theorem Spells.eq_counted {text : List Char} {f : Formula} (h : Spells text f) :
    f = { variableCount := (Cnf.variables f.clauses).length
          clauseCount := f.clauses.length
          clauses := f.clauses
          «variables» := Cnf.variables f.clauses } := by
  obtain ⟨header, rest, -, -, hnonneg, henough, hclauses⟩ := h.lines
  have hcount := (length_of_forall₂_take hclauses).2 ⟨hnonneg, henough⟩
  have hvariables := Cnf.eq_variables_iff.2 ⟨h.ascending, h.variableSet⟩
  have hnumber := h.variableCount
  rw [← Cnf.length_variables] at hnumber
  obtain ⟨⟨v, m⟩, clauses, occurring⟩ := f
  dsimp only at hcount hvariables hnumber ⊢
  rw [hcount, ← hnumber, hvariables]

/-- A formula without the literal 0 whose integers are short enough is written with any comments of one
line each, and reading the text gives the formula back, with its variables and the two counts. A formula
that was read is such a formula; written and read again it is the same in all its parts. -/
theorem parse_render :
    (∀ (f : Cnf) (comments : List String), Writable f → (∀ s ∈ comments, '\n' ∉ s.toList) →
      ∃ text g, render? f comments = some text ∧ parse text.toList = .ok g ∧ g.clauses = f ∧
        g.variables.Pairwise (· < ·) ∧ g.variables.toFinset = Cnf.variableSet f ∧
        g.variableCount = (Cnf.variableSet f).card ∧ g.clauseCount = f.length) ∧
    ∀ text f, parse text = .ok f →
      ∃ text', render? f.clauses [] = some text' ∧ parse text'.toList = .ok f := by
  constructor
  · intro f comments hwritable hcomments
    have hspells := spells_render hwritable hcomments
    exact ⟨_, _, hwritable.render?_eq comments, parse_eq_ok_iff.2 hspells, rfl, hspells.ascending,
      hspells.variableSet, hspells.variableCount, rfl⟩
  · intro text f hparse
    have hspells := parse_eq_ok_iff.1 hparse
    have hwritable := hspells.writable
    refine ⟨_, hwritable.render?_eq [], ?_⟩
    rw [hspells.eq_counted]
    exact parse_eq_ok_iff.2 (spells_render hwritable (List.forall_mem_nil _))

/-- A formula with an empty clause, a literal twice and a complementary pair is written with a comment, and a
text in free format, with a superfluous word and line, is read and written again. -/
theorem parse_render_mixed :
    (Writable [[1, -2, 3], [], [3, 3, -3]] ∧ (∀ s ∈ ["a comment"], '\n' ∉ s.toList) ∧
      ∃ text g, render? [[1, -2, 3], [], [3, 3, -3]] ["a comment"] = some text ∧
        parse text.toList = .ok g ∧ g.clauses = [[1, -2, 3], [], [3, 3, -3]] ∧
        g.variables.Pairwise (· < ·) ∧
        g.variables.toFinset = Cnf.variableSet [[1, -2, 3], [], [3, 3, -3]] ∧
        g.variableCount = (Cnf.variableSet [[1, -2, 3], [], [3, 3, -3]]).card ∧ g.clauseCount = 3) ∧
    parse " p  cnf +2 0_2 x\nc\n 1 0 -2\n\n 0\n9".toList = .ok ⟨⟨2, 2⟩, [[1, -2], []], [1, 2]⟩ ∧
      ∃ text, render? [[1, -2], []] [] = some text ∧
        parse text.toList = .ok ⟨⟨2, 2⟩, [[1, -2], []], [1, 2]⟩ := by
  have hten : 10 ≤ 10 ^ digitLimit := Nat.le_self_pow (by decide) 10
  have hwritable : Writable [[1, -2, 3], [], [3, 3, -3]] := by
    have hshort : ∀ c ∈ ([[1, -2, 3], [], [3, 3, -3]] : Cnf), ∀ l ∈ c, l.natAbs < 10 := by decide
    exact ⟨by decide, fun c hc l hl => Nat.lt_of_lt_of_le (hshort c hc l hl) hten,
      Nat.lt_of_lt_of_le (m := 10) (by decide) hten⟩
  have hcomments : ∀ s ∈ ["a comment"], '\n' ∉ s.toList := by
    rw [List.forall_mem_singleton]
    decide
  have hparse : parse " p  cnf +2 0_2 x\nc\n 1 0 -2\n\n 0\n9".toList =
      .ok ⟨⟨2, 2⟩, [[1, -2], []], [1, 2]⟩ := by cbv
  obtain ⟨text, hrender, hread⟩ := parse_render.2 _ _ hparse
  exact ⟨⟨hwritable, hcomments, parse_render.1 _ _ hwritable hcomments⟩, hparse, text, hrender, hread⟩

end SatSearch.Dimacs
