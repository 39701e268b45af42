import SatSearch.Proofs.Paths
import SatSearch.Proofs.RoundTrip
import SatSearch.Proofs.Utf8

/-!
# Comments in files

A comment is written as it is, and a file has more line ends than a text. A comment with a line end in it goes
on in lines of its own, and these are read like any others. Main statement: a formula written into a file with
comments is read back for certain if and only if all lines of the comments behind their first ones are passed
over (`reads_back_iff`).
-/

namespace SatSearch.Dimacs

open SatSearch.Text

/-! ### Lines of files -/

/-- The lines of a file that say something. -/
def fileLines (text : List Char) : List (List Char) :=
  significantLines (unifyLineEnds text)

theorem unifyLineEnds_cons {c : Char} {s : List Char} (h : c = '\r' → s.head? ≠ some '\n') :
    unifyLineEnds (c :: s) = (if c = '\r' then '\n' else c) :: unifyLineEnds s := by
  rw [unifyLineEnds]
  rintro rest rfl rfl
  exact h rfl rfl

/-- A carriage return at the end of a text takes the line feed behind the text along. -/
theorem unifyLineEnds_append (s t : List Char) :
    unifyLineEnds (s ++ '\n' :: t) = unifyLineEnds s ++ '\n' :: unifyLineEnds t ∨
      ∃ s', unifyLineEnds s = s' ++ ['\n'] ∧
        unifyLineEnds (s ++ '\n' :: t) = unifyLineEnds s ++ unifyLineEnds t := by
  fun_induction unifyLineEnds s with
  | case1 => exact .inl (unifyLineEnds_cons fun h => absurd h (by decide))
  | case2 rest ih =>
    rw [List.cons_append, List.cons_append, unifyLineEnds]
    rcases ih with h | ⟨s', hs', h⟩
    · exact .inl (by rw [h, List.cons_append])
    · exact .inr ⟨'\n' :: s', by rw [hs', List.cons_append], by rw [h, List.cons_append]⟩
  | case3 c rest hrest ih =>
    by_cases hlast : c = '\r' ∧ rest = []
    · obtain ⟨rfl, rfl⟩ := hlast
      exact .inr ⟨[], rfl, by rw [List.cons_append, List.nil_append, unifyLineEnds]; rfl⟩
    · have hhead : c = '\r' → (rest ++ '\n' :: t).head? ≠ some '\n' := by
        rintro rfl
        cases rest with
        | nil => exact absurd ⟨rfl, rfl⟩ hlast
        | cons d rest =>
          rintro ⟨⟩
          exact hrest rest rfl rfl
      rw [List.cons_append, unifyLineEnds_cons hhead]
      rcases ih with h | ⟨s', hs', h⟩
      · exact .inl (by rw [h, List.cons_append])
      · exact .inr ⟨_ :: s', by rw [hs', List.cons_append], by rw [h, List.cons_append]⟩

theorem fileLines_append (s t : List Char) : fileLines (s ++ '\n' :: t) = fileLines s ++ fileLines t := by
  rcases unifyLineEnds_append s t with h | ⟨s', hs', h⟩
  · rw [fileLines, h, significantLines_append]
    rfl
  · rw [fileLines, fileLines, h, hs', List.append_assoc, List.singleton_append, significantLines_append,
      significantLines_append, significantLines_nil, List.append_nil]
    rfl

theorem fileLines_nil : fileLines [] = [] :=
  rfl

theorem IsSignificant.fileLines_eq {line : List Char} (h : IsSignificant line) : fileLines line = [line] := by
  rw [fileLines, unifyLineEnds_eq_self h.no_return, h.significantLines_eq]

theorem fileLines_render {f : Cnf} (h : Writable f) (comments : List String) :
    fileLines (render f comments).toList =
      (comments.flatMap fun s => fileLines ("c " ++ s).toList) ++ formulaLines f := by
  have hlines : (formulaLines f).flatMap fileLines = (formulaLines f).flatMap significantLines :=
    List.flatMap_congr fun l hl => by
      have := isSignificant_of_mem_formulaLines h l hl
      rw [this.fileLines_eq, this.significantLines_eq]
  rw [toList_render, fileLines_append, apply_intercalate fileLines_nil fileLines_append,
    List.flatMap_append, hlines,
    flatMap_significantLines (isSignificant_of_mem_formulaLines h), List.flatMap_map]
  exact List.append_nil _

/-! ### Harmless comments -/

/-- All lines of a comment behind the first one are passed over. -/
def Harmless (comment : String) : Prop :=
  ∀ line ∈ (lines (unifyLineEnds comment.toList)).tail, isRedundant (strip line) = true

theorem fileLines_comment_eq_nil_iff {s : String} : fileLines ("c " ++ s).toList = [] ↔ Harmless s := by
  obtain ⟨first, more, hlines⟩ := List.exists_cons_of_ne_nil (lines_ne_nil (unifyLineEnds s.toList))
  have hcomment : lines (unifyLineEnds ("c " ++ s).toList) = ('c' :: ' ' :: first) :: more := by
    have hunified : unifyLineEnds ("c " ++ s).toList = 'c' :: ' ' :: unifyLineEnds s.toList := by
      rw [String.toList_append]
      show unifyLineEnds ('c' :: ' ' :: s.toList) = _
      rw [unifyLineEnds_cons fun h => absurd h (by decide), unifyLineEnds_cons fun h => absurd h (by decide)]
      rfl
    rw [hunified, lines, lines, hlines]
    rfl
  have hfirst : isRedundant (strip ('c' :: ' ' :: first)) = true := by
    obtain ⟨t, ht⟩ := exists_strip_cons (c := 'c') (by decide) (' ' :: first)
    rw [ht]
    rfl
  rw [fileLines, significantLines, hcomment, Harmless, hlines, List.filter_eq_nil_iff]
  simp [hfirst]

/-- What is read depends on the lines that say something. -/
theorem parse_congr {s t : List Char} (h : significantLines s = significantLines t) : parse s = parse t := by
  rw [parse, parse, splitHeader, splitHeader, h]

theorem parseFile_encode (text : List Char) : parseFile (encode text) = parse (unifyLineEnds text) := by
  rw [parseFile, decodeFile, decode_eq_ok_iff.2 rfl]
  rfl

theorem parseFile_renderFile (f : Cnf) (comments : List String) :
    parseFile (renderFile f comments) = parse (unifyLineEnds (render f comments).toList) :=
  parseFile_encode _

theorem exists_of_harmless {f : Cnf} (h : Writable f) {comments : List String}
    (hcomments : ∀ s ∈ comments, Harmless s) :
    ∃ g, parseFile (renderFile f comments) = .ok g ∧ g.clauses = f := by
  have hnil : (comments.flatMap fun s => fileLines ("c " ++ s).toList) = [] := by
    rw [List.flatMap_eq_nil_iff]
    exact fun s hs => fileLines_comment_eq_nil_iff.2 (hcomments s hs)
  have hsame : significantLines (unifyLineEnds (render f comments).toList) =
      significantLines (render f []).toList := by
    rw [significantLines_render h (List.forall_mem_nil _)]
    refine (fileLines_render h comments).trans ?_
    rw [hnil, List.nil_append]
  have hparse := parse_eq_ok_iff.2 (spells_render h (List.forall_mem_nil _))
  exact ⟨_, by rw [parseFile_renderFile, parse_congr hsame, hparse], rfl⟩

/-- The line that is taken for the header declares the number of clauses that are read. -/
theorem exists_header_of_parse {text first : List Char} {more : List (List Char)} {g : Formula}
    (hlines : significantLines text = first :: more) (h : parse text = .ok g) :
    ∃ header, parseHeader first = .ok header ∧ header.clauseCount = g.clauses.length := by
  have hspells := parse_eq_ok_iff.1 h
  obtain ⟨line, rest, hlines', hheader, -⟩ := hspells.lines
  rw [hlines, List.cons_eq_cons] at hlines'
  refine ⟨g.toHeader, parseHeader_eq_ok_iff.2 (hlines'.1 ▸ hheader), ?_⟩
  exact congrArg (·.clauseCount) hspells.eq_counted

/-- Where a line of a comment is taken for the header, it declares one number of clauses for every formula. -/
theorem exists_count_of_not_harmless {comments : List String} (h : ¬ ∀ s ∈ comments, Harmless s) :
    ∃ m : Int, ∀ f g, Writable f → parseFile (renderFile f comments) = .ok g → g.clauses.length = m := by
  have hne : (comments.flatMap fun s => fileLines ("c " ++ s).toList) ≠ [] := by
    rw [Ne, List.flatMap_eq_nil_iff]
    exact fun hnil => h fun s hs => fileLines_comment_eq_nil_iff.1 (hnil s hs)
  obtain ⟨first, more, hlines⟩ := List.exists_cons_of_ne_nil hne
  have hcount (f g) (hf : Writable f) (hread : parseFile (renderFile f comments) = .ok g) :
      ∃ header, parseHeader first = .ok header ∧ header.clauseCount = g.clauses.length := by
    have hrender := fileLines_render hf comments
    rw [hlines, List.cons_append] at hrender
    rw [parseFile_renderFile] at hread
    exact exists_header_of_parse hrender hread
  cases hfirst : parseHeader first with
  | error e =>
    refine ⟨0, fun f g hf hread => ?_⟩
    obtain ⟨header, hheader, -⟩ := hcount f g hf hread
    rw [hfirst] at hheader
    cases hheader
  | ok header =>
    refine ⟨header.clauseCount, fun f g hf hread => ?_⟩
    obtain ⟨header', hheader, hlength⟩ := hcount f g hf hread
    rw [hfirst] at hheader
    cases hheader
    exact hlength.symm

theorem writable_nil : Writable [] :=
  ⟨List.forall_mem_nil _, List.forall_mem_nil _, Nat.pow_pos (by decide)⟩

theorem writable_empty_clause : Writable [[]] :=
  ⟨by simp, by simp, Nat.one_lt_pow (by decide) (by decide)⟩

/-- A formula is read back from a file for certain if and only if the comments in it are harmless. -/
theorem reads_back_iff (comments : List String) :
    (∀ (f : Cnf) (fs fs' : Files) (path : String), Writable f →
      fs.write path (renderFile f comments) = .ok fs' →
        ∃ bytes g, fs'.read path = .ok bytes ∧ parseFile bytes = .ok g ∧ g.clauses = f) ↔
      ∀ s ∈ comments, Harmless s := by
  constructor
  · intro hall
    by_contra hcomments
    obtain ⟨m, hm⟩ := exists_count_of_not_harmless hcomments
    have hlength (f : Cnf) (hf : Writable f) : (f.length : Int) = m := by
      have hwrite : (⟨[]⟩ : Files).write "f" (renderFile f comments) = .ok _ :=
        Files.write_name _ (by decide) (by decide) (by decide) (by decide) (by decide) (by decide)
      obtain ⟨bytes, g, hread, hparse, rfl⟩ := hall f _ _ _ hf hwrite
      rw [Files.read_of_write hwrite] at hread
      cases hread
      exact hm g.clauses g hf hparse
    have hzero := hlength [] writable_nil
    have hone := hlength [[]] writable_empty_clause
    rw [← hzero] at hone
    exact absurd hone (by decide)
  · intro hcomments f fs fs' path hf hwrite
    obtain ⟨g, hparse, hclauses⟩ := exists_of_harmless hf hcomments
    exact ⟨_, g, Files.read_of_write hwrite, hparse, hclauses⟩

/-- The second line of a comment is taken for the header. -/
theorem not_reads_back_two_lines :
    ∃ fs', (⟨[]⟩ : Files).write "o.cnf" (renderFile [[1, -5], [5], []] ["two\nlines"]) = .ok fs' ∧
      ∃ bytes, fs'.read "o.cnf" = .ok bytes ∧ parseFile bytes = .error (.notCnf "lines") := by
  have hwrite : (⟨[]⟩ : Files).write "o.cnf" (renderFile [[1, -5], [5], []] ["two\nlines"]) = .ok _ :=
    Files.write_name _ (by decide) (by decide) (by decide) (by decide) (by decide) (by decide)
  have hparse : parse (unifyLineEnds (render [[1, -5], [5], []] ["two\nlines"]).toList) =
      .error (.notCnf "lines") := by cbv
  exact ⟨_, hwrite, _, Files.read_of_write hwrite, (parseFile_renderFile _ _).trans hparse⟩

end SatSearch.Dimacs
