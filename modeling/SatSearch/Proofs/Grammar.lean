import SatSearch.Dimacs.Parser
import SatSearch.Proofs.Lists
import SatSearch.Proofs.Numerals
import SatSearch.Proofs.Variables

/-!
# The grammar of DIMACS texts

`Spells text f` says, without the reader, that a text spells a formula: its first significant line declares
two numbers, so many of the lines behind it list the clauses, and the declared number of variables is that
of the variables that occur. Main statement: the reader accepts exactly these texts, with this formula, and
refuses all others for a reason that lies in the text (`parse_accepts`).
-/

namespace SatSearch.Dimacs

open SatSearch.Text

/-! ### The grammar -/

/-- A header declares two numbers. Words behind them are ignored. -/
def SpellsHeader (line : List Char) (h : Header) : Prop :=
  ∃ v m more, words line = ['p'] :: ['c', 'n', 'f'] :: v :: m :: more ∧
    Numeral v h.variableCount ∧ Numeral m h.clauseCount

/-- The words of a clause are numerals. Zeros among them are dropped, wherever they stand. -/
def SpellsClause (line : List Char) (c : List Literal) : Prop :=
  ∃ numbers, List.Forall₂ Numeral (words line) numbers ∧ c = numbers.filter (· ≠ 0)

/-- The significant lines are a header, the declared number of clauses, and anything behind them. -/
structure Spells (text : List Char) (f : Formula) : Prop where
  lines : ∃ header rest, significantLines text = header :: rest ∧ SpellsHeader header f.toHeader ∧
    0 ≤ f.clauseCount ∧ f.clauseCount ≤ rest.length ∧
    List.Forall₂ SpellsClause (rest.take f.clauseCount.toNat) f.clauses
  variableCount : f.variableCount = (Cnf.variableSet f.clauses).card
  ascending : f.variables.Pairwise (· < ·)
  variableSet : f.variables.toFinset = Cnf.variableSet f.clauses

/-! ### The reader accepts the grammar -/

theorem parseNumber_eq_ok_iff {word : List Char} {n : Int} :
    parseNumber word = .ok n ↔ Numeral word n := by
  rw [← integer?_eq_some_iff, parseNumber]
  cases integer? word <;> simp

theorem parseClause_eq_ok_iff {line : List Char} {c : List Literal} :
    parseClause line = .ok c ↔ SpellsClause line c := by
  have hnumbers : ∀ ns, (words line).mapM parseNumber = .ok ns ↔
      List.Forall₂ Numeral (words line) ns := by
    intro ns
    simp only [mapM_eq_ok_iff, parseNumber_eq_ok_iff]
  simp only [SpellsClause, ← hnumbers, parseClause]
  cases (words line).mapM parseNumber with
  | error e => simp [bind, Except.bind]
  | ok ns => simp [bind, Except.bind, pure, Except.pure, eq_comm]

theorem parseHeader_eq_ok_iff {line : List Char} {h : Header} :
    parseHeader line = .ok h ↔ SpellsHeader line h := by
  constructor
  · intro e
    unfold parseHeader at e
    split at e
    · next p cnf rest hwords =>
      split_ifs at e with hpcnf
      obtain ⟨rfl, rfl⟩ := hpcnf
      split at e
      · next v m more =>
        split at e
        · next vn mn hv hm =>
          cases e
          exact ⟨v, m, more, hwords, integer?_eq_some_iff.1 hv, integer?_eq_some_iff.1 hm⟩
        · cases e
      · cases e
    · cases e
  · rintro ⟨v, m, more, hwords, hv, hm⟩
    simp [parseHeader, hwords, integer?_eq_some_iff.2 hv, integer?_eq_some_iff.2 hm]

theorem splitHeader_eq_ok_iff {text : List Char} {h : Header} {rest : List (List Char)} :
    splitHeader text = .ok (h, rest) ↔
      ∃ header, significantLines text = header :: rest ∧ SpellsHeader header h := by
  unfold splitHeader
  cases significantLines text with
  | nil => simp
  | cons line more =>
    simp only [← parseHeader_eq_ok_iff, List.cons.injEq]
    cases hline : parseHeader line with
    | error e => simp [bind, Except.bind, hline]
    | ok h' => simp [bind, Except.bind, pure, Except.pure, hline, and_comm]

theorem mapM_parseClause_eq_ok_iff {rest : List (List Char)} {f : Cnf} :
    rest.mapM parseClause = .ok f ↔ List.Forall₂ SpellsClause rest f := by
  simp only [mapM_eq_ok_iff, parseClause_eq_ok_iff]

theorem parseBody_eq_ok_iff {h : Header} {rest : List (List Char)} {f : Formula} :
    parseBody h rest = .ok f ↔
      f.toHeader = h ∧ List.Forall₂ SpellsClause (rest.take h.clauseCount.toNat) f.clauses ∧
        (f.clauses.length : Int) = h.clauseCount ∧
        (f.variables.length : Int) = h.variableCount ∧ f.variables = Cnf.variables f.clauses := by
  simp only [← mapM_parseClause_eq_ok_iff, parseBody]
  cases (rest.take h.clauseCount.toNat).mapM parseClause with
  | error e => simp [bind, Except.bind]
  | ok clauses =>
    simp only [bind, Except.bind, pure, Except.pure, throw, throwThe, MonadExceptOf.throw, ne_eq, ite_not]
    constructor
    · intro e
      split_ifs at e with hclauses hvariables
      cases e
      exact ⟨rfl, rfl, hclauses, hvariables, rfl⟩
    · rintro ⟨rfl, ⟨⟩, hclauses, hvariables, hoccurring⟩
      rw [← hoccurring, if_pos hclauses, if_pos hvariables]

theorem length_of_forall₂_take {α β : Type} {r : α → β → Prop} {as : List α} {bs : List β} {m : Int}
    (h : List.Forall₂ r (as.take m.toNat) bs) :
    (bs.length : Int) = m ↔ 0 ≤ m ∧ m ≤ as.length := by
  have hlength := h.length_eq
  rw [List.length_take] at hlength
  omega

theorem parse_eq_ok_iff {text : List Char} {f : Formula} : parse text = .ok f ↔ Spells text f := by
  constructor
  · intro e
    unfold parse at e
    cases hsplit : splitHeader text with
    | error e' =>
      rw [hsplit] at e
      cases e
    | ok split =>
      obtain ⟨h, rest⟩ := split
      rw [hsplit] at e
      obtain ⟨rfl, hclauses, hcount, hnumber, hvariables⟩ := parseBody_eq_ok_iff.1 e
      obtain ⟨header, hlines, hheader⟩ := splitHeader_eq_ok_iff.1 hsplit
      obtain ⟨hnonneg, henough⟩ := (length_of_forall₂_take hclauses).1 hcount
      obtain ⟨hascending, hset⟩ := Cnf.eq_variables_iff.1 hvariables
      refine ⟨⟨header, rest, hlines, hheader, hnonneg, henough, hclauses⟩, ?_, hascending, hset⟩
      rw [← hnumber, hvariables, Cnf.length_variables]
  · rintro ⟨⟨header, rest, hlines, hheader, hnonneg, henough, hclauses⟩, hnumber, hascending, hset⟩
    have hvariables := Cnf.eq_variables_iff.2 ⟨hascending, hset⟩
    unfold parse
    rw [splitHeader_eq_ok_iff.2 ⟨header, hlines, hheader⟩]
    refine parseBody_eq_ok_iff.2 ⟨rfl, hclauses, ?_, ?_, hvariables⟩
    · exact (length_of_forall₂_take hclauses).2 ⟨hnonneg, henough⟩
    · rw [hvariables, Cnf.length_variables, hnumber]

/-! ### What is wrong with other texts -/

theorem parseHeader_ne_notText (line : List Char) (u : Utf8Error) :
    parseHeader line ≠ .error (.notText u) := by
  unfold parseHeader
  split
  · split_ifs
    · split
      · split <;> simp
      · simp
    · simp
  · simp

theorem splitHeader_ne_notText (text : List Char) (u : Utf8Error) :
    splitHeader text ≠ .error (.notText u) := by
  unfold splitHeader
  split
  · simp
  · next line rest _ =>
    cases hline : parseHeader line with
    | error e =>
      rintro ⟨⟩
      exact parseHeader_ne_notText line u hline
    | ok h => simp [bind, Except.bind, pure, Except.pure]

theorem parseClause_ne_notText (line : List Char) (u : Utf8Error) :
    parseClause line ≠ .error (.notText u) := by
  unfold parseClause
  cases hnumbers : (words line).mapM parseNumber with
  | error e =>
    rintro ⟨⟩
    obtain ⟨word, -, hword⟩ := exists_mem_of_mapM_eq_error hnumbers
    unfold parseNumber at hword
    split at hword <;> cases hword
  | ok numbers => simp [bind, Except.bind, pure, Except.pure]

theorem parseBody_ne_notText (h : Header) (rest : List (List Char)) (u : Utf8Error) :
    parseBody h rest ≠ .error (.notText u) := by
  unfold parseBody
  cases hclauses : (rest.take h.clauseCount.toNat).mapM parseClause with
  | error e =>
    rintro ⟨⟩
    obtain ⟨line, -, hline⟩ := exists_mem_of_mapM_eq_error hclauses
    exact parseClause_ne_notText line u hline
  | ok clauses =>
    simp only [bind, Except.bind, pure, Except.pure, throw, throwThe, MonadExceptOf.throw, ne_eq,
      ite_not]
    split_ifs <;> simp

theorem parse_ne_notText (text : List Char) (u : Utf8Error) : parse text ≠ .error (.notText u) := by
  unfold parse
  cases hsplit : splitHeader text with
  | error e =>
    rintro ⟨⟩
    exact splitHeader_ne_notText text u hsplit
  | ok split => exact parseBody_ne_notText split.1 split.2 u

/-- Reading accepts exactly the texts of the grammar, and gives the formula they spell. It refuses every
other text, and then for what stands in the text, not for how the text came about. -/
theorem parse_accepts (text : List Char) :
    (∀ f, parse text = .ok f ↔ Spells text f) ∧
      ((∃ f, Spells text f) ∨ ∃ e, parse text = .error e ∧ ∀ u, e ≠ .notText u) := by
  refine ⟨fun f => parse_eq_ok_iff, ?_⟩
  cases hparse : parse text with
  | error e =>
    refine .inr ⟨e, rfl, ?_⟩
    rintro u rfl
    exact parse_ne_notText text u hparse
  | ok f => exact .inl ⟨f, parse_eq_ok_iff.1 hparse⟩

end SatSearch.Dimacs
