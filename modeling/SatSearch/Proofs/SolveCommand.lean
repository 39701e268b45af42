import SatSearch.Command.Solve
import SatSearch.Proofs.Comments
import SatSearch.Proofs.Formula

/-!
# What the command that solves a file does

The arguments are read back as they were meant (`parse_commandLine`), a file is a formula exactly if its bytes
are the code of a text that spells one (`parseFile_eq_ok_iff`), and the search answers every formula.
Main statement: for every path and whatever stands there, the command ends by itself, and it either refuses the
file or prints the right answer for the formula in it (`solve_command`).
-/

namespace SatSearch

/-! ### The command line -/

namespace Options

theorem classify_of_value (options : List Spec) {s : String} (h : s.startsWith "-" = false) :
    classify options s = .ok (.value s) := by
  rw [classify, h]
  rfl

theorem classify_of_option {options : List Spec} {s : String} {o : Spec} (hdash : s.startsWith "-" = true)
    (hfind : findOption? options s = some o) : classify options s = .ok (.option o none) := by
  rw [classify, hdash, hfind]
  rfl

theorem classifyAll_cons {options : List Spec} {s : String} {rest : List String} {word : Word}
    {words : List Word} (hs : s ≠ "--") (hword : classify options s = .ok word)
    (hrest : classifyAll options rest = .ok words) :
    classifyAll options (s :: rest) = .ok (word :: words) := by
  rw [classifyAll, if_neg hs, hword, hrest]
  rfl

theorem startsWith_dash_eq_false_iff {s : String} :
    s.startsWith "-" = false ↔ s.toList.head? ≠ some '-' := by
  rw [Bool.eq_false_iff, ne_eq, ne_eq, String.startsWith_string_iff]
  refine not_congr ?_
  show ['-'] <+: s.toList ↔ _
  cases s.toList with
  | nil => simp
  | cons c rest => simp [List.cons_prefix_cons, eq_comm]

theorem ne_dashes {s : String} (h : s.startsWith "-" = false) : s ≠ "--" := by
  rintro rfl
  exact startsWith_dash_eq_false_iff.1 h rfl

end Options

/-- The arguments for a path, with the counters or without them, and with a level of the log or none. -/
def commandLine (path : String) (stats : Bool) (level : Option String) : List String :=
  path :: ((if stats then ["--stats"] else []) ++ level.elim [] fun l => ["--log-level", l])

open Options in
theorem classifyAll_commandLine {path : String} (stats : Bool) {level : Option String}
    (hpath : path.startsWith "-" = false) (hlevel : ∀ l ∈ level, l.startsWith "-" = false) :
    classifyAll SolveArguments.grammar.options (commandLine path stats level) =
      .ok (.value path :: ((if stats then [.option statsOption none] else []) ++
        level.elim [] fun l => [.option logLevelOption none, .value l])) := by
  have hlogLevel : classifyAll SolveArguments.grammar.options (level.elim [] fun l => ["--log-level", l]) =
      .ok (level.elim [] fun l => [.option logLevelOption none, .value l]) := by
    cases level with
    | none => rfl
    | some l =>
      have hl := hlevel l rfl
      exact classifyAll_cons (by decide) (classify_of_option (by simp) (by decide))
        (classifyAll_cons (ne_dashes hl) (classify_of_value _ hl) rfl)
  refine classifyAll_cons (ne_dashes hpath) (classify_of_value _ hpath) ?_
  cases stats with
  | false => exact hlogLevel
  | true => exact classifyAll_cons (by decide) (classify_of_option (by simp) (by decide)) hlogLevel

open Options in
theorem parse_commandLine {path : String} (stats : Bool) {level : Option String}
    (hpath : path.startsWith "-" = false) (hlevel : ∀ l ∈ level, l.startsWith "-" = false) :
    SolveArguments.parse (commandLine path stats level) = .ok { file := path, stats, logLevel := level } := by
  have hread : readWords { pending := .one "file", given := [], operands := [], leftOver := [] }
      (.value path :: ((if stats then [.option statsOption none] else []) ++
        level.elim [] fun l => [.option logLevelOption none, .value l])) =
      .ok { pending := .none
            given := (level.elim [] fun l => [(logLevelOption, [.word l])]) ++
              if stats then [(statsOption, [])] else []
            operands := [path]
            leftOver := [] } := by
    cases stats <;> cases level <;>
      simp [readWords, Progress.takeOperands, Progress.leave, Word.value?, Word.isOperand, readOption,
        statsOption, logLevelOption, Spec.long, Progress.give, leadingValues, readValue, ValueKind.read?,
        bind, Except.bind, pure, Except.pure]
  rw [SolveArguments.parse, Options.parse, classifyAll_commandLine stats hpath hlevel]
  dsimp only [SolveArguments.grammar]
  simp only [bind, Except.bind, hread]
  cases stats <;> cases level <;> rfl

theorem thresholds_head? : ∀ p ∈ thresholds, p.1.toList.head? ≠ some '-' := by
  decide

theorem upperChar_dash : Text.upperChar '-' = ['-'] := by
  decide

/-- No name of a threshold starts with a dash, in upper or lower case. -/
theorem startsWith_dash_of_chooseThreshold {l : String} {environment : Option String} {t : Nat}
    (h : chooseThreshold (some l) environment = .ok t) : l.startsWith "-" = false := by
  rw [Options.startsWith_dash_eq_false_iff]
  intro hdash
  have hne : l ≠ "" := by
    rintro rfl
    cases hdash
  have hname : levelName (some l) environment = l := by
    rw [levelName, Option.filter_some, if_pos (decide_eq_true hne)]
  have hupper : (Text.upper l).toList.head? = some '-' := by
    obtain ⟨rest, hrest⟩ := List.head?_eq_some_iff.1 hdash
    rw [Text.upper, hrest]
    simp [upperChar_dash]
  rw [chooseThreshold, hname] at h
  cases hlookup : thresholds.lookup (Text.upper l) with
  | none =>
    rw [hlookup] at h
    cases h
  | some rank =>
    obtain ⟨front, back, hmem, -⟩ := List.lookup_eq_some_iff.1 hlookup
    refine thresholds_head? (Text.upper l, rank) ?_ hupper
    rw [hmem]
    exact List.mem_append_right _ List.mem_cons_self

/-! ### The file -/

/-- A file spells a formula. -/
def Holds (fs : Files) (path : String) (f : Dimacs.Formula) : Prop :=
  ∃ text, fs.read path = .ok (Text.encode text) ∧ Dimacs.Spells (Text.unifyLineEnds text) f

theorem parseFile_eq_ok_iff {bytes : List UInt8} {f : Dimacs.Formula} :
    Dimacs.parseFile bytes = .ok f ↔
      ∃ text, bytes = Text.encode text ∧ Dimacs.Spells (Text.unifyLineEnds text) f := by
  rw [Dimacs.parseFile, Dimacs.decodeFile]
  cases hdecode : Text.decode bytes with
  | error e =>
    have hnone : ¬∃ text, bytes = Text.encode text := by
      rintro ⟨text, htext⟩
      rw [Text.decode_eq_ok_iff.2 htext] at hdecode
      cases hdecode
    refine iff_of_false ?_ ?_
    · rintro ⟨⟩
    · rintro ⟨text, htext, -⟩
      exact hnone ⟨text, htext⟩
  | ok text =>
    have htext := Text.decode_eq_ok_iff.1 hdecode
    show Dimacs.parse (Text.unifyLineEnds text) = .ok f ↔ _
    rw [Dimacs.parse_eq_ok_iff]
    constructor
    · exact fun h => ⟨text, htext, h⟩
    · rintro ⟨text', htext', h⟩
      have heq := hdecode.symm.trans (Text.decode_eq_ok_iff.2 htext')
      rwa [Except.ok.inj heq]

theorem holds_iff {fs : Files} {path : String} {f : Dimacs.Formula} :
    Holds fs path f ↔ ∃ bytes, fs.read path = .ok bytes ∧ Dimacs.parseFile bytes = .ok f := by
  simp only [parseFile_eq_ok_iff, Holds]
  constructor
  · rintro ⟨text, hread, h⟩
    exact ⟨_, hread, text, rfl, h⟩
  · rintro ⟨_, hread, text, rfl, h⟩
    exact ⟨text, hread, h⟩

/-- A file spells one formula at most. -/
theorem Holds.eq {fs : Files} {path : String} {f g : Dimacs.Formula} (hf : Holds fs path f)
    (hg : Holds fs path g) : f = g := by
  obtain ⟨bytes, hread, hparse⟩ := holds_iff.1 hf
  obtain ⟨bytes', hread', hparse'⟩ := holds_iff.1 hg
  rw [hread] at hread'
  cases hread'
  rw [hparse] at hparse'
  exact Except.ok.inj hparse'

theorem holds_of_write {fs fs' : Files} {path : String} {f : Cnf} (hf : Dimacs.Writable f)
    (h : fs.write path (Dimacs.renderFile f []) = .ok fs') : ∃ g, Holds fs' path g ∧ g.clauses = f := by
  obtain ⟨g, hparse, hclauses⟩ := Dimacs.exists_of_harmless hf (List.forall_mem_nil _)
  exact ⟨g, holds_iff.2 ⟨_, Files.read_of_write h, hparse⟩, hclauses⟩

/-! ### The command -/

/-- The command refused the file and printed nothing. -/
structure Refuses (r : CommandResult) : Prop where
  exit : r.exit = 1
  stdout : r.stdout = ""

/-- The counters of a search as they are printed. -/
def printedCounters (cs : Counters) : String :=
  "decisions: " ++ toString (cs.get .decisions) ++ "\n" ++
  "unit_propagations: " ++ toString (cs.get .unitPropagations) ++ "\n" ++
  "backtracks: " ++ toString (cs.get .backtracks) ++ "\n" ++
  "max_depth: " ++ toString (cs.get .maxDepth) ++ "\n"

/-- What is printed for a result, for the times before reading, before and after the search. -/
def printedAnswer (result : String) (started parsed solved : Float) : String :=
  "Finished with result: " ++ result ++ "\n" ++
  "Parsed in: " ++ Decimal.fixed 6 (parsed - started) ++ " seconds" ++ "\n" ++
  "Solved in: " ++ Decimal.fixed 6 (solved - parsed) ++ " seconds" ++ "\n" ++
  "Total time: " ++ Decimal.fixed 6 (solved - started) ++ " seconds" ++ "\n"

/-- The command printed whether the formula can be satisfied, with the counters of the search if they are
asked for, and the times that a clock showed. -/
structure Answers (r : CommandResult) (f : Cnf) (stats : Bool) : Prop where
  exit : r.exit = 0
  stdout : ∃ result started parsed solved,
    (f.Satisfiable → result = "SAT") ∧ (¬f.Satisfiable → result = "UNSAT") ∧
    r.stdout = printedAnswer result started parsed solved ++
      if stats then printedCounters ((State.initial (f.map Clause.ofLiterals)).search none).state.counters else ""

theorem unlines_nil : unlines [] = "" := by
  simp [unlines]

theorem unlines_cons (line : String) (lines : List String) :
    unlines (line :: lines) = line ++ "\n" ++ unlines lines := by
  simp [unlines]

theorem counterLines_eq (cs : Counters) : counterLines cs =
    ["decisions: " ++ toString (cs.get .decisions),
      "unit_propagations: " ++ toString (cs.get .unitPropagations),
      "backtracks: " ++ toString (cs.get .backtracks), "max_depth: " ++ toString (cs.get .maxDepth)] := by
  have htext (s : String) : toString s = s := rfl
  simp [counterLines, Counter.all, Counter.text, htext]

theorem unlines_counterLines (cs : Counters) : unlines (counterLines cs) = printedCounters cs := by
  rw [counterLines_eq]
  unfold printedCounters
  -- The literals stay apart, so that both sides are the same appended pieces.
  simp only [unlines_cons, unlines_nil, String.append_assoc, String.append_empty, -String.reduceAppend]

theorem unlines_answerLines (status : Status) (cs : Counters) (stats : Bool)
    (started parsed solved : Float) : unlines (answerLines status cs stats started parsed solved) =
      printedAnswer status.text started parsed solved ++ if stats then printedCounters cs else "" := by
  have hlines : unlines (if stats then counterLines cs else []) =
      if stats then printedCounters cs else "" := by
    cases stats with
    | false => exact unlines_nil
    | true => exact unlines_counterLines cs
  unfold answerLines printedAnswer
  simp only [List.cons_append, List.nil_append, unlines_cons, hlines, sixPlaces, String.append_assoc,
    -String.reduceAppend]

/-- The word that is printed for an answer. -/
theorem text_of_sat_iff {status : Status} {f : Cnf} (h : status = .sat ↔ f.Satisfiable) :
    (f.Satisfiable → status.text = "SAT") ∧ (¬f.Satisfiable → status.text = "UNSAT") := by
  cases status with
  | sat => exact ⟨fun _ => rfl, fun hf => absurd (h.1 rfl) hf⟩
  | unsat => exact ⟨fun hf => absurd (h.2 hf) (by decide), fun _ => rfl⟩

/-- What cannot be read is refused. -/
theorem readFormula_error {e : FileError} (h : e ≠ .zeroCharacter) :
    readFormula (.error e) = .refused e.message := by
  cases e with
  | fault fault path => rfl
  | zeroCharacter => exact absurd rfl h

theorem exists_solvedResult (fs : Files) (threshold : Nat) (log : List LogLine) (f : Dimacs.Formula)
    (stats : Bool) (started parsed solved : Float) :
    ∃ r, solvedResult fs threshold log ((State.initial f.toClauses).search none) stats started parsed solved =
      .ok r ∧ Answers r f.clauses stats := by
  obtain ⟨status, hsolve, hstatus⟩ := f.clauses.exists_answer
  have hrun : ((State.initial f.toClauses).search none).status = .ok status := by
    have hending : ((State.initial f.toClauses).search none).ending = .answered status := hsolve
    rw [Run.status, hending]
  obtain ⟨hsat, hunsat⟩ := text_of_sat_iff hstatus
  have hclauses : f.clauses.map Clause.ofLiterals = f.toClauses := rfl
  rw [solvedResult, hrun]
  refine ⟨_, rfl, rfl, status.text, started, parsed, solved, hsat, hunsat, ?_⟩
  rw [hclauses]
  dsimp only
  exact unlines_answerLines ..

theorem solveFile_total (w : World) (a : SolveArguments) {threshold : Nat}
    (hlevel : chooseThreshold a.logLevel w.levelVariable = .ok threshold)
    (hzero : Files.hasZero a.file = false) :
    ∃ r, solveFile w a = .ok r ∧ (Refuses r ∧ (¬∃ f, Holds w.files a.file f) ∨
      ∃ f, Holds w.files a.file f ∧ Answers r f.clauses a.stats) := by
  have hlevel' : orAbort [] CommandError.level (chooseThreshold a.logLevel w.levelVariable) =
      .ok threshold := by
    rw [hlevel]
    rfl
  rw [solveFile, hlevel']
  cases hread : w.files.read a.file with
  | error e =>
    have hnone : ¬∃ f, Holds w.files a.file f := by
      rintro ⟨f, hf⟩
      obtain ⟨bytes, hbytes, -⟩ := holds_iff.1 hf
      rw [hread] at hbytes
      cases hbytes
    have hrefused := readFormula_error fun he =>
      Files.read_ne_zeroCharacter hzero (hread.trans (congrArg _ he))
    simp only [bind, Except.bind, hrefused]
    exact ⟨_, rfl, .inl ⟨⟨rfl, rfl⟩, hnone⟩⟩
  | ok bytes =>
    cases hparse : Dimacs.parseFile bytes with
    | error e =>
      have hnone : ¬∃ f, Holds w.files a.file f := by
        rintro ⟨f, hf⟩
        obtain ⟨bytes', hbytes, hf⟩ := holds_iff.1 hf
        rw [hread] at hbytes
        cases hbytes
        rw [hparse] at hf
        cases hf
      simp only [bind, Except.bind, readFormula, hparse]
      exact ⟨_, rfl, .inl ⟨⟨rfl, rfl⟩, hnone⟩⟩
    | ok f =>
      simp only [bind, Except.bind, readFormula, hparse]
      obtain ⟨r, hr, hanswers⟩ := exists_solvedResult ..
      exact ⟨r, hr, .inr ⟨f, holds_iff.2 ⟨bytes, hread, hparse⟩, hanswers⟩⟩

/-- For every path and whatever stands there, the command ends by itself: it refuses the file if no formula
can be read from it, and else prints the right answer. A formula that was written into a file is answered. -/
theorem solve_command (w : World) {path : String} (stats : Bool) {level : Option String} {threshold : Nat}
    (hdash : path.startsWith "-" = false) (hzero : Files.hasZero path = false)
    (hlevel : chooseThreshold level w.levelVariable = .ok threshold) :
    ∃ a r, SolveArguments.parse (commandLine path stats level) = .ok a ∧ solveFile w a = .ok r ∧
      (Refuses r ∧ (¬∃ f, Holds w.files path f) ∨ ∃ f, Holds w.files path f ∧ Answers r f.clauses stats) ∧
      ∀ (f : Cnf) (fs : Files), Dimacs.Writable f → fs.write path (Dimacs.renderFile f []) = .ok w.files →
        Answers r f stats := by
  have hlevelDash : ∀ l ∈ level, l.startsWith "-" = false := by
    rintro l rfl
    exact startsWith_dash_of_chooseThreshold hlevel
  obtain ⟨r, hsolve, hresult⟩ := solveFile_total w { file := path, stats, logLevel := level } hlevel hzero
  refine ⟨_, r, parse_commandLine stats hdash hlevelDash, hsolve, hresult, ?_⟩
  intro f fs hf hwrite
  obtain ⟨g, hholds, rfl⟩ := holds_of_write hf hwrite
  rcases hresult with ⟨-, hnone⟩ | ⟨g', hholds', hanswers⟩
  · exact absurd ⟨g, hholds⟩ hnone
  · rwa [hholds.eq hholds']

/-- Each variable makes the other one true, so that one decision is enough. -/
def eachOther : Cnf :=
  [[1, -2], [2, -1]]

theorem satisfiable_eachOther : eachOther.Satisfiable :=
  ⟨fun _ => true, by decide⟩

theorem printedCounters_eachOther :
    printedCounters ((State.initial (eachOther.map Clause.ofLiterals)).search none).state.counters =
      "decisions: 1\nunit_propagations: 1\nbacktracks: 0\nmax_depth: 1\n" := by
  have hcall : Recurses 0 (State.initial (eachOther.map Clause.ofLiterals)) _ :=
    .first (l := 1) (by decide) rfl (by cbv) (.propagated (by decide) rfl (.satisfied (by decide))) (by decide)
  rw [hcall.search_eq]
  rfl

/-- A world with this formula in a file. -/
def worldWithFormula : World where
  files := (⟨[]⟩ : Files).put ["f"] (.file (Dimacs.renderFile eachOther []))
  surroundings := { clock := ⟨[]⟩, rings := [], alarms := [] }
  levelVariable := none

theorem solve_command_formula :
    ∃ a r started parsed solved, SolveArguments.parse ["f", "--stats", "--log-level", "info"] = .ok a ∧
      solveFile worldWithFormula a = .ok r ∧ r.exit = 0 ∧
      r.stdout = printedAnswer "SAT" started parsed solved ++
        "decisions: 1\nunit_propagations: 1\nbacktracks: 0\nmax_depth: 1\n" := by
  have hdash : "f".startsWith "-" = false := Options.startsWith_dash_eq_false_iff.2 (by decide)
  have hlimit : 10 ≤ 10 ^ Text.digitLimit := Nat.le_self_pow (by decide) 10
  have hwritable : Dimacs.Writable eachOther := by
    refine ⟨by decide, fun c hc l hl => ?_, Nat.lt_of_lt_of_le (m := 10) (by decide) hlimit⟩
    have hshort : ∀ c ∈ eachOther, ∀ l ∈ c, l.natAbs < 10 := by decide
    exact (hshort c hc l hl).trans_le hlimit
  have hwrite : (⟨[]⟩ : Files).write "f" (Dimacs.renderFile eachOther []) = .ok worldWithFormula.files :=
    Files.write_name _ (by decide) (by decide) (by decide) (by decide) (by decide) (by decide)
  obtain ⟨a, r, hparse, hsolve, -, hwritten⟩ :=
    @solve_command worldWithFormula "f" true (some "info") 20 hdash (by decide) (by decide)
  obtain ⟨hexit, result, started, parsed, solved, hsat, -, hstdout⟩ := hwritten _ _ hwritable hwrite
  rw [hsat satisfiable_eachOther, if_pos rfl, printedCounters_eachOther] at hstdout
  exact ⟨a, r, started, parsed, solved, hparse, hsolve, hexit, hstdout⟩

end SatSearch
