import SatSearch.Proofs.Drawn
import SatSearch.Proofs.Labels
import SatSearch.Proofs.TimeLimit

/-!
# What reports on measured rows count

The numbers that a summary prints are a `Tally`. Main statement: for rows that were measured, the numbers of
the summary agree with each other and with the rows, and so do the bars, boxes and points of the charts
(`reports_agree`). Every sum is an instance of `sum_map_countP`: each row is counted under one outcome, one
expected answer and one source.
-/

namespace SatSearch

/-! ### Measured rows -/

namespace Row

/-- Measuring an instance that is labelled with an answer, or not at all, gives this row. -/
def Measured (r : Row) : Prop :=
  ∃ (i : Instance) (timeout : Option Float) (s : Surroundings),
    (∀ label, i.expected = some label → ∃ a : Status, label = a.text) ∧ r = (i.measure timeout s).1.row

/-- The row tells what happened in the words of reports, and whether it was expected. -/
structure Consistent (r : Row) : Prop where
  status : ∃ o : Outcome, r.status = o.text
  expected : ∀ label, r.expected = some label → ∃ a : Status, label = a.text
  isCorrect : r.isCorrect = r.expected.map (r.status == ·)

end Row

namespace Instance

variable {i : Instance} (hlabel : ∀ label, i.expected = some label → ∃ a : Status, label = a.text)

include hlabel

theorem consistent_unloadedRow (e : LoadError) : (i.unloadedRow e).Consistent where
  status := ⟨.error, rfl⟩
  expected := hlabel
  isCorrect := by
    apply Option.map_congr
    intro label h
    obtain ⟨a, rfl⟩ := hlabel label h
    cases a <;> rfl

theorem consistent_row (clauses : List (List Element)) (a : Attempt) (wallTime : Float) :
    (i.row clauses a wallTime).Consistent where
  status := ⟨a.outcome, rfl⟩
  expected := hlabel
  isCorrect := by
    have hfilter : i.expected.filter isAnswer = i.expected := by
      cases h : i.expected with
      | none => rfl
      | some label =>
        obtain ⟨answer, rfl⟩ := hlabel label h
        rw [Option.filter_some, if_pos (isAnswer_text answer)]
    simp only [row, hfilter]

theorem consistent_measure (timeout : Option Float) (s : Surroundings) :
    (i.measure timeout s).1.row.Consistent := by
  unfold measure
  split
  · exact consistent_unloadedRow hlabel _
  · exact consistent_row hlabel _ _ _

end Instance

theorem Row.Measured.consistent {r : Row} (h : r.Measured) : r.Consistent := by
  obtain ⟨i, timeout, s, hlabel, rfl⟩ := h
  exact Instance.consistent_measure hlabel timeout s

/-! ### Summaries -/

/-- The numbers that a summary prints. -/
structure Tally where
  /-- The numerator of the accuracy. -/
  right : Nat
  /-- The denominator of the accuracy. -/
  total : Nat
  /-- The number in the line for an expected answer that stands behind an outcome. -/
  cell : Status → Outcome → Nat
  /-- The number of instances in the mean over an answer. -/
  answered : Status → Nat

namespace Tally

/-- What the line for an expected answer says. -/
def cells (t : Tally) (a : Status) : String :=
  s!"SAT={t.cell a (.answered .sat)}, UNSAT={t.cell a (.answered .unsat)}, " ++
    s!"TIMEOUT={t.cell a .timeout}, ERROR={t.cell a .error}"

/-- The summary with these numbers and these mean times. -/
def lines (t : Tally) (mean : Status → String) : List String :=
  (if t.total = 0 then []
    else
      [s!"Labeled accuracy: {t.right}/{t.total} = " ++ threePlaces (t.right.toFloat / t.total.toFloat),
        "Expected SAT: predicted " ++ t.cells .sat,
        "Expected UNSAT: predicted " ++ t.cells .unsat]) ++
    [Status.sat, Status.unsat].flatMap fun a =>
      if t.answered a = 0 then []
      else ["Mean time (predicted " ++ a.text ++ "): " ++ mean a ++ s!"s over {t.answered a} instances"]

/-- The numbers count rows, and agree with each other. -/
structure Counts (t : Tally) (rows : List Row) : Prop where
  total : t.total = rows.countP (·.expected.isSome)
  cell : ∀ a o, t.cell a o = rows.countP fun r => r.expected == some a.text && r.status == o.text
  cells : (([Status.sat, Status.unsat] ×ˢ Outcome.all).map fun x => t.cell x.1 x.2).sum = t.total
  diagonal : t.cell .sat (.answered .sat) + t.cell .unsat (.answered .unsat) = t.right
  right : t.right = rows.countP (·.isCorrect == some true)
  answered : ∀ a, t.answered a = rows.countP (·.status == a.text)

/-- The numbers that the summary of some rows prints. -/
def ofRows (rows : List Row) : Tally where
  right := correctCount rows
  total := (labelled rows).length
  cell := confusion rows
  answered a := (timesOf rows a).length

end Tally

/-- The mean time of the rows with this answer. -/
def meanTime (rows : List Row) (a : Status) : String :=
  threePlaces (sum (timesOf rows a) / (timesOf rows a).length.toFloat)

theorem confusionLine_eq (rows : List Row) (a : Status) :
    confusionLine rows a = "Expected " ++ a.text ++ ": predicted " ++ (Tally.ofRows rows).cells a := by
  rw [confusionLine, Tally.cells, Outcome.all]
  apply String.toList_injective
  simp only [Outcome.text, Status.text, List.map_cons, List.map_nil, String.intercalate_cons_cons,
    String.intercalate_singleton, String.toList_append, List.append_assoc]
  rfl

theorem meanLine_eq (rows : List Row) (a : Status) :
    meanLine rows a =
      if (Tally.ofRows rows).answered a = 0 then []
      else ["Mean time (predicted " ++ a.text ++ "): " ++ meanTime rows a ++
        s!"s over {(Tally.ofRows rows).answered a} instances"] := by
  unfold meanLine
  split
  · next h =>
    rw [if_pos]
    exact List.length_eq_zero_iff.2 h
  · next h =>
    rw [if_neg]
    · rfl
    · exact fun hempty => h (List.length_eq_zero_iff.1 hempty)

theorem total_ofRows_eq_zero_iff (rows : List Row) :
    (Tally.ofRows rows).total = 0 ↔ (labelled rows).isEmpty = true := by
  rw [List.isEmpty_iff]
  exact List.length_eq_zero_iff

theorem summary_eq (rows : List Row) : summary rows = (Tally.ofRows rows).lines (meanTime rows) := by
  rw [summary, Tally.lines]
  congr 1
  · simp only [total_ofRows_eq_zero_iff, List.map_cons, List.map_nil, confusionLine_eq]
    rfl
  · exact congrArg (List.flatMap · _) (funext (meanLine_eq rows))

/-! ### Bars -/

/-- The bars, given by their labels and heights, count rows: those of an outcome stand for the sources. -/
structure BarsCount (bars : List (String × List Nat)) (rows : List Row) : Prop where
  labels : bars.map Prod.fst = if rows.isEmpty then [] else Outcome.all.map Outcome.text
  bySource : ∃ names : List String, names.Pairwise (· < ·) ∧
    (∀ name, name ∈ names ↔ ∃ r ∈ rows, r.source = name) ∧
    ∀ b ∈ bars, b.2 = names.map fun name => rows.countP fun r => r.source == name && r.status == b.1
  byOutcome : ∀ b ∈ bars, b.2.sum = rows.countP (·.status == b.1)
  all : (bars.map (·.2.sum)).sum = rows.length

/-! ### Agreement -/

theorem Outcome.mem_all (o : Outcome) : o ∈ all := by
  cases o with
  | answered a => cases a <;> decide
  | timeout => decide
  | error => decide

namespace Row.Consistent

variable {r : Row} (h : r.Consistent)

include h

theorem isLabelled_eq : r.isLabelled = r.expected.isSome := by
  rw [isLabelled]
  cases hexpected : r.expected with
  | none => rfl
  | some label =>
    obtain ⟨a, rfl⟩ := h.expected label hexpected
    exact isAnswer_text a

/-- A labelled row is counted under a pair of an expected answer and an outcome. -/
theorem mem_pairs (hsome : r.expected.isSome = true) :
    (r.expected, r.status) ∈
      ([Status.sat, Status.unsat] ×ˢ Outcome.all).map fun x => (some x.1.text, x.2.text) := by
  obtain ⟨label, hlabel⟩ := Option.isSome_iff_exists.1 hsome
  obtain ⟨a, rfl⟩ := h.expected label hlabel
  obtain ⟨o, ho⟩ := h.status
  rw [hlabel, ho, List.mem_map]
  refine ⟨(a, o), List.mem_product.2 ⟨?_, o.mem_all⟩, rfl⟩
  cases a <;> decide

theorem isCorrect_eq_true_iff : r.isCorrect = some true ↔ r.expected = some r.status := by
  rw [h.isCorrect]
  cases r.expected with
  | none => simp
  | some label => rw [Option.map_some, Option.some.injEq, beq_iff_eq, Option.some.injEq, eq_comm]

end Row.Consistent

section Agreement

variable {rows : List Row} (hrows : ∀ r ∈ rows, r.Consistent)

include hrows

theorem labelled_eq : labelled rows = rows.filter (·.expected.isSome) :=
  List.filter_congr fun r hr => (hrows r hr).isLabelled_eq

/-- Only labelled rows have an expected answer to compare with. -/
theorem countP_labelled {p : Row → Bool} (hp : ∀ r, p r = true → r.expected.isSome = true) :
    (labelled rows).countP p = rows.countP p := by
  rw [labelled_eq hrows, List.countP_filter]
  apply List.countP_congr
  intro r _
  rw [Bool.and_eq_true, and_iff_left_iff_imp]
  exact hp r

theorem confusion_eq (a : Status) (o : Outcome) :
    confusion rows a o = rows.countP fun r => r.expected == some a.text && r.status == o.text := by
  apply countP_labelled hrows
  intro r hr
  rw [Bool.and_eq_true, beq_iff_eq] at hr
  rw [hr.1]
  rfl

theorem correctCount_eq : correctCount rows = rows.countP fun r => r.expected == some r.status := by
  apply countP_labelled hrows
  intro r hr
  rw [beq_iff_eq.1 hr]
  rfl

theorem sum_confusion :
    (([Status.sat, Status.unsat] ×ˢ Outcome.all).map fun x => confusion rows x.1 x.2).sum =
      rows.countP (·.expected.isSome) := by
  have hnodup : (([Status.sat, Status.unsat] ×ˢ Outcome.all).map fun x =>
      (some x.1.text, x.2.text)).Nodup := by
    decide
  rw [← sum_map_countP hnodup fun r hr => (hrows r hr).mem_pairs, List.map_map]
  refine congrArg List.sum (List.map_congr_left fun x _ => ?_)
  rw [confusion_eq hrows]
  apply List.countP_congr
  intro r _
  simp only [Bool.and_eq_true, beq_iff_eq, Prod.mk.injEq, iff_self_and, and_imp]
  intro hexpected _
  rw [hexpected]
  rfl

theorem sum_diagonal :
    ([Status.sat, Status.unsat].map fun a => confusion rows a (.answered a)).sum = correctCount rows := by
  have hnodup : ([Status.sat, Status.unsat].map fun a => some a.text).Nodup := by
    decide
  have hmem : ∀ r ∈ rows, (r.expected == some r.status) = true →
      r.expected ∈ [Status.sat, Status.unsat].map fun a => some a.text := by
    intro r hr h
    obtain ⟨a, ha⟩ := (hrows r hr).expected _ (beq_iff_eq.1 h)
    rw [beq_iff_eq.1 h, ha]
    cases a <;> decide
  rw [correctCount_eq hrows, ← sum_map_countP hnodup hmem, List.map_map]
  refine congrArg List.sum (List.map_congr_left fun a _ => ?_)
  rw [confusion_eq hrows]
  apply List.countP_congr
  intro r _
  simp only [Bool.and_eq_true, beq_iff_eq, and_congr_right_iff]
  intro hexpected
  rw [hexpected, Option.some.injEq, eq_comm]
  rfl

theorem counts_ofRows : (Tally.ofRows rows).Counts rows where
  total := by
    rw [List.countP_eq_length_filter, ← labelled_eq hrows]
    rfl
  cell := confusion_eq hrows
  cells := by
    rw [Tally.ofRows, sum_confusion hrows, labelled_eq hrows, ← List.countP_eq_length_filter]
  diagonal := by
    have hsum := sum_diagonal hrows
    simpa [Tally.ofRows] using hsum
  right := by
    rw [Tally.ofRows, correctCount_eq hrows]
    apply List.countP_congr
    intro r hr
    rw [beq_iff_eq, beq_iff_eq, (hrows r hr).isCorrect_eq_true_iff]
  answered a := by
    show (timesOf rows a).length = _
    rw [timesOf, List.length_map, ← List.countP_eq_length_filter]
    rfl

/-- Every row has one outcome, so the outcomes together are as many as the rows. -/
theorem sum_countP_hasOutcome :
    (Outcome.all.map fun o => rows.countP (Row.hasOutcome o)).sum = rows.length := by
  have hnodup : (Outcome.all.map Outcome.text).Nodup := by
    decide
  have hmem : ∀ r ∈ rows, true = true → r.status ∈ Outcome.all.map Outcome.text := by
    intro r hr _
    obtain ⟨o, ho⟩ := (hrows r hr).status
    rw [ho]
    exact List.mem_map_of_mem o.mem_all
  rw [← List.countP_true, ← sum_map_countP hnodup hmem, List.map_map]
  simp only [Bool.and_true]
  rfl

theorem barsCount_resultCharts (directory : String) :
    BarsCount ((resultCharts rows directory).flatMap SavedChart.barRows) rows := by
  have hbar : ∀ b ∈ (resultCharts rows directory).flatMap SavedChart.barRows,
      ∃ o : Outcome, b = (o.text, (sources rows).map fun name => outcomeCount rows name o) := by
    intro b hb
    rw [barRows_resultCharts] at hb
    split at hb
    · cases hb
    · obtain ⟨o, -, rfl⟩ := List.mem_map.1 hb
      exact ⟨o, rfl⟩
  refine ⟨?_, ⟨sources rows, pairwise_sources rows, fun name => mem_sources, ?_⟩, ?_, ?_⟩
  · rw [barRows_resultCharts]
    split <;> rfl
  · intro b hb
    obtain ⟨o, rfl⟩ := hbar b hb
    rfl
  · intro b hb
    obtain ⟨o, rfl⟩ := hbar b hb
    exact sum_outcomeCount rows o
  · rw [barRows_resultCharts]
    split
    · next h =>
      rw [List.isEmpty_iff.1 h]
      rfl
    · rw [List.map_map]
      simp only [Function.comp_def, sum_outcomeCount]
      exact sum_countP_hasOutcome hrows

end Agreement

/-- Rows that measurements of labelled and unlabelled instances gave, in any number and order, are counted
alike everywhere. The two lines of the summary about expected answers hold eight numbers, which add up to the
number of labelled rows; those on the diagonal add up to the numerator of the accuracy, and this is the number
of rows found correct. The mean times are over the rows with each answer. The bars of an outcome, one for each
source, add up to the rows with this outcome, and all bars to all rows. There is a box for each answer that
occurs, which holds the times of the rows with this answer, and a point for each row with an answer. -/
theorem reports_agree {rows : List Row} (hrows : ∀ r ∈ rows, r.Measured) (directory : String) :
    (∃ t : Tally, summary rows = t.lines (meanTime rows) ∧ t.Counts rows) ∧
      BarsCount ((resultCharts rows directory).flatMap SavedChart.barRows) rows ∧
      (resultCharts rows directory).flatMap SavedChart.labelledBoxes =
        ([Status.sat, Status.unsat].filter fun a => rows.any (·.status == a.text)).map (fun a =>
          (some a.text, (rows.filter (·.status == a.text)).map fun r => Value.real r.wallTime)) ∧
      (resultCharts rows directory).flatMap SavedChart.dots =
        (rows.filter fun r => isAnswer r.status).map fun r => (r.decisions, r.wallTime, r.variableCount) := by
  have hconsistent : ∀ r ∈ rows, r.Consistent := fun r hr => (hrows r hr).consistent
  exact ⟨⟨Tally.ofRows rows, summary_eq rows, counts_ofRows hconsistent⟩,
    barsCount_resultCharts hconsistent directory, labelledBoxes_resultCharts rows directory,
    dots_resultCharts rows directory⟩

/-- There is nothing to satisfy. -/
def noClauses : Instance where
  name := "no clauses"
  source := "file"
  load := .ofCnf []
  expected := some Status.sat.text

/-- Nothing satisfies an empty clause, but that is not known beforehand. -/
def emptyClause : Instance where
  name := "empty clause"
  source := "random"
  load := .ofCnf [[]]
  expected := none

/-- The clauses cannot be had. -/
def lostFormula : Instance where
  name := "lost formula"
  source := "file"
  load := { clauses := .error (.foreign "KeyError" "lost"), log := [] }
  expected := some Status.unsat.text

/-- The first alarm rings before anything is reported. -/
def ringingAtOnce : Surroundings where
  clock := ⟨[0.0, 1.5]⟩
  rings := [(0, 0)]
  alarms := []

/-- One row for each outcome. -/
def mixedRows : List Row :=
  [(noClauses.measure none ringingAtOnce).1.row, (emptyClause.measure none ringingAtOnce).1.row,
    (noClauses.measure (some 2.5) ringingAtOnce).1.row, (lostFormula.measure none ringingAtOnce).1.row]

/-- The expected answer and the status of each of them. -/
def mixedPairs : List (Option String × String) :=
  [(some "SAT", "SAT"), (none, "UNSAT"), (some "SAT", "TIMEOUT"), (some "UNSAT", "ERROR")]

theorem map_mixedRows : mixedRows.map (fun r => (r.expected, r.status)) = mixedPairs := by
  have hsat : (Attempt.ofRun ((startState (Load.places [])).search none)).outcome = .answered .sat := by
    rw [State.search, (Search.Final.satisfied (by decide)).runFrom_eq]
    rfl
  have hunsat : (Attempt.ofRun ((startState (Load.places [[]])).search none)).outcome = .answered .unsat := by
    rw [State.search, (Search.Final.falsified (by decide) (by decide)).runFrom_eq]
    rfl
  have hexpired : (Attempt.ofRun ((startState (Load.places [])).search (some 0))).outcome = .timeout := by
    rw [State.search, Search.runFrom_zero]
    rfl
  have hring : ringingAtOnce.nextRing = some 0 := rfl
  have hseconds : alarmSeconds (some 2.5) = .ok (some 2) := rfl
  obtain ⟨_, hfree, -⟩ := Instance.measure_none (i := noClauses) rfl ringingAtOnce
  obtain ⟨_, hempty, -⟩ := Instance.measure_none (i := emptyClause) rfl ringingAtOnce
  obtain ⟨_, htimed, -⟩ :=
    Instance.measure_some (i := noClauses) (s := ringingAtOnce) rfl hseconds rfl
  rw [mixedRows, hfree, hempty, htimed, hring]
  show [(_, Outcome.text _), (_, Outcome.text _), (_, Outcome.text _), (_, "ERROR")] = _
  rw [hsat, hunsat, hexpired]
  rfl

theorem measured_of_mem_mixedRows : ∀ r ∈ mixedRows, r.Measured := by
  have hmeasured : ∀ (a : Status) (i : Instance), i.expected = none ∨ i.expected = some a.text →
      ∀ timeout, (i.measure timeout ringingAtOnce).1.row.Measured := by
    intro a i h timeout
    refine ⟨i, timeout, ringingAtOnce, ?_, rfl⟩
    intro label hlabel
    rcases h with h | h
    · rw [h] at hlabel
      cases hlabel
    · exact ⟨a, Option.some.inj (hlabel.symm.trans h)⟩
  rw [mixedRows]
  simp only [List.forall_mem_cons]
  refine ⟨hmeasured .sat _ (.inr rfl) none, hmeasured .sat _ (.inl rfl) none,
    hmeasured .sat _ (.inr rfl) (some 2.5), hmeasured .unsat _ (.inr rfl) none, ?_⟩
  intro r hr
  cases hr

theorem reports_agree_mixedRows :
    (∀ r ∈ mixedRows, r.Measured) ∧
      (∃ t : Tally, summary mixedRows = t.lines (meanTime mixedRows) ∧ t.total = 3 ∧ t.right = 1 ∧
        t.cell .sat .timeout = 1 ∧ t.cell .unsat .error = 1 ∧ t.answered .unsat = 1) ∧
      (((resultCharts mixedRows "charts").flatMap SavedChart.barRows).map (·.2.sum)).sum = 4 ∧
      ((resultCharts mixedRows "charts").flatMap SavedChart.labelledBoxes).map (·.1) =
        [some "SAT", some "UNSAT"] ∧
      ((resultCharts mixedRows "charts").flatMap SavedChart.dots).length = 2 := by
  obtain ⟨⟨t, hlines, hcounts⟩, hbars, hboxes, hdots⟩ := reports_agree measured_of_mem_mixedRows "charts"
  have hcount : ∀ p : Option String × String → Bool,
      mixedRows.countP (fun r => p (r.expected, r.status)) = mixedPairs.countP p := by
    intro p
    rw [← map_mixedRows, List.countP_map]
    rfl
  have hcell : ∀ a o, t.cell a o = mixedPairs.countP fun x => x.1 == some a.text && x.2 == o.text := by
    intro a o
    rw [hcounts.cell, ← hcount]
  have hany : ∀ a : Status, mixedRows.any (·.status == a.text) = true := by
    intro a
    have hmap : (mixedRows.map fun r => (r.expected, r.status)).any (·.2 == a.text) =
        mixedRows.any (·.status == a.text) := List.any_map
    rw [← hmap, map_mixedRows]
    cases a <;> rfl
  have htotal : t.total = 3 := by
    rw [hcounts.total, hcount fun x => x.1.isSome]
    rfl
  have hright : t.right = 1 := by
    rw [← hcounts.diagonal, hcell, hcell]
    rfl
  refine ⟨measured_of_mem_mixedRows, ⟨t, hlines, htotal, hright, ?_, ?_, ?_⟩, hbars.all, ?_, ?_⟩
  · rw [hcell]
    rfl
  · rw [hcell]
    rfl
  · rw [hcounts.answered, hcount fun x => x.2 == Status.unsat.text]
    rfl
  · rw [hboxes]
    simp only [hany]
    rfl
  · rw [hdots, List.length_map, ← List.countP_eq_length_filter, hcount fun x => isAnswer x.2]
    rfl

end SatSearch
