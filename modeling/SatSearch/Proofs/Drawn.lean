import SatSearch.Bench.Charts
import SatSearch.Proofs.Lists

/-!
# What charts of results show

A chart is read back from the steps that draw it: its bars (`SavedChart.barRows`), its boxes with the labels
below them (`SavedChart.labelledBoxes`) and its points (`SavedChart.dots`). The bars of one outcome stand for
the sources, which are listed once each (`pairwise_sources`), so their heights add up to all rows with that
outcome (`sum_outcomeCount`).
-/

namespace SatSearch

/-! ### Sources -/

section EraseReps

variable {α : Type} [BEq α] [LawfulBEq α]

theorem mem_eraseReps_loop (x a : α) (as seen : List α) :
    x ∈ List.eraseRepsBy.loop (· == ·) a as seen ↔ x ∈ seen ∨ x = a ∨ x ∈ as := by
  induction as generalizing a seen with
  | nil => simp [List.eraseRepsBy.loop, or_comm]
  | cons b as ih =>
    rw [List.eraseRepsBy.loop]
    split
    · next h =>
      rw [ih, beq_iff_eq.1 h, List.mem_cons]
      tauto
    · rw [ih, List.mem_cons, List.mem_cons]
      tauto

theorem mem_eraseReps (x : α) (as : List α) : x ∈ as.eraseReps ↔ x ∈ as := by
  cases as with
  | nil => rfl
  | cons a as => simp [List.eraseReps, List.eraseRepsBy, mem_eraseReps_loop]

variable [LinearOrder α]

/-- What was seen so far ascends to the item that repetitions are looked for, and nothing after it is less. -/
theorem pairwise_eraseReps_loop {a : α} {as seen : List α} (hseen : (seen.reverse ++ [a]).Pairwise (· < ·))
    (has : (a :: as).Pairwise (· ≤ ·)) :
    (List.eraseRepsBy.loop (· == ·) a as seen).Pairwise (· < ·) := by
  induction as generalizing a seen with
  | nil => simpa [List.eraseRepsBy.loop] using hseen
  | cons b as ih =>
    obtain ⟨ha, hb⟩ := List.pairwise_cons.1 has
    rw [List.eraseRepsBy.loop]
    split
    · next h =>
      rw [beq_iff_eq] at h
      subst h
      exact ih hseen hb
    · next h =>
      have hab : a < b := lt_of_le_of_ne (ha b List.mem_cons_self) (by simpa using h)
      refine ih (List.pairwise_append.2 ⟨by simpa using hseen, List.pairwise_singleton _ _, ?_⟩) hb
      intro x hx y hy
      rw [List.mem_singleton.1 hy]
      rw [List.mem_reverse, List.mem_cons] at hx
      rcases hx with rfl | hx
      · exact hab
      · have hxa : x < a :=
          (List.pairwise_append.1 hseen).2.2 x (List.mem_reverse.2 hx) a (List.mem_singleton_self a)
        exact hxa.trans hab

theorem pairwise_eraseReps {as : List α} (h : as.Pairwise (· ≤ ·)) : as.eraseReps.Pairwise (· < ·) := by
  cases as with
  | nil => exact List.Pairwise.nil
  | cons a as => exact pairwise_eraseReps_loop (List.pairwise_singleton _ _) h

end EraseReps

section Sources

variable (rows : List Row)

theorem pairwise_sources : (sources rows).Pairwise (· < ·) :=
  pairwise_eraseReps (List.pairwise_mergeSort' (· ≤ ·) _)

theorem mem_sources {rows : List Row} {name : String} :
    name ∈ sources rows ↔ ∃ r ∈ rows, r.source = name := by
  rw [sources, sortedTexts, mem_eraseReps, List.mem_mergeSort, List.mem_map]

theorem sources_eq_nil_iff {rows : List Row} : sources rows = [] ↔ rows = [] := by
  constructor
  · intro h
    rw [List.eq_nil_iff_forall_not_mem]
    intro r hr
    have hmem : r.source ∈ sources rows := mem_sources.2 ⟨r, hr, rfl⟩
    rw [h] at hmem
    cases hmem
  · rintro rfl
    rw [List.eq_nil_iff_forall_not_mem]
    intro name hname
    obtain ⟨r, hr, -⟩ := mem_sources.1 hname
    cases hr

/-- Every row is counted under its source and nowhere else. -/
theorem sum_outcomeCount (o : Outcome) :
    ((sources rows).map fun name => outcomeCount rows name o).sum = rows.countP (Row.hasOutcome o) :=
  sum_map_countP ((pairwise_sources rows).imp ne_of_lt) fun r hr _ => mem_sources.2 ⟨r, hr, rfl⟩

end Sources

/-! ### Reading charts back -/

/-- Whether a value is this whole number. -/
def Value.isWhole (n : Int) : Value → Bool
  | whole k => k == n
  | _ => false

namespace Drawing

/-- The bars that a step draws: their label and their heights. -/
def barRow? : Drawing → Option (String × List Nat)
  | bars _ heights _ label => some (label, heights)
  | _ => none

/-- The boxes that a step draws, each as the values that it stands for. -/
def boxRow : Drawing → List (List Value)
  | boxes series _ => series
  | _ => []

/-- What a step writes below the places of the horizontal axis. -/
def marks : Drawing → List (Value × String)
  | ticks places labels => places.zip labels
  | _ => []

/-- The points that a step draws: how far across and up each is, and the number that its colour stands for. -/
def dots : Drawing → List (Int × Float × Int)
  | points across up colours _ _ => across.zip (up.zip colours)
  | _ => []

/-- The boxes are numbered from one, so the label of each is found below its number. -/
theorem find?_marks_boxTicks {labels : List String} {i : Nat} {label : String} (h : labels[i]? = some label) :
    (boxTicks labels).marks.find? (·.1.isWhole (i + 1 : Nat)) = some (.whole (i + 1), label) := by
  obtain ⟨hi, hlabel⟩ := List.getElem?_eq_some_iff.1 h
  rw [List.find?_eq_some_iff_getElem]
  refine ⟨by simp [Value.isWhole], i, by simpa [marks, boxTicks] using hi, ?_, ?_⟩
  · simp [marks, boxTicks, hlabel]
  · intro j hj
    simp [marks, boxTicks, Value.isWhole]
    omega

end Drawing

namespace SavedChart

/-- The bars of a chart. -/
def barRows (c : SavedChart) : List (String × List Nat) :=
  c.drawings.filterMap Drawing.barRow?

/-- The points of a chart. -/
def dots (c : SavedChart) : List (Int × Float × Int) :=
  c.drawings.flatMap Drawing.dots

/-- What is written below a place of the horizontal axis. -/
def labelAt (c : SavedChart) (place : Nat) : Option String :=
  ((c.drawings.flatMap Drawing.marks).find? (·.1.isWhole place)).map (·.2)

/-- The boxes of a chart with the labels below them. Boxes stand at the places one, two and so on. -/
def labelledBoxes (c : SavedChart) : List (Option String × List Value) :=
  ((c.drawings.flatMap Drawing.boxRow).zipIdx 1).map fun (box, place) => (c.labelAt place, box)

variable {c : SavedChart}

theorem labelledBoxes_eq {boxes : List (String × List Value)}
    (hboxes : c.drawings.flatMap Drawing.boxRow = boxes.map Prod.snd)
    (hmarks : c.drawings.flatMap Drawing.marks = (Drawing.boxTicks (boxes.map Prod.fst)).marks) :
    c.labelledBoxes = boxes.map fun b => (some b.1, b.2) := by
  rw [labelledBoxes, hboxes]
  apply List.ext_getElem?
  intro i
  rw [List.getElem?_map, List.getElem?_map, List.getElem?_zipIdx, List.getElem?_map]
  cases hi : boxes[i]? with
  | none => rfl
  | some b =>
    have hlabel : (boxes.map Prod.fst)[i]? = some b.1 := by
      rw [List.getElem?_map, hi]
      rfl
    simp only [Option.map_some, labelAt, hmarks, Nat.add_comm 1 i, Drawing.find?_marks_boxTicks hlabel]

end SavedChart

/-! ### Charts of results -/

section Charts

variable (rows : List Row) (directory : String)

theorem timesByAnswer_eq :
    timesByAnswer rows = ([Status.sat, Status.unsat].filter fun s => rows.any (·.status == s.text)).map
      fun s => (s, timesOf rows s) := by
  have hoccurs : ∀ s : Status, (!(timesOf rows s).isEmpty) = rows.any (·.status == s.text) := by
    intro s
    rw [timesOf, List.isEmpty_map, Bool.eq_iff_iff]
    simp [Row.hasOutcome, Outcome.text]
  rw [timesByAnswer, List.filter_map]
  simp only [Function.comp_def, hoccurs]

/-- There is a box for each answer that occurs, it is labelled with the answer, and stands for the times of
the rows with that answer. -/
theorem labelledBoxes_resultCharts :
    (resultCharts rows directory).flatMap SavedChart.labelledBoxes =
      ([Status.sat, Status.unsat].filter fun s => rows.any (·.status == s.text)).map fun s =>
        (some s.text, (rows.filter (·.status == s.text)).map fun r => Value.real r.wallTime) := by
  have htime : (timeChart rows directory).flatMap SavedChart.labelledBoxes =
      (timesByAnswer rows).map fun g => (some g.1.text, g.2.map .real) := by
    unfold timeChart
    split
    · next h =>
      rw [h]
      rfl
    · rw [List.flatMap_singleton]
      trans ((timesByAnswer rows).map fun g => (g.1.text, g.2.map Value.real)).map fun b => (some b.1, b.2)
      · apply SavedChart.labelledBoxes_eq
        · simp [Drawing.boxRow, Drawing.finish, Drawing.boxTicks, Function.comp_def]
        · simp [Drawing.marks, Drawing.finish, Drawing.boxTicks, Function.comp_def]
      · rw [List.map_map]
        rfl
  have houtcome : (outcomeChart rows directory).flatMap SavedChart.labelledBoxes = [] := by
    unfold outcomeChart
    split <;> rfl
  have hdecision : (decisionChart rows directory).flatMap SavedChart.labelledBoxes = [] := by
    unfold decisionChart
    split <;> rfl
  rw [resultCharts, List.flatMap_append, List.flatMap_append, htime, houtcome, hdecision, timesByAnswer_eq,
    List.append_nil, List.append_nil, List.map_map]
  refine List.map_congr_left fun s _ => ?_
  simp only [Function.comp_apply, timesOf, List.map_map]
  rfl

/-- There are bars for each outcome, one for each source. -/
theorem barRows_resultCharts :
    (resultCharts rows directory).flatMap SavedChart.barRows =
      if rows.isEmpty then []
      else Outcome.all.map fun o => (o.text, (sources rows).map fun name => outcomeCount rows name o) := by
  have htime : (timeChart rows directory).flatMap SavedChart.barRows = [] := by
    unfold timeChart
    split <;> rfl
  have hdecision : (decisionChart rows directory).flatMap SavedChart.barRows = [] := by
    unfold decisionChart
    split <;> rfl
  rw [resultCharts, List.flatMap_append, List.flatMap_append, htime, hdecision, List.nil_append,
    List.append_nil]
  unfold outcomeChart
  split
  · next h =>
    rw [sources_eq_nil_iff.1 h]
    rfl
  · next h =>
    have hrows : rows.isEmpty = false := by
      rw [List.isEmpty_eq_false_iff, ne_eq, ← sources_eq_nil_iff]
      exact h
    rw [hrows]
    rfl

/-- There is a point for each row with an answer. -/
theorem dots_resultCharts :
    (resultCharts rows directory).flatMap SavedChart.dots =
      (rows.filter Row.isSolved).map fun r => (r.decisions, r.wallTime, r.variableCount) := by
  have htime : (timeChart rows directory).flatMap SavedChart.dots = [] := by
    unfold timeChart
    split <;> rfl
  have houtcome : (outcomeChart rows directory).flatMap SavedChart.dots = [] := by
    unfold outcomeChart
    split <;> rfl
  rw [resultCharts, List.flatMap_append, List.flatMap_append, htime, houtcome, List.nil_append,
    List.nil_append]
  unfold decisionChart
  split
  · next h =>
    rw [h]
    rfl
  · rw [List.flatMap_singleton]
    simp [SavedChart.dots, Drawing.dots, Drawing.finish, List.zip_map']

end Charts

end SatSearch
