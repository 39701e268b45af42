import SatSearch.Bench.Table
import SatSearch.Compare.Runs
import SatSearch.Proofs.Paths
import SatSearch.Proofs.TableReaders

/-!
# Times of a run that was saved

A run saves its rows as a table, and comparing runs reads the table again, with a reader that reads the tables at
the path of the run. The field for a time is the text of that number (`Decimal.isText_text`). Main statement: what
comes back is what the reader makes of these texts, one for each row and in the order of the rows (`addRun_saved`).
What stands in the other fields cannot move them.
-/

namespace SatSearch

/-! ### The rows of a run -/

/-- The statuses that can be expected. -/
def expectations : List (Option String) :=
  [some "SAT", some "UNSAT", none]

/-- A row that a run can have, with texts that do not hold the character zero. -/
structure Row.IsResult (r : Row) : Prop where
  status : r.status ∈ statusWords
  expected : r.expected ∈ expectations
  text : ∀ s ∈ [r.name, r.source, r.error], Char.ofNat 0 ∉ s.toList

/-- The text of the time of a row in the table. -/
def Row.timeText (r : Row) : List Char :=
  (Decimal.text r.wallTime).toList

/-! ### The table -/

theorem zero_not_mem_toString (n : Int) : Char.ofNat 0 ∉ (toString n).toList := by
  have hnat (m : Nat) : Char.ofNat 0 ∉ (toString m).toList := fun h =>
    absurd ((Decimal.isDigits_toString m).digit _ h) (by decide)
  cases n with
  | ofNat m => exact hnat m
  | negSucc m =>
    have htext : toString (Int.negSucc m) = "-" ++ toString (m + 1) := rfl
    rw [htext, String.toList_append]
    exact fun h => (List.mem_append.1 h).elim (by decide) (hnat _)

/-- No field of a row holds the character zero. -/
theorem Row.IsResult.zero_not_mem {r : Row} (h : r.IsResult) :
    ∀ v ∈ r.fields, Char.ofNat 0 ∉ Csv.valueText v := by
  have hstatuses : ∀ w ∈ statusWords, Char.ofNat 0 ∉ w.toList := by decide
  have hexpectations : ∀ e ∈ expectations, Char.ofNat 0 ∉ Csv.valueText (e.map .word) := by decide
  have hcorrect : ∀ b : Option Bool, Char.ofNat 0 ∉ Csv.valueText (b.map .truth) := by decide
  intro v hv
  rw [Row.fields] at hv
  simp only [List.mem_cons, List.not_mem_nil, or_false] at hv
  rcases hv with rfl | rfl | rfl | rfl | rfl | rfl | rfl | rfl | rfl | rfl | rfl | rfl | rfl
  · exact h.text r.name (by simp)
  · exact h.text r.source (by simp)
  · exact zero_not_mem_toString r.variableCount
  · exact zero_not_mem_toString r.clauseCount
  · exact hstatuses r.status h.status
  · exact (Decimal.isText_text r.wallTime).isNumeric.zero_not_mem
  · exact zero_not_mem_toString r.decisions
  · exact zero_not_mem_toString r.unitPropagations
  · exact zero_not_mem_toString r.backtracks
  · exact zero_not_mem_toString r.maxDepth
  · exact h.text r.error (by simp)
  · exact hexpectations r.expected h.expected
  · exact hcorrect r.isCorrect

/-- Statuses are read as they are. -/
theorem Row.IsResult.wordValue_status {r : Row} (h : r.IsResult) :
    wordValue r.status.toList = some (.word r.status) := by
  have hall : ∀ w ∈ statusWords, w.toList ≠ [] := by decide
  rw [wordValue, if_neg (hall _ h.status), String.ofList_toList]

/-- Expected statuses are words, or missing. -/
theorem wordValue_expected {e : Option String} (he : e ∈ expectations) :
    let s := Csv.valueText (e.map .word)
    (s = [] ∨ String.ofList s ∈ statusWords) ∧ wordValue s = e.map .word := by
  simp only [expectations, List.mem_cons, List.not_mem_nil, or_false] at he
  rcases he with rfl | rfl | rfl
  · exact ⟨by decide, rfl⟩
  · exact ⟨by decide, rfl⟩
  · exact ⟨by decide, rfl⟩

variable {fs fs' : Files} {rows : List Row} {directory : String} {reader : TableReader}
  {conv : List Char → Option Value}

theorem isRegular_results (hrows : ∀ r ∈ rows, r.IsResult) :
    IsRegular Row.columns ((rows.map Row.fields).map (·.map Csv.valueText)) where
  wide := by decide
  nodup := by decide
  name := by simp [Row.columns]
  width := by
    simp only [List.forall_mem_map]
    exact fun r _ => rfl
  visible := by
    simp only [List.forall_mem_map]
    exact fun r hr => (hrows r hr).zero_not_mem

theorem spellsLines_resultTable (rows : List Row) :
    Csv.SpellsLines (Row.columns.map String.toList :: (rows.map Row.fields).map (·.map Csv.valueText))
      (resultTable rows) := by
  refine Csv.spellsLines_table (by decide) ?_
  rw [List.forall_mem_map]
  exact fun r _ => List.cons_ne_nil _ _

theorem read_saved (h : fs.saveResults rows (joinPath directory "metrics.csv") = .ok fs')
    (hsuffix : (Path.ofString directory).suffix ≠ ".csv") :
    fs'.read (runFile directory).text = .ok (Text.encode (resultTable rows)) := by
  have hslash : '/' ∉ "metrics.csv".toList := by decide
  have hname : Path.isPart "metrics.csv" = true := by decide
  obtain ⟨front, hpieces, -⟩ := Path.exists_pieces_joinPath directory hslash
  rw [runFile, if_neg hsuffix, ← Path.ofString_joinPath directory hname hslash]
  refine Files.read_text hpieces hname ?_
  rw [Files.saveResults] at h
  cases hmade : fs.makeDirectories (directoryOf (joinPath directory "metrics.csv")) with
  | error e =>
    rw [hmade] at h
    cases h
  | ok made =>
    rw [hmade] at h
    exact Files.read_of_write h

/-! ### The columns -/

/-- The columns that are asked for, as they are read. -/
structure ReadsRows (conv : List Char → Option Value) (rows : List Row) (t : Frame) : Prop where
  wallTime : columnOf t "wall_time_s" = .ok (rows.map fun r => conv r.timeText)
  status : columnOf t "status" = .ok (rows.map fun r => some (.word r.status))
  expected : columnOf t "expected_status" = .ok (rows.map fun r => r.expected.map .word)

theorem columnOf_eq {t : Frame} {name : String} {column column' : List (Option Value)}
    (h : t.column? name = some column) (heq : column = column') : columnOf t name = .ok column' := by
  rw [columnOf, h, heq]

/-- A reader of tables reads the rows of a run that was saved. -/
theorem exists_readsRows (hreader : reader.ReadsAt conv (runFile directory)) (hrows : ∀ r ∈ rows, r.IsResult)
    (hread : fs.read (runFile directory).text = .ok (Text.encode (resultTable rows))) :
    ∃ t, readRun reader fs directory = .ok t ∧ ReadsRows conv rows t := by
  obtain ⟨t, ht, hcolumns⟩ := hreader.exists_frame hread (spellsLines_resultTable rows) (isRegular_results hrows)
  have hcolumn (i : Nat) (name : String) (hname : Row.columns[i]? = some name) :
      ∃ column, t.column? name = some column ∧
        ReadsColumn conv (rows.map fun r => (r.fields.map Csv.valueText).getD i []) column := by
    simpa [List.map_map, Function.comp_def] using hcolumns i name hname
  obtain ⟨times, htimes, hreads⟩ := hcolumn 5 "wall_time_s" (by decide)
  obtain ⟨statuses, hstatuses, hreads'⟩ := hcolumn 4 "status" (by decide)
  obtain ⟨expected, hexpected, hreads''⟩ := hcolumn 11 "expected_status" (by decide)
  refine ⟨t, ht, ?_, ?_, ?_⟩
  · have hnumbers : times = (rows.map Row.timeText).map conv :=
      hreads.numbers (List.forall_mem_map.2 fun r _ => ⟨r.wallTime, Decimal.isText_text r.wallTime⟩)
    exact columnOf_eq htimes (hnumbers.trans List.map_map)
  · have hwords : statuses = (rows.map fun r => r.status.toList).map wordValue :=
      hreads'.words (List.forall_mem_map.2 fun r hr => .inr (String.ofList_toList.symm ▸ (hrows r hr).status))
    rw [List.map_map] at hwords
    exact columnOf_eq hstatuses (hwords.trans (List.map_congr_left fun r hr => (hrows r hr).wordValue_status))
  · have hwords : expected = (rows.map fun r => Csv.valueText (r.expected.map .word)).map wordValue :=
      hreads''.words (List.forall_mem_map.2 fun r hr => (wordValue_expected (hrows r hr).expected).1)
    rw [List.map_map] at hwords
    exact columnOf_eq hexpected
      (hwords.trans (List.map_congr_left fun r hr => (wordValue_expected (hrows r hr).expected).2))

/-! ### The rows that count -/

theorem keepFlagged_map {α β : Type} (p : α → Bool) (f : α → β) (as : List α) :
    keepFlagged (as.map p) (as.map f) = (as.filter p).map f := by
  rw [keepFlagged, List.zip_map', List.filter_map, List.map_map]
  rfl

/-- The rows that count. -/
def countedRows (solvedOnly : Bool) (rows : List Row) : List Row :=
  if solvedOnly then rows.filter fun r => r.status == "SAT" || r.status == "UNSAT" else rows

theorem mem_of_mem_countedRows {solvedOnly : Bool} {r : Row} (h : r ∈ countedRows solvedOnly rows) :
    r ∈ rows := by
  cases solvedOnly with
  | true => exact List.mem_of_mem_filter h
  | false => exact h

/-! ### Groups -/

/-- The name of the group of an expectation. -/
def groupWord (e : Option String) : String :=
  e.getD "unknown"

/-- The group of an expectation. -/
def group (e : Option String) : Value :=
  .word (groupWord e)

theorem groupOf_map_word (e : Option String) : groupOf (e.map .word) = group e := by
  cases e <;> rfl

theorem groupWord_inj :
    ∀ e ∈ expectations, ∀ e' ∈ expectations, groupWord e = groupWord e' ↔ e = e' := by
  decide

theorem sameGroup_group {e e' : Option String} (he : e ∈ expectations) (he' : e' ∈ expectations) :
    sameGroup (group e) (group e') = decide (e = e') := by
  show (groupWord e == groupWord e') = _
  rw [beq_eq_decide]
  simp only [groupWord_inj e he e' he']

/-- Each group that occurs is found once. -/
theorem exists_distinctGroups {es : List (Option String)} (h : ∀ e ∈ es, e ∈ expectations) :
    ∃ distinct : List (Option String), distinctGroups (es.map group) = distinct.map group ∧
      distinct.Nodup ∧ ∀ e, e ∈ distinct ↔ e ∈ es := by
  induction es with
  | nil => exact ⟨[], rfl, List.nodup_nil, fun e => Iff.rfl⟩
  | cons e es ih =>
    obtain ⟨he, hes⟩ := List.forall_mem_cons.1 h
    obtain ⟨distinct, heq, hnodup, hmem⟩ := ih hes
    refine ⟨e :: distinct.filter (e ≠ ·), ?_, ?_, ?_⟩
    · rw [List.map_cons, distinctGroups, heq, List.filter_map, List.map_cons]
      refine congrArg (group e :: ·.map group) (List.filter_congr fun e' he' => ?_)
      rw [Function.comp_apply, sameGroup_group he (hes e' ((hmem e').1 he'))]
      simp
    · exact List.nodup_cons.2 ⟨by simp, hnodup.filter _⟩
    · intro e'
      by_cases hee : e = e'
      · simp [hee]
      · simp [hee, Ne.symm hee, hmem e']

/-- Whether one expectation comes before another. -/
def expectationLe (e e' : Option String) : Bool :=
  groupLe (group e) (group e')

theorem expectationLe_iff {e e' : Option String} :
    expectationLe e e' = true ↔ groupWord e ≤ groupWord e' :=
  decide_eq_true_iff

/-- The groups that occur, in the order of the charts. -/
theorem mergeSort_distinctGroups {es : List (Option String)} (h : ∀ e ∈ es, e ∈ expectations) :
    (distinctGroups (es.map group)).mergeSort groupLe =
      (expectations.filter fun e => decide (e ∈ es)).map group := by
  obtain ⟨distinct, heq, hnodup, hmem⟩ := exists_distinctGroups h
  have hsorted : (distinct.mergeSort expectationLe).Pairwise fun e e' => expectationLe e e' = true := by
    refine List.pairwise_mergeSort (fun a b c hab hbc => ?_) (fun a b => ?_) distinct
    · rw [expectationLe_iff] at hab hbc ⊢
      exact hab.trans hbc
    · rw [Bool.or_eq_true, expectationLe_iff, expectationLe_iff]
      exact le_total _ _
  have hexpectations : (expectations.filter fun e => decide (e ∈ es)).Pairwise
      fun e e' => expectationLe e e' = true :=
    List.Pairwise.sublist List.filter_sublist (by decide)
  have hperm : (distinct.mergeSort expectationLe).Perm (expectations.filter fun e => decide (e ∈ es)) := by
    refine (List.mergeSort_perm _ _).trans ?_
    rw [List.perm_ext_iff_of_nodup hnodup (List.Nodup.filter _ (by decide))]
    intro e
    rw [hmem, List.mem_filter, decide_eq_true_eq]
    exact ⟨fun he => ⟨h e he, he⟩, And.right⟩
  have hmap : (distinct.mergeSort expectationLe).map group = (distinct.map group).mergeSort groupLe :=
    List.map_mergeSort fun _ _ _ _ => rfl
  rw [heq, ← hmap]
  refine congrArg (List.map group) (hperm.eq_of_pairwise (fun a b ha hb hab hba => ?_) hsorted hexpectations)
  rw [expectationLe_iff] at hab hba
  have hall := (List.mem_filter.1 (hperm.mem_iff.1 ha)).1
  exact (groupWord_inj a hall b (List.mem_filter.1 hb).1).1 (hab.antisymm hba)

/-! ### Series -/

namespace Series

theorem put_of_ne {label : String} {times : List Value} {s : Series} (h : ∀ p ∈ s, p.1 ≠ label) :
    put label times s = s ++ [(label, times)] := by
  induction s with
  | nil => rfl
  | cons p s ih =>
    obtain ⟨hp, hs⟩ := List.forall_mem_cons.1 h
    rw [put, if_neg hp, ih hs, List.cons_append]

/-- Times under labels that are all new stand in the order in which they were put there. -/
theorem foldl_put {α : Type} (label : α → String) (times : α → List Value) {as : List α} {s : Series}
    (hlabels : (s.map Prod.fst ++ as.map label).Nodup) :
    as.foldl (fun s a => s.put (label a) (times a)) s = s ++ as.map fun a => (label a, times a) := by
  induction as generalizing s with
  | nil => simp
  | cons a as ih =>
    have hnew : ∀ p ∈ s, p.1 ≠ label a := by
      intro p hp
      rw [List.nodup_append] at hlabels
      exact hlabels.2.2 p.1 (List.mem_map_of_mem hp) (label a) List.mem_cons_self
    rw [List.foldl_cons, put_of_ne hnew, ih, List.append_assoc, List.map_cons, List.singleton_append]
    rwa [List.map_append, List.append_assoc]

theorem putGroups_eq (name : String) {es : List (Option String)} (h : ∀ e ∈ es, e ∈ expectations)
    (times : List Value) :
    putGroups name (es.map group) times [] = (expectations.filter fun e => decide (e ∈ es)).map fun e =>
      (name ++ " " ++ groupWord e, keepFlagged (es.map fun e' => decide (e = e')) times) := by
  have hlabels : ((expectations.filter fun e => decide (e ∈ es)).map fun e =>
      name ++ " " ++ groupWord e).Nodup := by
    refine List.Nodup.map_on (fun a ha b hb hab => ?_) (List.Nodup.filter _ (by decide))
    have hword : groupWord a = groupWord b := by
      simpa using hab
    exact (groupWord_inj a (List.mem_filter.1 ha).1 b (List.mem_filter.1 hb).1).1 hword
  rw [putGroups, mergeSort_distinctGroups h, List.foldl_map]
  refine (foldl_put (fun e => name ++ " " ++ groupWord e) _ (by simpa using hlabels)).trans ?_
  rw [List.nil_append]
  refine List.map_congr_left fun e he => ?_
  rw [List.map_map]
  refine congrArg (fun flags => (name ++ " " ++ groupWord e, keepFlagged flags times))
    (List.map_congr_left fun e' he' => ?_)
  exact sameGroup_group (List.mem_filter.1 he).1 (h e' he')

/-- Where there is nothing to group, nothing is put. -/
theorem putGroups_of_isEmpty (name : String) (groups times : List Value) (s : Series) :
    (if groups.isEmpty = true then .ok s else .ok (putGroups name groups times s) : Except RunError Series) =
      .ok (putGroups name groups times s) := by
  split_ifs with h
  · rw [List.isEmpty_iff.1 h, putGroups, distinctGroups, List.mergeSort_nil, List.foldl_nil]
  · rfl

end Series

/-! ### The times that come back -/

/-- What the rows of a saved run are added as. -/
theorem addRun_eq (byStatus solvedOnly : Bool) {t : Frame} (ht : readRun reader fs directory = .ok t)
    (hreads : ReadsRows conv rows t) :
    Series.addRun fs { byStatus, solvedOnly, reader } [] directory = .ok
      (if byStatus then
        Series.putGroups (runName directory)
          ((countedRows solvedOnly rows).map fun r => groupOf (r.expected.map .word))
          ((countedRows solvedOnly rows).map fun r => shown (conv r.timeText)) []
      else [(runName directory, (countedRows solvedOnly rows).map fun r => shown (conv r.timeText))]) := by
  have hsolved : (fun r : Row => isAnswerValue (some (.word r.status))) =
      fun r => r.status == "SAT" || r.status == "UNSAT" := rfl
  cases solvedOnly <;> cases byStatus <;>
    simp only [Series.addRun, ht, bind, Except.bind, pure, Except.pure, hreads.status, hreads.expected,
      hreads.wallTime, if_true, Bool.false_eq_true, if_false, keepFlagged_map, countedRows, List.map_map,
      Function.comp_def, hsolved, id]
  · rfl
  · exact Series.putGroups_of_isEmpty ..
  · rfl
  · exact Series.putGroups_of_isEmpty ..

/-- The times of a run that was saved are what the reader makes of the texts of the times of its rows, and these
texts are those of the numbers. Grouped by the expected status, there is a series for each status that occurs. -/
theorem addRun_saved (solvedOnly : Bool) (hreader : reader.ReadsAt conv (runFile directory))
    (hrows : ∀ r ∈ rows, r.IsResult)
    (hsaved : fs.saveResults rows (joinPath directory "metrics.csv") = .ok fs')
    (hsuffix : (Path.ofString directory).suffix ≠ ".csv") :
    let kept := countedRows solvedOnly rows
    let name := (Path.ofString directory).name
    let times (rows : List Row) : List Value := rows.map fun r => shown (conv r.timeText)
    (∀ r ∈ rows, Decimal.IsText r.wallTime r.timeText) ∧
      Series.addRun fs' { byStatus := false, solvedOnly, reader } [] directory = .ok [(name, times kept)] ∧
      Series.addRun fs' { byStatus := true, solvedOnly, reader } [] directory =
        .ok ((expectations.filter fun e => kept.any fun r => r.expected = e).map fun e =>
          (name ++ " " ++ e.getD "unknown", times (kept.filter fun r => r.expected = e))) := by
  extract_lets kept name times
  obtain ⟨t, ht, hreads⟩ := exists_readsRows hreader hrows (read_saved hsaved hsuffix)
  have hname : runName directory = name := by
    rw [runName, if_neg hsuffix]
  have hexpected : ∀ e ∈ kept.map Row.expected, e ∈ expectations := by
    rw [List.forall_mem_map]
    intro r hr
    exact (hrows r (mem_of_mem_countedRows hr)).expected
  refine ⟨fun r _ => Decimal.isText_text r.wallTime, ?_, ?_⟩
  · rw [addRun_eq false solvedOnly ht hreads, if_neg Bool.false_ne_true, hname]
  · have hgroups : (kept.map fun r => groupOf (r.expected.map .word)) =
        (kept.map Row.expected).map group := by
      rw [List.map_map]
      exact List.map_congr_left fun r hr => groupOf_map_word r.expected
    have hany (e : Option String) :
        (kept.any fun r => r.expected = e) = decide (e ∈ kept.map Row.expected) := by
      rw [Bool.eq_iff_iff, List.any_eq_true, decide_eq_true_eq, List.mem_map]
      simp only [decide_eq_true_eq]
    rw [addRun_eq true solvedOnly ht hreads, if_pos rfl, hname, hgroups, Series.putGroups_eq name hexpected]
    simp only [hany]
    refine congrArg Except.ok (List.map_congr_left fun e he => ?_)
    have hfilter : (kept.filter fun r => e = r.expected) = kept.filter fun r => r.expected = e :=
      List.filter_congr fun r _ => decide_eq_decide.2 eq_comm
    show (_, _) = (_, (kept.filter fun r => r.expected = e).map fun r => shown (conv r.timeText))
    rw [List.map_map, ← hfilter, ← keepFlagged_map]
    rfl

/-- A working directory that holds one more directory. -/
def filesWithRun : Files :=
  ⟨[(["run"], .directory)]⟩

theorem joinPath_run : joinPath "run" "metrics.csv" = "run/metrics.csv" := by
  have hslash : ¬("run".isEmpty || "run".endsWith '/') = true := by
    rw [Bool.or_eq_true, String.endsWith_char_iff_exists_append]
    rintro (h | ⟨t, ht⟩)
    · exact absurd h (by decide)
    · have hlast := congrArg (fun s => s.toList.getLast?) ht
      simp at hlast
  rw [joinPath, if_neg hslash]
  decide

theorem saveResults_filesWithRun (rows : List Row) :
    filesWithRun.saveResults rows (joinPath "run" "metrics.csv") =
      .ok (filesWithRun.put ["run", "metrics.csv"] (.file (Text.encode (resultTable rows)))) := by
  have hmade : filesWithRun.makeDirectories (directoryOf "run/metrics.csv") = .ok filesWithRun := by
    have hdirectory : directoryOf "run/metrics.csv" = "run".toList := by decide
    rw [hdirectory]
    apply Files.makeDirectories_of_isDirectory (by decide) (by decide)
    rw [Files.isDirectory, Files.find?, Files.place_relative (by decide) (by decide) (by decide)]
    rfl
  have hwritten : filesWithRun.place "run/metrics.csv" = .ok ["run", "metrics.csv"] := by
    rw [Files.place_relative (by decide) (by decide) (by decide)]
    rfl
  have hend : "run/metrics.csv".endsWith "/" = false := by
    rw [Bool.eq_false_iff, ne_eq, Files.endsWith_slash_iff]
    decide
  rw [joinPath_run, Files.saveResults, hmade]
  exact Files.write_eq_ok_iff.2 ⟨by decide, by decide, hend, _, hwritten, by decide, rfl⟩

/-- A row with the counters left at zero. -/
def bareRow (name status : String) (wallTime : Float) (expected : Option String) : Row where
  name := name
  source := "random"
  variableCount := 3
  clauseCount := 5
  status := status
  wallTime := wallTime
  decisions := 0
  unitPropagations := 0
  backtracks := 0
  maxDepth := 0
  error := ""
  expected := expected
  isCorrect := expected.map fun _ => true

/-- A run with three answers and a timeout, and with names that have to be quoted. -/
def timedOutRun : List Row :=
  [bareRow "a,\"b\"" "SAT" 0.1 (some "SAT"), bareRow "c" "UNSAT" 0.3 (some "UNSAT"),
   bareRow "d\r\ne" "SAT" 0.2 (some "SAT"), bareRow "f" "TIMEOUT" 5.0 none]

theorem isResult_timedOutRun : ∀ r ∈ timedOutRun, r.IsResult := by
  simp only [timedOutRun, List.forall_mem_cons]
  exact ⟨⟨by decide, by decide, by decide⟩, ⟨by decide, by decide, by decide⟩,
    ⟨by decide, by decide, by decide⟩, ⟨by decide, by decide, by decide⟩, List.forall_mem_nil _⟩

theorem addRun_saved_timedOutRun :
    ∃ fs', filesWithRun.saveResults timedOutRun (joinPath "run" "metrics.csv") = .ok fs' ∧
      Series.addRun fs' { byStatus := false, solvedOnly := false } [] "run" =
        .ok [("run", [.real 0.1, .real 0.3, .real 0.2, .real 5.0])] ∧
      Series.addRun fs' { byStatus := true, solvedOnly := false } [] "run" =
        .ok [("run SAT", [.real 0.1, .real 0.2]), ("run UNSAT", [.real 0.3]), ("run unknown", [.real 5.0])] ∧
      Series.addRun fs' { byStatus := true, solvedOnly := true } [] "run" =
        .ok [("run SAT", [.real 0.1, .real 0.2]), ("run UNSAT", [.real 0.3])] := by
  have htime : ∀ x ∈ [0.1, 0.3, 0.2, 5.0], Decimal.fieldNumber? (Decimal.text x).toList = some x := by
    decide +kernel
  have hshown : ∀ x ∈ [0.1, 0.3, 0.2, 5.0], shown (readNumber (Decimal.text x).toList) = .real x := by
    intro x hx
    rw [readNumber, htime x hx]
    rfl
  obtain ⟨h₁, h₂, h₃, h₄, -⟩ := by simpa only [List.forall_mem_cons] using hshown
  have hname : (Path.ofString "run").name = "run" := by decide
  have hsaved := saveResults_filesWithRun timedOutRun
  obtain ⟨-, hall, hgroups⟩ :=
    addRun_saved false (readTable_readsAt _) isResult_timedOutRun hsaved (by decide)
  obtain ⟨-, -, hsolved⟩ := addRun_saved true (readTable_readsAt _) isResult_timedOutRun hsaved (by decide)
  refine ⟨_, hsaved, hall.trans ?_, hgroups.trans ?_, hsolved.trans ?_⟩
  · simp [countedRows, timedOutRun, bareRow, Row.timeText, hname, h₁, h₂, h₃, h₄]
  · simp [countedRows, timedOutRun, bareRow, expectations, Row.timeText, hname, h₁, h₂, h₃, h₄]
  · simp [countedRows, timedOutRun, bareRow, expectations, Row.timeText, hname, h₁, h₂, h₃]

end SatSearch
