import SatSearch.Command.Compare
import SatSearch.Proofs.SavedRun

/-!
# The runs that a chart shows

The times of a run are put under the name of its directory, so a later run takes the place of an earlier one of the
same name (`Series.lookup_putAll`), wherever the two directories lie. Main statement: a chart shows under each name,
in their order, the last run of that name. It has a box for each run if their names differ, and else fewer boxes
than runs (`compareRuns_draws`).
-/

namespace SatSearch

/-! ### The times of one run -/

/-- The times of the rows of a run that count. -/
def runTimes (reader : TableReader) (fs : Files) (solvedOnly : Bool) (run : String) :
    Except RunError (List Value) := do
  let t ← readRun reader fs run
  if solvedOnly then
    let statuses ← columnOf t "status"
    let times ← columnOf t "wall_time_s"
    return (keepFlagged (statuses.map isAnswerValue) times).map shown
  else
    let times ← columnOf t "wall_time_s"
    return times.map shown

/-- A run is added with its times under its name, whatever was added before. -/
theorem addRun_eq_put (reader : TableReader) (fs : Files) (solvedOnly : Bool) (s : Series) (run : String) :
    Series.addRun fs { byStatus := false, solvedOnly, reader } s run =
      (runTimes reader fs solvedOnly run).map (s.put (runName run)) := by
  rw [Series.addRun, runTimes]
  cases readRun reader fs run with
  | error e => rfl
  | ok t =>
    -- Both ask for the columns in the same order, so that the same one is missed first.
    cases solvedOnly with
    | true =>
      cases hstatus : columnOf t "status" with
      | error e => simp [bind, Except.bind, Except.map, hstatus]
      | ok statuses =>
        cases htimes : columnOf t "wall_time_s" <;>
          simp [bind, Except.bind, pure, Except.pure, Except.map, hstatus, htimes]
    | false =>
      cases htimes : columnOf t "wall_time_s" <;>
        simp [bind, Except.bind, pure, Except.pure, Except.map, htimes]

/-! ### Times under labels -/

namespace Series

variable {s pairs : Series} {label : String} {times : List Value}

theorem lookup_cons_eq (p : String × List Value) (s : Series) (l : String) :
    List.lookup l (p :: s) = if l = p.1 then some p.2 else s.lookup l := by
  rw [List.lookup_cons]
  by_cases hl : l = p.1
  · rw [if_pos hl, beq_iff_eq.2 hl]
  · rw [if_neg hl, beq_false_of_ne hl]

theorem lookup_put (label : String) (times : List Value) (s : Series) (l : String) :
    (s.put label times).lookup l = if l = label then some times else s.lookup l := by
  induction s with
  | nil => rw [put, lookup_cons_eq]
  | cons p s ih =>
    rw [put]
    split_ifs with hp hl hl
    · rw [lookup_cons_eq, hp, if_pos hl]
    · rw [lookup_cons_eq, lookup_cons_eq, hp, if_neg hl, if_neg hl]
    · rw [lookup_cons_eq, ih, if_pos hl, if_neg (hl ▸ Ne.symm hp)]
    · rw [lookup_cons_eq, lookup_cons_eq, ih, if_neg hl]

/-- Times under a label that is there change no label. -/
theorem map_fst_put_of_mem (h : label ∈ s.map Prod.fst) :
    (s.put label times).map Prod.fst = s.map Prod.fst := by
  induction s with
  | nil => cases h
  | cons p s ih =>
    rw [put]
    split_ifs with hp
    · rfl
    · rw [List.map_cons, List.mem_cons] at h
      rw [List.map_cons, List.map_cons, ih (h.resolve_left (Ne.symm hp))]

theorem map_fst_put_of_not_mem (h : label ∉ s.map Prod.fst) :
    (s.put label times).map Prod.fst = s.map Prod.fst ++ [label] := by
  rw [put_of_ne, List.map_append]
  · rfl
  · intro p hp hlabel
    exact h (hlabel ▸ List.mem_map_of_mem hp)

/-- Each label stands once if it did before. -/
theorem nodup_put (h : (s.map Prod.fst).Nodup) : ((s.put label times).map Prod.fst).Nodup := by
  by_cases hlabel : label ∈ s.map Prod.fst
  · rwa [map_fst_put_of_mem hlabel]
  · rw [map_fst_put_of_not_mem hlabel]
    exact List.concat_eq_append ▸ h.concat hlabel

/-- Puts times one after another. -/
def putAll (pairs : Series) : Series :=
  pairs.foldl (fun s p => s.put p.1 p.2) []

/-- The times that were put under a label last. -/
def lastUnder (pairs : Series) (label : String) : Option (List Value) :=
  pairs.reverse.lookup label

theorem putAll_concat (pairs : Series) (p : String × List Value) :
    putAll (pairs ++ [p]) = (putAll pairs).put p.1 p.2 := by
  rw [putAll, List.foldl_append]
  rfl

theorem putAll_ne_nil (h : pairs ≠ []) : putAll pairs ≠ [] := by
  obtain ⟨front, p, rfl⟩ := pairs.eq_nil_or_concat'.resolve_left h
  intro hnil
  have hlookup := lookup_put p.1 p.2 (putAll front) p.1
  rw [← putAll_concat, hnil, if_pos rfl] at hlookup
  cases hlookup

theorem nodup_putAll (pairs : Series) : ((putAll pairs).map Prod.fst).Nodup := by
  induction pairs using List.reverseRecOn with
  | nil => exact List.nodup_nil
  | append_singleton pairs p ih =>
    rw [putAll_concat]
    exact nodup_put ih

theorem lookup_putAll (pairs : Series) (label : String) :
    (putAll pairs).lookup label = pairs.lastUnder label := by
  induction pairs using List.reverseRecOn with
  | nil => rfl
  | append_singleton pairs p ih =>
    rw [putAll_concat, lookup_put, ih, lastUnder, lastUnder, List.reverse_concat, lookup_cons_eq]

theorem map_fst_putAll_subset (pairs : Series) : (putAll pairs).map Prod.fst ⊆ pairs.map Prod.fst := by
  induction pairs using List.reverseRecOn with
  | nil => exact List.nil_subset _
  | append_singleton pairs p ih =>
    rw [putAll_concat, List.map_append]
    by_cases hlabel : p.1 ∈ (putAll pairs).map Prod.fst
    · rw [map_fst_put_of_mem hlabel]
      exact List.Subset.trans ih (List.subset_append_left _ _)
    · rw [map_fst_put_of_not_mem hlabel]
      exact List.append_subset.2
        ⟨List.Subset.trans ih (List.subset_append_left _ _), List.subset_append_right _ _⟩

/-- Times under labels that differ all stay. -/
theorem putAll_of_nodup (h : (pairs.map Prod.fst).Nodup) : putAll pairs = pairs := by
  have hput := foldl_put (s := []) (Prod.fst (β := List Value)) Prod.snd (by simpa using h)
  rwa [List.nil_append, List.map_id'' fun p => rfl] at hput

/-- Where a label comes twice, times are lost. -/
theorem length_putAll_lt (h : ¬(pairs.map Prod.fst).Nodup) : (putAll pairs).length < pairs.length := by
  -- Labels that are no fewer than those of the pairs would be all of them, each once.
  by_contra hle
  have hsub := (nodup_putAll pairs).subperm (map_fst_putAll_subset pairs)
  have hperm := hsub.perm_of_length_le (by simpa using hle)
  exact h (hperm.nodup_iff.1 (nodup_putAll pairs))

/-! ### Series in the order of their labels -/

theorem sorted_perm (s : Series) : s.sorted.Perm s :=
  List.mergeSort_perm s _

theorem pairwise_sorted (h : (s.map Prod.fst).Nodup) : (s.sorted.map Prod.fst).Pairwise (· < ·) := by
  have hsorted : s.sorted.Pairwise fun a b => decide (a.1 ≤ b.1) = true := by
    apply List.pairwise_mergeSort
    · intro a b c hab hbc
      rw [decide_eq_true_eq] at hab hbc ⊢
      exact hab.trans hbc
    · intro a b
      rw [Bool.or_eq_true, decide_eq_true_eq, decide_eq_true_eq]
      exact le_total a.1 b.1
  have hnodup : s.sorted.Pairwise fun a b => a.1 ≠ b.1 :=
    List.pairwise_map.1 ((s.sorted_perm.map Prod.fst).nodup_iff.2 h)
  rw [List.pairwise_map]
  refine (hsorted.and hnodup).imp ?_
  rintro a b ⟨hle, hne⟩
  exact lt_of_le_of_ne (of_decide_eq_true hle) hne

end Series

/-! ### Runs that are compared -/

theorem foldlM_addRun (reader : TableReader) (fs : Files) (solvedOnly : Bool) (s : Series) (runs : List String) :
    runs.foldlM (Series.addRun fs { byStatus := false, solvedOnly, reader }) s =
      (runs.mapM (runTimes reader fs solvedOnly)).map fun columns =>
        ((runs.map runName).zip columns).foldl (fun s p => s.put p.1 p.2) s := by
  induction runs generalizing s with
  | nil => rfl
  | cons run runs ih =>
    -- The first run that cannot be read breaks off both sides, whatever was put before.
    rw [List.foldlM_cons, List.mapM_cons, addRun_eq_put]
    cases runTimes reader fs solvedOnly run with
    | error e => rfl
    | ok times =>
      simp only [Except.map, bind, Except.bind, ih]
      cases runs.mapM (runTimes reader fs solvedOnly) with
      | error e => rfl
      | ok columns => simp only [pure, Except.pure, List.map_cons, List.zip_cons_cons, List.foldl_cons]

variable {w : World} {a : CompareArguments} {columns : List (List Value)} {fs : Files}

/-- The times of all runs that are compared, without groups. -/
def comparedTimes (fs : Files) (a : CompareArguments) : Except RunError (List (List Value)) :=
  a.runs.mapM (runTimes a.options.reader fs a.options.solvedOnly)

/-- Without groups, the times of all runs are put under the names of the runs, one after another. -/
theorem collectRuns_eq (fs : Files) (hgroups : a.options.byStatus = false) :
    collectRuns fs a = (comparedTimes fs a).map fun columns =>
      Series.putAll ((a.runs.map runName).zip columns) := by
  have hoptions : a.options =
      { byStatus := false, solvedOnly := a.options.solvedOnly, reader := a.options.reader } := by
    rw [← hgroups]
  rw [collectRuns, hoptions]
  exact foldlM_addRun a.options.reader fs a.options.solvedOnly [] a.runs

/-- Under each name stands the last run of that name, in the order of the names. -/
structure Series.ShowsLast (drawn runs : Series) : Prop where
  ascending : (drawn.map Prod.fst).Pairwise (· < ·)
  mem_iff : ∀ name times, (name, times) ∈ drawn ↔ runs.lastUnder name = some times

theorem Series.showsLast_sorted_putAll (runs : Series) : (putAll runs).sorted.ShowsLast runs where
  ascending := pairwise_sorted (nodup_putAll runs)
  mem_iff name times := by
    rw [(sorted_perm _).mem_iff, ← lookup_eq_some_iff_mem (nodup_putAll runs), lookup_putAll]

/-- The steps that draw series into a file. -/
theorem Series.draw_eq {s : Series} {file : Path} (hs : s ≠ [])
    (hmade : w.files.makeDirectories file.parent.text.toList = .ok fs) :
    s.draw w.files file = .ok (fs, s.chart file) := by
  rw [draw, if_neg (by rwa [List.isEmpty_iff]), hmade]
  rfl

section Compared

variable (hgroups : a.options.byStatus = false)
  (hread : comparedTimes w.files a = .ok columns) (hruns : a.runs ≠ [])
  (hmade : w.files.makeDirectories a.file.parent.text.toList = .ok fs)

include hread

theorem length_columns : columns.length = a.runs.length :=
  (mapM_eq_ok_iff.1 hread).length_eq.symm

theorem map_fst_zip_columns : ((a.runs.map runName).zip columns).map Prod.fst = a.runs.map runName := by
  apply List.map_fst_zip
  rw [List.length_map, length_columns hread]

include hgroups hruns hmade

/-- A chart of runs has a box for each name. -/
theorem compareRuns_drawings : (compareRuns w a).map (·.drawings) =
    .ok ((Series.putAll ((a.runs.map runName).zip columns)).chart a.file) := by
  have hcollect : collectRuns w.files a = .ok (Series.putAll ((a.runs.map runName).zip columns)) := by
    rw [collectRuns_eq w.files hgroups, hread]
    rfl
  have hpairs : (a.runs.map runName).zip columns ≠ [] := by
    intro hnil
    have hnames := map_fst_zip_columns hread
    rw [hnil] at hnames
    exact hruns (List.map_eq_nil_iff.1 hnames.symm)
  have hdraw := Series.draw_eq (Series.putAll_ne_nil hpairs) hmade
  simp only [compareRuns, hcollect, orAbort, Except.mapError, hdraw, bind, Except.bind, pure, Except.pure,
    Except.map]

end Compared

/-- A chart shows the last run of each name. No run is left out if the names differ; else there are fewer boxes
than runs. -/
theorem compareRuns_draws (hgroups : a.options.byStatus = false)
    (hread : comparedTimes w.files a = .ok columns) (hruns : a.runs ≠ [])
    (hmade : w.files.makeDirectories a.file.parent.text.toList = .ok fs) :
    let runs : Series := (a.runs.map runName).zip columns
    ∃ drawn : Series, (compareRuns w a).map (·.drawings) = .ok
        ([.figure (.real (comparisonWidth drawn.length)) (.real 4.8), .boxes (drawn.map Prod.snd) true,
          Drawing.boxTicks (drawn.map Prod.fst), .upLabel "Seconds"] ++ Drawing.finish a.file.text) ∧
      drawn.ShowsLast runs ∧ ((a.runs.map runName).Nodup → drawn.Perm runs) ∧
      (¬(a.runs.map runName).Nodup → drawn.length < a.runs.length) := by
  intro runs
  have hperm := (Series.putAll runs).sorted_perm
  have hnames : runs.map Prod.fst = a.runs.map runName := map_fst_zip_columns hread
  refine ⟨(Series.putAll runs).sorted, ?_, runs.showsLast_sorted_putAll, ?_, ?_⟩
  · rw [compareRuns_drawings hgroups hread hruns hmade, Series.chart, ← hperm.length_eq]
  · intro hnodup
    rw [← hnames] at hnodup
    rwa [Series.putAll_of_nodup hnodup] at hperm ⊢
  · intro hnodup
    have hlength : runs.length = a.runs.length := by
      rw [← List.length_map (f := Prod.fst), hnames, List.length_map]
    rw [← hnames] at hnodup
    rw [hperm.length_eq, ← hlength]
    exact Series.length_putAll_lt hnodup

/-- The text of a table with one row. -/
def oneRow (seconds : Float) : List Char :=
  Csv.table ["status", "wall_time_s"] [[some (.word "SAT"), some (.real seconds)]]

/-- Two runs of one name and a third one, with a row each. -/
def filesWithRuns : Files :=
  ⟨[(["a"], .directory), (["a", "r"], .directory),
    (["a", "r", "metrics.csv"], .file (Text.encode (oneRow 0.5))), (["b"], .directory), (["b", "r"], .directory),
    (["b", "r", "metrics.csv"], .file (Text.encode (oneRow 1.5))), (["b", "q"], .directory),
    (["b", "q", "metrics.csv"], .file (Text.encode (oneRow 2.5)))]⟩

/-- The runs and the times in their rows. -/
def timesOfRuns : List (String × Float) :=
  [("a/r", 0.5), ("b/r", 1.5), ("b/q", 2.5)]

theorem read_filesWithRuns : ∀ p ∈ timesOfRuns,
    filesWithRuns.read (runFile p.1).text = .ok (Text.encode (oneRow p.2)) := by
  have hpaths : ∀ p ∈ timesOfRuns, Files.hasZero (runFile p.1).text = false ∧
      Files.isTooLong (runFile p.1).text = false ∧ (runFile p.1).text ≠ "" ∧
      (runFile p.1).text.toList.head? ≠ some '/' := by decide
  intro p hp
  obtain ⟨hzero, hlong, hne, hhead⟩ := hpaths p hp
  rw [Files.read_eq_ok_iff, Files.place_relative hne hlong hhead]
  refine ⟨hzero, hlong, ?_⟩
  simp only [timesOfRuns, List.mem_cons, List.not_mem_nil, or_false] at hp
  rcases hp with rfl | rfl | rfl <;> exact ⟨_, rfl, rfl⟩

theorem isRegular_oneRow (seconds : Float) :
    IsRegular ["status", "wall_time_s"] [["SAT".toList, (Decimal.text seconds).toList]] where
  wide := by decide
  nodup := by decide
  name := by simp
  width := by simp
  visible := by
    have hzero := (Decimal.isText_text seconds).isNumeric.zero_not_mem
    simpa using hzero

/-- The time in the row of such a run is read as the number it is. -/
theorem runTimes_filesWithRuns : ∀ p ∈ timesOfRuns,
    runTimes readTable filesWithRuns false p.1 = .ok [.real p.2] := by
  intro p hp
  have hnumber : ∀ p ∈ timesOfRuns, Decimal.fieldNumber? (Decimal.text p.2).toList = some p.2 := by
    decide +kernel
  have hspells : Csv.SpellsLines (["status", "wall_time_s"].map String.toList ::
      [[some (.word "SAT"), some (.real p.2)]].map (·.map Csv.valueText)) (oneRow p.2) :=
    Csv.spellsLines_table (by decide) (List.forall_mem_singleton.2 (List.cons_ne_nil _ _))
  obtain ⟨t, ht, hcolumns⟩ :=
    (readTable_readsAt (runFile p.1)).exists_frame (read_filesWithRuns p hp) hspells (isRegular_oneRow p.2)
  obtain ⟨times, htimes, hreads⟩ := hcolumns 1 "wall_time_s" rfl
  have hconverted : times = [readNumber (Decimal.text p.2).toList] :=
    hreads.numbers (List.forall_mem_singleton.2 ⟨p.2, Decimal.isText_text p.2⟩)
  rw [readNumber, hnumber p hp] at hconverted
  have hcolumn := columnOf_eq htimes hconverted
  simp only [runTimes, readRun, ht, hcolumn, bind, Except.bind, pure, Except.pure, Bool.false_eq_true, if_false]
  rfl

theorem makeDirectories_filesWithRuns : filesWithRuns.makeDirectories ['.'] = .ok filesWithRuns := by
  show filesWithRuns.makeDirectories ".".toList = _
  apply Files.makeDirectories_of_isDirectory (by decide) (by decide)
  rw [Files.isDirectory, Files.find?, Files.place_relative (by decide) (by decide) (by decide)]
  rfl

/-- A world with these runs. -/
def worldWithRuns : World where
  files := filesWithRuns
  surroundings := { clock := ⟨[]⟩, rings := [], alarms := [] }
  levelVariable := none

/-- A chart of runs in the working directory. -/
def chartOf (runs : List String) : CompareArguments where
  runs := runs
  out := some "o.png"
  options := { byStatus := false, solvedOnly := false }

theorem compareRuns_draws_two :
    comparedTimes worldWithRuns.files (chartOf ["a/r", "b/q"]) = .ok [[.real 0.5], [.real 2.5]] ∧
      ∃ drawn : Series, (compareRuns worldWithRuns (chartOf ["a/r", "b/q"])).map (·.drawings) = .ok
          [.figure (.real (comparisonWidth drawn.length)) (.real 4.8), .boxes (drawn.map Prod.snd) true,
            Drawing.boxTicks (drawn.map Prod.fst), .upLabel "Seconds", .fit, .save "o.png", .close] ∧
        drawn.ShowsLast [("r", [.real 0.5]), ("q", [.real 2.5])] ∧
        drawn.Perm [("r", [.real 0.5]), ("q", [.real 2.5])] := by
  have hread : comparedTimes worldWithRuns.files (chartOf ["a/r", "b/q"]) = .ok [[.real 0.5], [.real 2.5]] :=
    mapM_eq_ok_iff.2 (.cons (runTimes_filesWithRuns ("a/r", 0.5) (by simp [timesOfRuns]))
      (.cons (runTimes_filesWithRuns ("b/q", 2.5) (by simp [timesOfRuns])) .nil))
  obtain ⟨drawn, hdrawings, hshows, hall, -⟩ :=
    @compareRuns_draws worldWithRuns (chartOf ["a/r", "b/q"]) _ _ rfl hread (by decide)
      makeDirectories_filesWithRuns
  exact ⟨hread, drawn, hdrawings, hshows, hall (by decide)⟩

/-- Of two runs in directories of one name, only the second one is drawn. -/
theorem compareRuns_same_name :
    (["a/r", "b/r"].map runFile).Nodup ∧
      comparedTimes worldWithRuns.files (chartOf ["a/r", "b/r"]) = .ok [[.real 0.5], [.real 1.5]] ∧
      (compareRuns worldWithRuns (chartOf ["a/r", "b/r"])).map (·.drawings) = .ok
        [.figure (.real (comparisonWidth 1)) (.real 4.8), .boxes [[.real 1.5]] true, Drawing.boxTicks ["r"],
          .upLabel "Seconds", .fit, .save "o.png", .close] := by
  have hread : comparedTimes worldWithRuns.files (chartOf ["a/r", "b/r"]) = .ok [[.real 0.5], [.real 1.5]] :=
    mapM_eq_ok_iff.2 (.cons (runTimes_filesWithRuns ("a/r", 0.5) (by simp [timesOfRuns]))
      (.cons (runTimes_filesWithRuns ("b/r", 1.5) (by simp [timesOfRuns])) .nil))
  have hseries : Series.putAll ((["a/r", "b/r"].map runName).zip [[.real 0.5], [.real 1.5]]) =
      [("r", [.real 1.5])] := rfl
  have hsorted : Series.sorted [("r", [.real 1.5])] = [("r", [.real 1.5])] := List.mergeSort_singleton _
  have hdrawings := @compareRuns_drawings worldWithRuns (chartOf ["a/r", "b/r"]) _ _ rfl hread (by decide)
    makeDirectories_filesWithRuns
  refine ⟨by decide, hread, hdrawings.trans ?_⟩
  rw [chartOf, hseries, Series.chart, hsorted]
  rfl

end SatSearch
