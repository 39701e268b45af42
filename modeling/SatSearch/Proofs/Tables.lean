import Mathlib
import SatSearch.Csv.Reader
import SatSearch.Csv.Writer

/-!
# Spelling tables

A line of a table is spelled with commas between its fields; a field may stand between quotes, with the quotes in
it doubled, and has to if it holds a comma, a quote or a line end (`SpellsLines`). What is written for a table spells
it (`spellsLines_table`). Main statement: a text that spells a header and rows as wide is read as them, whatever the
text of the fields (`Table.ofText_of_spells`). A field is read back in front of a comma or a line end
(`readField_of_spells`), and so is a line, which never counts as blank when it has two fields (`seekLine_of_spells`).
-/

namespace SatSearch.Csv

/-! ### The grammar -/

/-- A text, and the same with its quotes doubled. -/
inductive Doubled : List Char → List Char → Prop
  | nil : Doubled [] []
  | quote {s t : List Char} (rest : Doubled s t) : Doubled ('"' :: s) ('"' :: '"' :: t)
  | other {c : Char} {s t : List Char} (hc : c ≠ '"') (rest : Doubled s t) : Doubled (c :: s) (c :: t)

/-- The spellings of a field. -/
inductive SpellsField (s : List Char) : List Char → Prop
  | plain (h : ∀ c ∈ s, c ∉ [',', '"', '\r', '\n']) : SpellsField s s
  | quoted {t : List Char} (h : Doubled s t) : SpellsField s ('"' :: (t ++ ['"']))

/-- The spellings of a line. -/
inductive SpellsLine : List (List Char) → List Char → Prop
  | last {f t : List Char} (h : SpellsField f t) : SpellsLine [f] (t ++ ['\r', '\n'])
  | cons {f t u : List Char} {fields : List (List Char)} (h : SpellsField f t) (rest : SpellsLine fields u) :
      SpellsLine (f :: fields) (t ++ ',' :: u)

/-- The spellings of lines. -/
inductive SpellsLines : List (List (List Char)) → List Char → Prop
  | nil : SpellsLines [] []
  | cons {fields : List (List Char)} {rows : List (List (List Char))} {t u : List Char}
      (h : SpellsLine fields t) (rest : SpellsLines rows u) : SpellsLines (fields :: rows) (t ++ u)

/-! ### What is written -/

theorem doubled_doubleQuotes (s : List Char) : Doubled s (doubleQuotes s) := by
  induction s with
  | nil => exact .nil
  | cons c s ih =>
    rw [doubleQuotes]
    split_ifs with hc
    · rw [hc]
      exact .quote ih
    · exact .other hc ih

theorem spellsField_field (s : List Char) : SpellsField s (field s) := by
  rw [field]
  split_ifs with hs
  · exact .quoted (doubled_doubleQuotes s)
  · rw [Bool.not_eq_true, List.any_eq_false] at hs
    refine .plain fun c hc hmem => hs c hc ?_
    simp only [List.mem_cons, List.not_mem_nil, or_false] at hmem
    rcases hmem with rfl | rfl | rfl | rfl <;> rfl

theorem spellsLine_line {fields : List (List Char)} (hne : fields ≠ []) : SpellsLine fields (line fields) := by
  induction fields with
  | nil => exact absurd rfl hne
  | cons f fields ih =>
    cases fields with
    | nil =>
      have hline : line [f] = field f ++ ['\r', '\n'] := by simp [line]
      rw [hline]
      exact .last (spellsField_field f)
    | cons g fields =>
      have hline : line (f :: g :: fields) = field f ++ ',' :: line (g :: fields) := by
        simp [line, List.intercalate_cons_cons]
      rw [hline]
      exact .cons (spellsField_field f) (ih (List.cons_ne_nil _ _))

theorem spellsLines_flatMap {rows : List (List (List Char))} (h : ∀ r ∈ rows, r ≠ []) :
    SpellsLines rows (rows.flatMap line) := by
  induction rows with
  | nil => exact .nil
  | cons fields rows ih =>
    obtain ⟨hfields, hrows⟩ := List.forall_mem_cons.1 h
    exact .cons (spellsLine_line hfields) (ih hrows)

/-- What is written for a table spells the names of its columns and the texts of its values. -/
theorem spellsLines_table {columns : List String} {rows : List (List (Option Value))} (hcolumns : columns ≠ [])
    (hrows : ∀ r ∈ rows, r ≠ []) :
    SpellsLines (columns.map String.toList :: rows.map (·.map valueText)) (table columns rows) := by
  have hlines : table columns rows =
      (columns.map String.toList :: rows.map (·.map valueText)).flatMap line := by
    rw [table, List.flatMap_cons, List.flatMap_map]
  rw [hlines]
  refine spellsLines_flatMap (List.forall_mem_cons.2 ⟨by simpa using hcolumns, ?_⟩)
  rw [List.forall_mem_map]
  exact fun r hr => by simpa using hrows r hr

/-! ### Fields -/

theorem readQuoted_of_doubled {s t rest : List Char} (h : Doubled s t) (hrest : rest.head? ≠ some '"') :
    readQuoted (t ++ '"' :: rest) = some (s, rest) := by
  induction h with
  | nil =>
    rw [List.nil_append, readQuoted, if_pos rfl]
    rintro tail - rfl
    exact hrest rfl
  | quote _ ih =>
    rw [List.cons_append, List.cons_append, readQuoted, ih]
    rfl
  | other hc _ ih =>
    rw [List.cons_append, readQuoted, if_neg hc, ih]
    · rfl
    · rintro tail rfl
      exact absurd rfl hc

theorem readPlain_append {s rest : List Char} (hs : ∀ c ∈ s, endsField c = false)
    (hrest : ∀ c ∈ rest.head?, endsField c = true) : readPlain (s ++ rest) = (s, rest) := by
  have hall : ∀ c ∈ s, (!endsField c) = true := fun c hc => by rw [hs c hc, Bool.not_false]
  have htake : rest.takeWhile (!endsField ·) = [] := by
    cases rest with
    | nil => rfl
    | cons c rest => exact List.takeWhile_cons_of_neg (by simp [hrest c rfl])
  have hdrop : rest.dropWhile (!endsField ·) = rest := by
    cases rest with
    | nil => rfl
    | cons c rest => exact List.dropWhile_cons_of_neg (by simp [hrest c rfl])
  rw [readPlain, List.takeWhile_append_of_pos hall, List.dropWhile_append_of_pos hall, htake, hdrop,
    List.append_nil]

theorem endsField_eq_false {c : Char} (h : c ∉ [',', '"', '\r', '\n']) : endsField c = false := by
  simp only [List.mem_cons, List.not_mem_nil, or_false, not_or] at h
  simp [endsField, h]

/-- A field is read back in front of what ends it. -/
theorem readField_of_spells {s t : List Char} (h : SpellsField s t) {c : Char} (rest : List Char)
    (hc : endsField c = true) : readField (t ++ c :: rest) = some (s, c :: rest) := by
  have hplain {t : List Char} (ht : ∀ d ∈ t, endsField d = false) :
      readPlain (t ++ c :: rest) = (t, c :: rest) :=
    readPlain_append ht fun d hd => Option.some.inj hd ▸ hc
  cases h with
  | plain hs =>
    rw [readField, hplain fun d hd => endsField_eq_false (hs d hd)]
    intro tail htail
    cases s with
    | nil => exact absurd hc (by rw [(List.cons.inj htail).1]; decide)
    | cons d s =>
      have hd := hs d List.mem_cons_self
      rw [(List.cons.inj htail).1] at hd
      exact absurd hd (by decide)
  | quoted hs =>
    have hquote : (c :: rest).head? ≠ some '"' := by
      rintro ⟨⟩
      exact absurd hc (by decide)
    have hrest : readPlain (c :: rest) = ([], c :: rest) := hplain (t := []) (by simp)
    rw [List.cons_append, readField, List.append_assoc, List.singleton_append, readQuoted_of_doubled hs hquote,
      Option.map_some, hrest, List.append_nil]

/-! ### Lines -/

theorem readFields_of_comma {s f rest : List Char} (h : readField s = some (f, ',' :: rest)) :
    readFields s = (readFields rest).map fun r => (f :: r.1, r.2) := by
  rw [readFields]
  split <;> simp_all

theorem readFields_of_end {s f rest : List Char} (h : readField s = some (f, '\r' :: '\n' :: rest)) :
    readFields s = some ([f], .line rest) := by
  rw [readFields]
  split <;> simp_all

/-- A line is read back, whatever stands behind it. -/
theorem readFields_of_spells {fields : List (List Char)} {t : List Char} (h : SpellsLine fields t)
    (rest : List Char) : readFields (t ++ rest) = some (fields, .line rest) := by
  induction h with
  | last h =>
    rw [List.append_assoc]
    exact readFields_of_end (readField_of_spells h _ (by decide))
  | cons h _ ih =>
    rw [List.append_assoc, List.cons_append, readFields_of_comma (readField_of_spells h _ (by decide)), ih]
    rfl

theorem seekLine_cons {passed : Nat} {resume : List Char} {blank : Bool} {c : Char} (rest : List Char)
    (hfeed : c ≠ '\n') (hreturn : c ≠ '\r') :
    seekLine passed resume blank (c :: rest) =
      if c = ' ' ∨ c = '\t' then seekLine passed resume true rest
      else some (passed, if blank then resume else c :: rest) := by
  rw [seekLine] <;> grind

/-- Blanks at the front of a line that is no blank line belong to its first field. -/
theorem seekLine_append {passed : Nat} {resume : List Char} {lead rest : List Char} {c : Char}
    (hlead : ∀ b ∈ lead, b = ' ' ∨ b = '\t') (hc : ¬(c = ' ' ∨ c = '\t')) (hfeed : c ≠ '\n')
    (hreturn : c ≠ '\r') : seekLine passed resume true (lead ++ c :: rest) = some (passed, resume) := by
  induction lead with
  | nil => rw [List.nil_append, seekLine_cons rest hfeed hreturn, if_neg hc, if_pos rfl]
  | cons b lead ih =>
    obtain ⟨hb, hlead⟩ := List.forall_mem_cons.1 hlead
    have hends : b ≠ '\n' ∧ b ≠ '\r' := by rcases hb with rfl | rfl <;> decide
    rw [List.cons_append, seekLine_cons _ hends.1 hends.2, if_pos hb, ih hlead]

theorem seekLine_of_lead {passed : Nat} {s lead rest : List Char} {c : Char} (hs : s = lead ++ c :: rest)
    (hlead : ∀ b ∈ lead, b = ' ' ∨ b = '\t') (hc : ¬(c = ' ' ∨ c = '\t')) (hfeed : c ≠ '\n')
    (hreturn : c ≠ '\r') : seekLine passed s false s = some (passed, s) := by
  cases lead with
  | nil =>
    rw [hs, List.nil_append, seekLine_cons rest hfeed hreturn, if_neg hc, if_neg Bool.false_ne_true]
  | cons b lead =>
    obtain ⟨hb, hlead⟩ := List.forall_mem_cons.1 hlead
    have hends : b ≠ '\n' ∧ b ≠ '\r' := by rcases hb with rfl | rfl <;> decide
    conv_lhs => rw [hs, List.cons_append, seekLine_cons _ hends.1 hends.2, if_pos hb]
    rw [seekLine_append hlead hc hfeed hreturn, hs, List.cons_append]

/-- In front of a comma, the spelling of a field is blank or holds something that ends no line. -/
theorem SpellsField.exists_lead {s t : List Char} (h : SpellsField s t) (rest : List Char) :
    ∃ lead c more, t ++ ',' :: rest = lead ++ c :: more ∧ (∀ b ∈ lead, b = ' ' ∨ b = '\t') ∧
      ¬(c = ' ' ∨ c = '\t') ∧ c ≠ '\n' ∧ c ≠ '\r' := by
  cases h with
  | @quoted t h =>
    exact ⟨[], '"', t ++ ['"'] ++ ',' :: rest, by simp, by simp, by decide, by decide, by decide⟩
  | plain hs =>
    induction s with
    | nil => exact ⟨[], ',', rest, rfl, by simp, by decide, by decide, by decide⟩
    | cons c s ih =>
      obtain ⟨hc, hs⟩ := List.forall_mem_cons.1 hs
      by_cases hblank : c = ' ' ∨ c = '\t'
      · obtain ⟨lead, d, more, heq, hlead, hd⟩ := ih hs
        exact ⟨c :: lead, d, more, by rw [List.cons_append, heq, List.cons_append],
          List.forall_mem_cons.2 ⟨hblank, hlead⟩, hd⟩
      · simp only [List.mem_cons, List.not_mem_nil, or_false, not_or] at hc
        exact ⟨[], c, s ++ ',' :: rest, rfl, by simp, hblank, hc.2.2.2, hc.2.2.1⟩

/-- A line with at least two fields is no blank line. -/
theorem seekLine_of_spells (passed : Nat) {fields : List (List Char)} {t : List Char} (h : SpellsLine fields t)
    (hwide : 2 ≤ fields.length) (rest : List Char) :
    seekLine passed (t ++ rest) false (t ++ rest) = some (passed, t ++ rest) := by
  cases h with
  | last h => simp at hwide
  | @cons f t u fields h hline =>
    obtain ⟨lead, c, more, heq, hlead, hc, hfeed, hreturn⟩ := h.exists_lead (u ++ rest)
    rw [List.append_assoc, List.cons_append]
    exact seekLine_of_lead heq hlead hc hfeed hreturn

/-! ### Tables -/

/-- Lines that follow each other. -/
def numbered (number : Nat) : List (List (List Char)) → List Line
  | [] => []
  | fields :: more => { number := number + 1, fields } :: numbered (number + 1) more

theorem map_fields_numbered (number : Nat) (rows : List (List (List Char))) :
    (numbered number rows).map Line.fields = rows := by
  induction rows generalizing number with
  | nil => rfl
  | cons fields rows ih => rw [numbered, List.map_cons, ih]

theorem readLines_cons {number : Nat} {text rest : List Char} {fields : List (List Char)}
    (hseek : seekLine number text false text = some (number, text))
    (hfields : readFields text = some (fields, .line rest)) :
    readLines number (.line text) =
      { readLines (number + 1) (.line rest) with
        lines := { number := number + 1, fields } :: (readLines (number + 1) (.line rest)).lines } := by
  rw [readLines]
  split
  · next hnone =>
    rw [hseek] at hnone
    cases hnone
  · next passed start hstart =>
    rw [hseek] at hstart
    cases hstart
    split
    · next hnone =>
      rw [hfields] at hnone
      cases hnone
    · next fields' rest' hread =>
      rw [hfields] at hread
      cases hread
      rfl

/-- The lines of a text that spells lines. -/
theorem readLines_of_spells (number : Nat) {rows : List (List (List Char))} {t : List Char}
    (h : SpellsLines rows t) (hwide : ∀ r ∈ rows, 2 ≤ r.length) :
    readLines number (.line t) = { lines := numbered number rows, openQuote := none } := by
  induction h generalizing number with
  | nil =>
    rw [readLines]
    rfl
  | cons h _ ih =>
    obtain ⟨hfields, hrows⟩ := List.forall_mem_cons.1 hwide
    rw [readLines_cons (seekLine_of_spells number h hfields _) (readFields_of_spells h _), ih _ hrows]
    rfl

namespace Table

theorem tooWide?_eq_none {width : Nat} {lines : List Line} (h : ∀ l ∈ lines, l.fields.length = width) :
    tooWide? width lines = none := by
  rw [tooWide?, List.find?_eq_none]
  intro l hl
  rw [h l hl, decide_eq_true_eq]
  exact Nat.lt_irrefl width

/-- Lines that are all as wide as the header make a table as they are. -/
theorem ofReading_numbered (number : Nat) (header : List (List Char)) {rows : List (List (List Char))}
    (h : ∀ r ∈ rows, r.length = header.length) :
    ofReading { lines := numbered number (header :: rows), openQuote := none } =
      .ok { columns := header.map fun f => String.ofList (visible f)
            rows := rows.map (·.map visible) } := by
  have hlines : ∀ l ∈ numbered (number + 1) rows, l.fields.length = header.length := by
    intro l hl
    refine h l.fields ?_
    rw [← map_fields_numbered (number + 1) rows]
    exact List.mem_map_of_mem hl
  have hsurplus :
      ((numbered (number + 1) rows).head?.map (·.fields.length)).getD 0 - header.length = 0 := by
    cases hhead : (numbered (number + 1) rows).head? with
    | none => exact Nat.zero_sub _
    | some l =>
      rw [Option.map_some, Option.getD_some, hlines l (List.mem_of_mem_head? hhead), Nat.sub_self]
  rw [numbered, ofReading]
  dsimp only
  rw [hsurplus, Nat.add_zero, tooWide?_eq_none hlines]
  have hrows : (numbered (number + 1) rows).map (fun l => l.fields.map visible) =
      rows.map (·.map visible) := by
    conv_rhs => rw [← map_fields_numbered (number + 1) rows, List.map_map]
    rfl
  simp only [List.drop_zero, hrows]

/-- A text that spells a header and rows as wide is read as they are. -/
theorem ofText_of_spells {header : List (List Char)} {rows : List (List (List Char))} {t : List Char}
    (h : SpellsLines (header :: rows) t) (hheader : 2 ≤ header.length)
    (hrows : ∀ r ∈ rows, r.length = header.length) (hmark : t.head? ≠ some '\uFEFF') :
    ofText t = .ok { columns := header.map fun f => String.ofList (visible f)
                     rows := rows.map (·.map visible) } := by
  have hwide : ∀ r ∈ header :: rows, 2 ≤ r.length :=
    List.forall_mem_cons.2 ⟨hheader, fun r hr => by rwa [hrows r hr]⟩
  rw [ofText]
  · rw [readLines_of_spells 0 h hwide, ofReading_numbered 0 header hrows]
  · rintro rest heq
    rw [heq] at hmark
    exact hmark rfl

end Table

end SatSearch.Csv
