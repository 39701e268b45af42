import SatSearch.Compare.Table
import SatSearch.Proofs.Columns
import SatSearch.Proofs.Tables
import SatSearch.Proofs.Utf8

/-!
# What readers of tables are relied on for

A reader that reads tables at a path gives a column for each name of the header (`TableReader.ReadsAt`). If all
fields of a column are texts of numbers, each of them is converted on its own; if all are statuses or empty, the
values are these words, and an empty field is missing (`ReadsColumn`). Nothing is said of other columns. Main
statement: `readTable` reads tables at every path (`readTable_readsAt`).
-/

namespace SatSearch

/-- The words in the columns with statuses. -/
def statusWords : List String :=
  ["SAT", "UNSAT", "TIMEOUT", "ERROR"]

/-- The value of a field in a column of words. -/
def wordValue (s : List Char) : Option Value :=
  if s = [] then none else some (.word (String.ofList s))

/-- What a column of one kind is read as. -/
structure ReadsColumn (conv : List Char → Option Value) (fields : List (List Char)) (column : List (Option Value)) :
    Prop where
  numbers : (∀ s ∈ fields, ∃ x : Float, Decimal.IsText x s) → column = fields.map conv
  words : (∀ s ∈ fields, s = [] ∨ String.ofList s ∈ statusWords) → column = fields.map wordValue

/-- A header of different names and rows that are as wide. The names are lower-case words, and no field holds the
character zero. -/
structure IsRegular (header : List String) (rows : List (List (List Char))) : Prop where
  wide : 2 ≤ header.length
  nodup : header.Nodup
  name : ∀ name ∈ header, name ≠ "" ∧ ∀ c ∈ name.toList, c.isLower = true ∨ c = '_'
  width : ∀ r ∈ rows, r.length = header.length
  visible : ∀ r ∈ rows, ∀ s ∈ r, Char.ofNat 0 ∉ s

/-- A reader reads the tables in the file at a path, and turns numbers into values by a conversion. -/
structure TableReader.ReadsAt (reader : TableReader) (conv : List Char → Option Value) (path : Path) : Prop where
  exists_frame : ∀ {fs : Files} {text : List Char} {header : List String} {rows : List (List (List Char))},
    fs.read path.text = .ok (Text.encode text) →
    Csv.SpellsLines (header.map String.toList :: rows) text → IsRegular header rows →
    ∃ frame, reader fs path = .ok frame ∧ ∀ (i : Nat) (name : String), header[i]? = some name →
      ∃ column, frame.column? name = some column ∧ ReadsColumn conv (rows.map (·.getD i [])) column

/-! ### The reader of the commands -/

/-- The conversion of `readTable`. -/
def readNumber (s : List Char) : Option Value :=
  (Decimal.fieldNumber? s).map .real

namespace Csv

theorem visible_eq_self {s : List Char} (h : Char.ofNat 0 ∉ s) : Table.visible s = s := by
  rw [Table.visible, List.takeWhile_eq_self_iff]
  intro c hc
  rw [bne_iff_ne]
  rintro rfl
  exact h hc

theorem isOther_of_mem_statusWords {s : List Char} (h : String.ofList s ∈ statusWords) :
    isMissing s = false ∧ s ≠ [] ∧ IsOther s := by
  have hall : ∀ w ∈ statusWords, isMissing w.toList = false ∧ w.toList ≠ [] ∧
      signedWhole w.toList = .error .notWhole ∧ Decimal.fieldNumber? w.toList = none ∧ truth? w.toList = none := by
    decide
  obtain ⟨hmissing, hne, hwhole, hnumber, htruth⟩ := hall _ h
  rw [String.toList_ofList] at hmissing hne hwhole hnumber htruth
  exact ⟨hmissing, hne, hwhole, hnumber, htruth⟩

theorem readsColumn_values (fields : List (List Char)) : ReadsColumn readNumber fields (values fields) where
  numbers h := by
    refine values_of_isReal fun s hs => ?_
    obtain ⟨x, hx⟩ := h s hs
    exact hx.isNumeric.isReal
  words h := by
    have hother : ∀ s ∈ fields, isMissing s = false → IsOther s := by
      intro s hs hmissing
      rcases h s hs with rfl | hword
      · exact absurd hmissing (by decide)
      · exact (isOther_of_mem_statusWords hword).2.2
    rw [values_of_isOther hother, wordColumn]
    refine List.map_congr_left fun s hs => ?_
    rcases h s hs with rfl | hword
    · rfl
    · obtain ⟨hmissing, hne, -⟩ := isOther_of_mem_statusWords hword
      rw [hmissing, if_neg Bool.false_ne_true, wordValue, if_neg hne]

theorem SpellsField.head? {s t : List Char} (h : SpellsField s t) (hs : s ≠ []) :
    ∃ c rest, t = c :: rest ∧ (c = '"' ∨ c ∈ s) := by
  cases h with
  | plain h =>
    obtain ⟨c, rest, rfl⟩ := List.exists_cons_of_ne_nil hs
    exact ⟨c, rest, rfl, .inr List.mem_cons_self⟩
  | quoted h => exact ⟨'"', _, rfl, .inl rfl⟩

theorem SpellsLines.head? {f : List Char} {fields : List (List Char)} {rows : List (List (List Char))}
    {text : List Char} (h : SpellsLines ((f :: fields) :: rows) text) (hf : f ≠ []) :
    ∃ c rest, text = c :: rest ∧ (c = '"' ∨ c ∈ f) := by
  obtain _ | ⟨hline, -⟩ := h
  obtain ⟨hfield⟩ | ⟨hfield, -⟩ := hline
  all_goals
    obtain ⟨c, rest, rfl, hc⟩ := hfield.head? hf
    exact ⟨c, _, rfl, hc⟩

end Csv

namespace IsRegular

variable {header : List String} {rows : List (List (List Char))} (h : IsRegular header rows)

include h

theorem visible_name : ∀ name ∈ header, Csv.Table.visible name.toList = name.toList := by
  intro name hname
  refine Csv.visible_eq_self fun hzero => ?_
  rcases (h.name name hname).2 _ hzero with hlower | heq
  · exact absurd hlower (by decide)
  · exact absurd heq (by decide)

/-- No text of a table with such a header starts with a byte order mark. -/
theorem head?_ne {text : List Char} (htext : Csv.SpellsLines (header.map String.toList :: rows) text) :
    text.head? ≠ some '\uFEFF' := by
  obtain ⟨name, names, rfl⟩ := List.exists_cons_of_length_pos (Nat.lt_of_lt_of_le Nat.two_pos h.wide)
  obtain ⟨hne, hchars⟩ := h.name name List.mem_cons_self
  obtain ⟨c, rest, rfl, hc⟩ := htext.head? (by simpa using hne)
  rintro ⟨⟩
  rcases hc with hquote | hmem
  · exact absurd hquote (by decide)
  · rcases hchars _ hmem with hlower | heq
    · exact absurd hlower (by decide)
    · exact absurd heq (by decide)

/-- The table that is read from a text that spells it. -/
theorem ofText_eq {text : List Char} (htext : Csv.SpellsLines (header.map String.toList :: rows) text) :
    Csv.Table.ofText text = .ok { columns := header, rows := rows } := by
  have hnames : ((header.map String.toList).map fun f => String.ofList (Csv.Table.visible f)) = header := by
    rw [List.map_map]
    conv_rhs => rw [← List.map_id header]
    refine List.map_congr_left fun name hname => ?_
    rw [Function.comp_apply, h.visible_name name hname, String.ofList_toList]
    rfl
  have hfields : rows.map (·.map Csv.Table.visible) = rows := by
    conv_rhs => rw [← List.map_id rows]
    refine List.map_congr_left fun r hr => ?_
    rw [← List.map_id r, id, List.map_map]
    exact List.map_congr_left fun s hs => Csv.visible_eq_self (h.visible r hr s hs)
  rw [Csv.Table.ofText_of_spells htext (by simpa using h.wide) (by simpa using h.width) (h.head?_ne htext),
    hnames, hfields]

end IsRegular

theorem readTable_readsAt (path : Path) : TableReader.ReadsAt readTable readNumber path where
  exists_frame {fs text header rows} hread htext h := by
    have hdecode : Text.decode (Text.encode text) = .ok text := Text.decode_eq_ok_iff.2 rfl
    have hframe : readTable fs path = .ok (Csv.Table.frame { columns := header, rows := rows }) := by
      simp only [readTable, hread, hdecode, h.ofText_eq htext]
    refine ⟨_, hframe, fun i name hname => ⟨_, ?_, Csv.readsColumn_values _⟩⟩
    have hindex : header.idxOf? name = some i := by
      obtain ⟨hi, rfl⟩ := List.getElem?_eq_some_iff.1 hname
      refine List.idxOf?_eq_some_iff.2 ⟨hi, rfl, fun j hj heq => ?_⟩
      exact hj.ne ((h.nodup.getElem_inj_iff).1 heq)
    simp only [Csv.Table.frame, Csv.Table.column?, hindex, Option.map_some]

end SatSearch
