/-!
# Reading tables

A text is cut into lines and each line into fields (`readLines`), and the lines make a table
(`Table.ofText`). Commas divide the fields. A field that starts with a quote goes on to the next lone quote;
a quote written twice stands for one. Lines end with a line feed, a carriage return or both, and lines with
nothing but blanks are passed over. The first line holds the names of the columns.
-/

namespace SatSearch.Csv

/-! ### Fields -/

/-- Whether the character ends a field outside quotes. -/
def endsField (c : Char) : Bool :=
  c == ',' || c == '\n' || c == '\r'

/-- The text up to the next end of a field, and the rest. -/
def readPlain (s : List Char) : List Char × List Char :=
  (s.takeWhile (!endsField ·), s.dropWhile (!endsField ·))

/-- The text behind an opening quote up to the next lone quote, and what follows that quote. -/
def readQuoted : List Char → Option (List Char × List Char)
  | [] => none
  | '"' :: '"' :: rest => (readQuoted rest).map fun r => ('"' :: r.1, r.2)
  | c :: rest => if c = '"' then some ([], rest) else (readQuoted rest).map fun r => (c :: r.1, r.2)

/-- Reads a field, if its quotes are closed. What stands behind the closing quote belongs to the field. -/
def readField : List Char → Option (List Char × List Char)
  | '"' :: rest => (readQuoted rest).map fun r => (r.1 ++ (readPlain r.2).1, (readPlain r.2).2)
  | s => some (readPlain s)

theorem length_readPlain_le (s : List Char) : (readPlain s).2.length ≤ s.length :=
  (List.dropWhile_sublist (!endsField ·) (l := s)).length_le

theorem length_readQuoted_le {s text rest : List Char} (h : readQuoted s = some (text, rest)) :
    rest.length ≤ s.length := by
  fun_induction readQuoted s generalizing text with
  | case1 => simp at h
  | case2 tail ih =>
    obtain ⟨r, hr, he⟩ := Option.map_eq_some_iff.1 h
    cases he
    have := ih hr
    simp only [List.length_cons]
    omega
  | case3 tail =>
    simp only [Option.some.injEq, Prod.mk.injEq] at h
    simp [h.2]
  | case4 c tail _ hc ih =>
    obtain ⟨r, hr, he⟩ := Option.map_eq_some_iff.1 h
    cases he
    have := ih hr
    simp only [List.length_cons]
    omega

theorem length_readField_le {s text rest : List Char} (h : readField s = some (text, rest)) :
    rest.length ≤ s.length := by
  unfold readField at h
  split at h
  · obtain ⟨r, hr, he⟩ := Option.map_eq_some_iff.1 h
    cases he
    have h1 := length_readQuoted_le hr
    have h2 := length_readPlain_le r.2
    simp only [List.length_cons]
    omega
  · have := length_readPlain_le s
    rw [Option.some.injEq] at h
    rwa [h] at this

/-! ### Lines -/

/-- What is left of a text behind a line. -/
inductive Rest where
  /-- A line starts here. -/
  | line (text : List Char)
  /-- The first field of the next line is empty, and its second field starts here. -/
  | field (text : List Char)

/-- A measure that every line makes smaller. -/
def Rest.size : Rest → Nat
  | line text => 2 * text.length
  | field text => 2 * text.length + 1

/-- Reads the fields of a line, if their quotes are closed. A comma right behind a carriage return belongs
to the next line. -/
def readFields (s : List Char) : Option (List (List Char) × Rest) :=
  match _h : readField s with
  | none => none
  | some (f, []) => some ([f], .line [])
  | some (f, ',' :: rest) => (readFields rest).map fun r => (f :: r.1, r.2)
  | some (f, '\r' :: '\n' :: rest) => some ([f], .line rest)
  | some (f, '\r' :: ',' :: rest) => some ([f], .field rest)
  | some (f, _ :: rest) => some ([f], .line rest)
termination_by s.length
decreasing_by
  have := length_readField_le ‹_›
  simp only [List.length_cons] at this
  omega

theorem size_readFields_le {s : List Char} {fields : List (List Char)} {rest : Rest}
    (h : readFields s = some (fields, rest)) : rest.size ≤ 2 * s.length - 1 := by
  fun_induction readFields s generalizing fields with
  | case1 => simp at h
  | case2 => simp_all [Rest.size]; rw [← h.2]; simp
  | case3 s f tail hf ih =>
    obtain ⟨r, hr, he⟩ := Option.map_eq_some_iff.1 h
    cases he
    have h1 := ih hr
    have h2 := length_readField_le hf
    simp only [List.length_cons] at h2
    omega
  | case4 s f tail hf =>
    have h2 := length_readField_le hf
    simp only [Option.some.injEq, Prod.mk.injEq] at h
    simp only [← h.2, Rest.size, List.length_cons] at h2 ⊢
    omega
  | case5 s f tail hf =>
    have h2 := length_readField_le hf
    simp only [Option.some.injEq, Prod.mk.injEq] at h
    simp only [← h.2, Rest.size, List.length_cons] at h2 ⊢
    omega
  | case6 s f c tail _ _ _ hf =>
    have h2 := length_readField_le hf
    simp only [Option.some.injEq, Prod.mk.injEq] at h
    simp only [← h.2, Rest.size, List.length_cons] at h2 ⊢
    omega

/-- Passes over blank lines and counts them on from `passed`; gives the text in which the fields of the next
line start. Blanks in front of the first field belong to it, so reading goes back to `resume` for them, which
is where the line starts. A carriage return of a blank line takes a comma behind it along, and does not
move the place to go back to. -/
def seekLine (passed : Nat) (resume : List Char) (blank : Bool) : List Char → Option (Nat × List Char)
  | [] => none
  | '\n' :: rest => seekLine (passed + 1) rest false rest
  | '\r' :: '\n' :: rest => seekLine (passed + 1) rest false rest
  | '\r' :: ',' :: rest => seekLine (passed + 1) resume false rest
  | '\r' :: rest => seekLine (passed + 1) resume false rest
  | c :: rest =>
    if c = ' ' ∨ c = '\t' then seekLine passed resume true rest
    else some (passed, if blank then resume else c :: rest)

theorem length_seekLine {passed n : Nat} {resume s text : List Char} {blank : Bool}
    (h : seekLine passed resume blank s = some (n, text)) (hs : s.length ≤ resume.length) :
    0 < text.length ∧ text.length ≤ resume.length := by
  fun_induction seekLine passed resume blank s <;> grind

/-- A line with fields. -/
structure Line where
  /-- Its number, the lines passed over counted. -/
  number : Nat
  fields : List (List Char)

/-- What reading lines gives. -/
structure Reading where
  lines : List Line
  /-- For a text that ends inside quotes, the number of lines in front of the one with the quotes. -/
  openQuote : Option Nat

/-- Reads all lines behind a number of others. -/
def readLines (number : Nat) (rest : Rest) : Reading :=
  match rest with
  | .line text =>
    match _h : seekLine number text false text with
    | none => { lines := [], openQuote := none }
    | some (passed, start) =>
      match _h : readFields start with
      | none => { lines := [], openQuote := some passed }
      | some (fields, rest) =>
        let r := readLines (passed + 1) rest
        { r with lines := { number := passed + 1, fields } :: r.lines }
  | .field text =>
    match _h : readFields text with
    | none => { lines := [], openQuote := some number }
    | some (fields, rest) =>
      let r := readLines (number + 1) rest
      { r with lines := { number := number + 1, fields := [] :: fields } :: r.lines }
termination_by rest.size
decreasing_by
  · have h1 := length_seekLine ‹_› (Nat.le_refl _)
    have h2 := size_readFields_le ‹_›
    simp only [Rest.size] at h2 ⊢
    omega
  · have h2 := size_readFields_le ‹_›
    simp only [Rest.size] at h2 ⊢
    omega

/-! ### Tables -/

/-- Why a text is no table. -/
inductive Error where
  | noColumns
  | openQuote (linesBefore : Nat)
  /-- A line has more fields than the lines before it. -/
  | tooManyFields (expected line found : Nat)
deriving DecidableEq

/-- The text that reports an error. -/
def Error.message : Error → String
  | noColumns => "No columns to parse from file"
  | openQuote n => s!"Error tokenizing data. C error: EOF inside string starting at row {n}"
  | tooManyFields expected line found =>
    s!"Error tokenizing data. C error: Expected {expected} fields in line {line}, saw {found}\n"

/-- A table: the names of its columns, and its rows. -/
structure Table where
  columns : List String
  rows : List (List (List Char))

namespace Table

/-- What is seen of a field: what stands in front of the character zero. -/
def visible (field : List Char) : List Char :=
  field.takeWhile (· != Char.ofNat 0)

/-- The first of some lines with more than `width` fields. -/
def tooWide? (width : Nat) (lines : List Line) : Option Line :=
  lines.find? fun l => width < l.fields.length

/-- A table from its lines. The first row may have more fields than the header has names; those count as the
front of each row and are dropped. No later row may have more fields than that. -/
def ofReading (r : Reading) : Except Error Table :=
  match r.lines, r.openQuote with
  | [], none => .error .noColumns
  | [], some n => .error (.openQuote n)
  | header :: rows, quote =>
    let surplus := ((rows.head?.map (·.fields.length)).getD 0) - header.fields.length
    let width := header.fields.length + surplus
    match tooWide? width rows, quote with
    | some l, _ => .error (.tooManyFields width l.number l.fields.length)
    | none, some n => .error (.openQuote n)
    | none, none =>
      .ok { columns := header.fields.map fun f => String.ofList (visible f)
            rows := rows.map fun l => (l.fields.drop surplus).map visible }

/-- Reads a table. A byte order mark in front is passed over. -/
def ofText (text : List Char) : Except Error Table :=
  match text with
  | '\uFEFF' :: rest => ofReading (readLines 0 (.line rest))
  | _ => ofReading (readLines 0 (.line text))

/-- The fields of a column. A row that is too short has empty fields at its end. -/
def column? (t : Table) (name : String) : Option (List (List Char)) :=
  (t.columns.idxOf? name).map fun i => t.rows.map fun row => row.getD i []

end Table

end SatSearch.Csv
