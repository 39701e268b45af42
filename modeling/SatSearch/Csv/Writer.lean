import SatSearch.Value

/-!
# Writing tables

A table is written line by line, its fields divided by commas. A field that holds a comma, a double quote or
a line end is put between double quotes, with the quotes in it doubled (`field`).
-/

namespace SatSearch.Csv

/-- Whether the character can only stand in a field between quotes. -/
def isSpecial (c : Char) : Bool :=
  c == ',' || c == '"' || c == '\r' || c == '\n'

/-- A text with its quotes doubled. -/
def doubleQuotes : List Char → List Char
  | [] => []
  | c :: rest => if c = '"' then '"' :: '"' :: doubleQuotes rest else c :: doubleQuotes rest

/-- The spelling of a field. -/
def field (s : List Char) : List Char :=
  if s.any isSpecial then '"' :: doubleQuotes s ++ ['"'] else s

/-- The spelling of a line; both characters of the line end are written. -/
def line (fields : List (List Char)) : List Char :=
  [','].intercalate (fields.map field) ++ ['\r', '\n']

/-- The text of a value that may be missing. -/
def valueText : Option Value → List Char
  | none => []
  | some v => v.text.toList

/-- The spelling of a table: a line with the names of its columns, and its rows. -/
def table (columns : List String) (rows : List (List (Option Value))) : List Char :=
  line (columns.map String.toList) ++ rows.flatMap fun r => line (r.map valueText)

end SatSearch.Csv
