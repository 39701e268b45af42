import SatSearch.Decimal.Field
import SatSearch.Value

/-!
# Columns of one kind

All fields of a column are of one kind: whole numbers, numbers, truth values or words, whichever comes first
in this order and fits every field that is not missing (`values`).

Whole numbers are looked for with a sign and within 64 bits first. If one is too great they are looked for
without a sign, and if that does not do either, without bounds (`wholeColumn`). A column in which a field
breaks off these attempts consists of words, in which no field counts as missing.
-/

namespace SatSearch.Csv

open SatSearch.Decimal

/-- The words that stand for a missing field. -/
def missingWords : List String :=
  ["", "#N/A", "#N/A N/A", "#NA", "-1.#IND", "-1.#QNAN", "-NaN", "-nan", "1.#IND", "1.#QNAN", "<NA>", "N/A",
   "NA", "NULL", "NaN", "None", "n/a", "nan", "null"]

/-- Whether a field is missing. -/
def isMissing (s : List Char) : Bool :=
  missingWords.contains (String.ofList s)

/-- Reads all fields that are not missing; the first one that cannot be read decides the error. -/
def readPresent {ε α : Type} (read : List Char → Except ε α) (fields : List (List Char)) :
    Except ε (List (Option α)) :=
  fields.mapM fun s => if isMissing s then .ok none else (read s).map some

/-! ### Whole numbers -/

/-- Why a field spells no whole number within bounds. -/
inductive WholeFault where
  | notWhole
  | tooGreat
deriving DecidableEq

/-- The digits at the front as a number, if it fits. One that does not fit only counts as too great if
nothing follows its digits. -/
def boundedWhole (value : Nat → Int) (fits : Int → Bool) (s : List Char) : Except WholeFault Int :=
  match asciiDigits s with
  | ([], _) => .error .notWhole
  | (ds, rest) =>
    let n := value (Text.ofDigits ds)
    if fits n then if rest.all isFieldBlank then .ok n else .error .notWhole
    else if rest.isEmpty then .error .tooGreat
    else .error .notWhole

/-- The least number that does not fit into 64 bits with a sign. -/
def signedLimit : Int := Nat.pow 2 63

/-- Whether a number fits into 64 bits with a sign. -/
def fitsSigned (n : Int) : Bool :=
  -signedLimit ≤ n && n < signedLimit

/-- Whether a number fits into 64 bits without a sign. -/
def fitsUnsigned (n : Int) : Bool :=
  0 ≤ n && n < 2 * signedLimit

/-- The whole number with a sign that a field spells, blanks around it allowed. -/
def signedWhole (s : List Char) : Except WholeFault Int :=
  let (negative, digits) := Text.splitSign (s.dropWhile isFieldBlank)
  boundedWhole (fun n => if negative then -n else n) fitsSigned digits

/-- The whole number without a sign that a field spells; nothing if there is a minus sign, whatever
follows it. -/
def unsignedWhole (s : List Char) : Except WholeFault (Option Int) :=
  match Text.splitSign (s.dropWhile isFieldBlank) with
  | (true, _) => .ok none
  | (false, digits) => (boundedWhole Int.ofNat fitsUnsigned digits).map some

/-- The whole number of any size that a field spells. -/
def anyWhole (s : List Char) : Except WholeFault Int :=
  if s.all (·.toNat < 0x80) then
    match Text.integer? (Text.trimBy isFieldBlank s) with
    | some n => .ok n
    | none => .error .notWhole
  else .error .notWhole

/-- A whole number as a number with a fraction. The least number of 64 bits stands for a missing field. -/
def wholeAsReal (n : Int) : Option Value :=
  let x := Float.ofInt n
  if x == Float.ofInt (-signedLimit) then none else some (.real x)

/-- All fields as words, none of them missing. -/
def allWords (fields : List (List Char)) : List (Option Value) :=
  fields.map fun s => some (.word (String.ofList s))

/-- A column of whole numbers without bounds. -/
def unboundedColumn (fields : List (List Char)) : List (Option Value) :=
  match readPresent anyWhole fields with
  | .ok ns => ns.map (Option.map .whole)
  | .error _ => allWords fields

/-- A column of whole numbers without a sign. Numbers that need all 64 bits go neither with a minus sign
nor with a missing field. -/
def unsignedColumn (fields : List (List Char)) : Option (List (Option Value)) :=
  match readPresent unsignedWhole fields with
  | .error .notWhole => none
  | .error .tooGreat => some (unboundedColumn fields)
  | .ok ns =>
    let present := ns.filterMap id
    let great := present.any (·.any (signedLimit ≤ ·))
    let signed := present.any Option.isNone
    if great && (signed || ns.any Option.isNone) then some (allWords fields)
    else if signed then some (unboundedColumn fields)
    else some (ns.map fun n => n.join.map .whole)

/-- A column of whole numbers, if it is one. They become numbers with a fraction if a field is missing. -/
def wholeColumn (fields : List (List Char)) : Option (List (Option Value)) :=
  match readPresent signedWhole fields with
  | .error .notWhole => none
  | .error .tooGreat => unsignedColumn fields
  | .ok ns =>
    if ns.all Option.isSome then some (ns.map (Option.map .whole))
    else some (ns.map (·.bind wholeAsReal))

/-! ### Other kinds -/

/-- The truth value that a field spells, in upper or lower case. -/
def truth? (s : List Char) : Option Bool :=
  match String.ofList (s.map Char.toLower) with
  | "true" => some true
  | "false" => some false
  | _ => none

/-- A column of a kind, if every field that is not missing is of that kind. -/
def columnOfKind (read : List Char → Option Value) (fields : List (List Char)) :
    Option (List (Option Value)) :=
  (readPresent (fun s => (read s).elim (.error ()) .ok) fields).toOption

/-- A column of words. -/
def wordColumn (fields : List (List Char)) : List (Option Value) :=
  fields.map fun s => if isMissing s then none else some (.word (String.ofList s))

/-- The values of a column. -/
def values (fields : List (List Char)) : List (Option Value) :=
  (wholeColumn fields <|> columnOfKind (fun s => (fieldNumber? s).map .real) fields <|>
    columnOfKind (fun s => (truth? s).map .truth) fields).getD (wordColumn fields)

end SatSearch.Csv
