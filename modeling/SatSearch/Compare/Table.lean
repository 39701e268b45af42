import SatSearch.Csv.Column
import SatSearch.Csv.Reader
import SatSearch.Files
import SatSearch.Text.Quoted
import SatSearch.Text.Utf8

/-!
# Tables of runs

The table of a run is read by a `TableReader`, which opens a file and gives its columns by their names. What
compares runs takes any reader; `readTable` is the one that commands use.
-/

namespace SatSearch

/-- Why the times of a run cannot be read. -/
inductive RunError where
  | file (error : FileError)
  | notText (error : Text.Utf8Error)
  | table (error : Csv.Error)
  | missingColumn (name : String)
deriving DecidableEq

/-- The bytes of a bad sequence as reports name them. -/
def badBytes (sequence : List UInt8) (start : Nat) : String :=
  match sequence with
  | [b] => s!"byte 0x{String.ofList (Text.hex 2 b.toNat)} in position {start}"
  | _ => s!"bytes in position {start}-{start + sequence.length - 1}"

/-- The text that reports bytes that are no text. A sequence that the end of the file cuts off is looked at
on its own, so that its bytes count from zero. -/
def notTextMessage (e : Text.Utf8Error) : String :=
  let start := if e.fault = .unexpectedEnd then 0 else e.offset
  "'utf-8' codec can't decode " ++ badBytes e.sequence start ++ ": " ++ e.fault.text

/-- The text that reports a run error. -/
def RunError.message : RunError → String
  | file e => e.message
  | notText e => notTextMessage e
  | table e => e.message
  | missingColumn name => Text.quoted name

/-- A table that was read. -/
structure Frame where
  /-- The values of the column of a name, nothing for a field that is missing. -/
  column? : String → Option (List (Option Value))

/-- Reads the table in a file. -/
abbrev TableReader := Files → Path → Except RunError Frame

/-- The columns of a table, each of one kind. -/
def Csv.Table.frame (t : Csv.Table) : Frame where
  column? name := (t.column? name).map Csv.values

/-- Reads the table in a file: its bytes are decoded, cut into fields, and the columns brought to one kind. -/
def readTable : TableReader := fun fs path =>
  match fs.read path.text with
  | .error e => .error (.file e)
  | .ok bytes =>
    match Text.decode bytes with
    | .error e => .error (.notText e)
    | .ok text =>
      match Csv.Table.ofText text with
      | .error e => .error (.table e)
      | .ok t => .ok t.frame

end SatSearch
