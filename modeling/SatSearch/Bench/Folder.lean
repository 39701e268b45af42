import SatSearch.Bench.Instance
import SatSearch.Status

/-!
# Instances in a folder

The instances of a folder are the entries below it, at any depth, whose name ends in `.cnf`, in the order of
their parts. The status of an instance is known if one of the folders it lies in is named for it, or if its
name starts as the names of uniform random formulas do.
-/

namespace SatSearch

/-- The status that the name of a folder stands for, in upper or lower case. No character outside ASCII has
one of these letters as its lower case. -/
def statusOfFolder? (name : String) : Option Status :=
  match String.ofList (name.toList.map Char.toLower) with
  | "sat" => some .sat
  | "unsat" => some .unsat
  | _ => none

/-- The status that the name of a file stands for. -/
def statusOfFile? (name : String) : Option Status :=
  if name.startsWith "uuf" then some .unsat
  else if name.startsWith "uf" then some .sat
  else none

/-- The status that a path stands for. The folder closest to the file decides before its name does. -/
def Path.expectedStatus? (p : Path) : Option Status :=
  match p.parts.dropLast.reverse.findSome? statusOfFolder? with
  | some s => some s
  | none => statusOfFile? p.name

/-- The first `n` elements; for a negative `n` all but the last `-n`. -/
def takeLimit {α : Type} (n : Int) (as : List α) : List α :=
  if n < 0 then as.take (as.length - n.natAbs) else as.take n.natAbs

namespace Files

/-- Whether a place lies below another one. A way that leads on outwards does not lead below. -/
def isBelow (place p : List String) : Bool :=
  place.length < p.length && place.isPrefixOf p && !isAbove (p.take (place.length + 1))

/-- The places of the entries below a place, each without the way to it. -/
def below (fs : Files) (place : List String) : List (List String) :=
  fs.entries.filterMap fun (p, _) => if isBelow place p then some (p.drop place.length) else none

/-- The entries below a place whose name ends in `.cnf`, in the order of their parts. -/
def formulasBelow (fs : Files) (place : List String) : List (List String) :=
  ((fs.below place).filter fun parts => (parts.getLastD "").endsWith ".cnf").mergeSort Path.partsLe

/-- The formulas in a folder. What is no directory has nothing below it; only a name that is too long is an
error. -/
def formulaFiles (fs : Files) (folder : Path) : Except FileError (List (List String)) :=
  if hasZero folder.text then .ok []
  else
    match fs.place folder.text with
    | .error .nameTooLong => .error (.fault .nameTooLong folder.text)
    | .error _ => .ok []
    | .ok place => .ok (if fs.entry? place = some .directory then fs.formulasBelow place else [])

/-- The instance of an entry below a folder. -/
def folderInstance (fs : Files) (folder : Path) (parts : List String) : Instance :=
  let path := folder.append parts
  { name := "/".intercalate parts
    source := "file"
    load := .ofFile (fs.read path.text)
    expected := path.expectedStatus?.map Status.text }

/-- The instances of a folder, with a limit no more than so many. -/
def folderInstances (fs : Files) (folder : String) (limit : Option Int) :
    Except FileError (List Instance) :=
  (fs.formulaFiles (.ofString folder)).map fun all =>
    ((limit.map fun n => takeLimit n all).getD all).map (fs.folderInstance (.ofString folder))

end Files

end SatSearch
