import SatSearch.Path
import SatSearch.Text.Quoted

/-!
# Trees of files

`Files` is the content of a working directory: which paths are files, with their bytes, and which are
directories. Paths are texts; they are followed part by part, and every part on the way has to be a
directory. A place outside the working directory is named by the way that leads out: two points for each
step up, or a slash for the root.
-/

namespace SatSearch

/-- What stands at a path. -/
inductive Entry where
  | file (bytes : List UInt8)
  | directory
deriving DecidableEq

/-- The content of a working directory, as a list of paths in order of creation. -/
structure Files where
  entries : List (List String × Entry)

/-- Why an operation on files fails. -/
inductive FileFault where
  | notFound
  | alreadyThere
  | notADirectory
  | isADirectory
  | nameTooLong
deriving DecidableEq

/-- The number of a fault. -/
def FileFault.number : FileFault → Nat
  | notFound => 2
  | alreadyThere => 17
  | notADirectory => 20
  | isADirectory => 21
  | nameTooLong => 36

/-- The text of a fault. -/
def FileFault.text : FileFault → String
  | notFound => "No such file or directory"
  | alreadyThere => "File exists"
  | notADirectory => "Not a directory"
  | isADirectory => "Is a directory"
  | nameTooLong => "File name too long"

/-- Why a path cannot be used. -/
inductive FileError where
  | fault (fault : FileFault) (path : String)
  /-- The path holds the character zero. -/
  | zeroCharacter
deriving DecidableEq

/-- The word that reports use for a kind of file error. -/
def FileError.kind : FileError → String
  | fault .notFound _ => "FileNotFoundError"
  | fault .alreadyThere _ => "FileExistsError"
  | fault .notADirectory _ => "NotADirectoryError"
  | fault .isADirectory _ => "IsADirectoryError"
  | fault .nameTooLong _ => "OSError"
  | zeroCharacter => "ValueError"

/-- The text that reports a file error. -/
def FileError.message : FileError → String
  | fault f path => s!"[Errno {f.number}] {f.text}: " ++ Text.quoted path
  | zeroCharacter => "embedded null byte"

namespace Files

/-- The root of all directories. -/
def root : List String := ["/"]

/-- Whether a place is the working directory or one that it lies in. -/
def isAbove (place : List String) : Bool :=
  place == root || place.all (· == "..")

/-- What stands at a place. The working directory and those it lies in are always there. -/
def entry? (fs : Files) (place : List String) : Option Entry :=
  if isAbove place then some .directory else fs.entries.lookup place

/-- The place a step up. -/
def stepUp (place : List String) : List String :=
  if place == root then root
  else if place.all (· == "..") then place ++ [".."]
  else place.dropLast

/-- Puts an entry at a place; a new place comes last. -/
def put (fs : Files) (place : List String) (e : Entry) : Files :=
  if (fs.entries.lookup place).isSome then
    ⟨fs.entries.map fun (p, old) => if p = place then (p, e) else (p, old)⟩
  else ⟨fs.entries ++ [(place, e)]⟩

/-- The greatest number of bytes of a part of a path. -/
def nameLimit : Nat := 255

/-- The number of bytes from which on a path is too long. -/
def pathLimit : Nat := 4096

/-- Follows the parts of a path from a place. -/
def follow (fs : Files) (place : List String) : List String → Except FileFault (List String)
  | [] => .ok place
  | part :: rest =>
    match fs.entry? place with
    | none => .error .notFound
    | some (.file _) => .error .notADirectory
    | some .directory =>
      if part = "" ∨ part = "." then fs.follow place rest
      else if part = ".." then fs.follow (stepUp place) rest
      else if part.utf8ByteSize > nameLimit then .error .nameTooLong
      else fs.follow (place ++ [part]) rest

/-- Whether a path is too long. -/
def isTooLong (path : String) : Bool :=
  pathLimit ≤ path.utf8ByteSize

/-- Whether a path holds the character zero. -/
def hasZero (path : String) : Bool :=
  path.toList.contains (Char.ofNat 0)

/-- The place that a path starts from. -/
def startOf (path : String) : List String :=
  if path.startsWith "/" then root else []

/-- The place that a path leads to, whether or not something stands there. -/
def place (fs : Files) (path : String) : Except FileFault (List String) :=
  if path = "" then .error .notFound
  else if isTooLong path then .error .nameTooLong
  else fs.follow (startOf path) (Path.pieces path)

/-- What stands at a path. -/
def find? (fs : Files) (path : String) : Option Entry :=
  match fs.place path with
  | .ok place => fs.entry? place
  | .error _ => none

/-- Whether a path leads to a directory. -/
def isDirectory (fs : Files) (path : String) : Bool :=
  fs.find? path == some .directory

/-- Runs an operation on a path that holds no zero and is not too long, and reports its fault with the
path. -/
def onPath {α : Type} (path : String) (op : Except FileFault α) : Except FileError α :=
  if hasZero path then .error .zeroCharacter
  else if isTooLong path then .error (.fault .nameTooLong path)
  else op.mapError (.fault · path)

/-- The bytes of a file. -/
def read (fs : Files) (path : String) : Except FileError (List UInt8) :=
  onPath path do
    match fs.entry? (← fs.place path) with
    | none => throw .notFound
    | some .directory => throw .isADirectory
    | some (.file bytes) => return bytes

/-- A path without the slashes at its end, unless it is all slashes. -/
def bare (path : String) : String :=
  match path.toList.reverse.dropWhile (· == '/') with
  | [] => path
  | reversed => String.ofList reversed.reverse

/-- The fault of writing a file at a path that asks for a directory: its last part is not looked for. -/
def directoryFault (fs : Files) (path : String) : FileFault :=
  match fs.follow (startOf path) (Path.pieces (bare path)).dropLast with
  | .error e => e
  | .ok place =>
    match fs.entry? place with
    | none => .notFound
    | some (.file _) => .notADirectory
    | some .directory => .isADirectory

/-- Writes a file. A path that ends in a slash asks for a directory. -/
def write (fs : Files) (path : String) (bytes : List UInt8) : Except FileError Files :=
  onPath path do
    if path.endsWith "/" then throw (fs.directoryFault path)
    let place ← fs.place path
    match fs.entry? place with
    | some .directory => throw .isADirectory
    | _ => return fs.put place (.file bytes)

/-- Makes one directory; what stands around it has to be there. -/
def makeDirectory (fs : Files) (path : String) : Except FileError Files :=
  onPath path do
    let place ← fs.place (bare path)
    match fs.entry? place with
    | some _ => throw .alreadyThere
    | none => return fs.put place .directory

/-- The path up to the last slash, without the slashes at its end unless it is all slashes, and what
follows the last slash. -/
def splitLast (path : List Char) : List Char × List Char :=
  let tail := (path.reverse.takeWhile (· != '/')).reverse
  let front := path.take (path.length - tail.length)
  let bare := (front.reverse.dropWhile (· == '/')).reverse
  (if bare = [] then front else bare, tail)

/-- The directory a path lies in and its name, slashes at its end left out of account. -/
def splitName (path : List Char) : List Char × List Char :=
  if (splitLast path).2 = [] then splitLast (splitLast path).1 else splitLast path

theorem length_fst_splitLast_le (path : List Char) :
    (splitLast path).1.length + (splitLast path).2.length ≤ path.length := by
  have h1 : (path.reverse.takeWhile (· != '/')).length ≤ path.length := by
    simpa using (List.takeWhile_sublist (· != '/') (l := path.reverse)).length_le
  have h2 (front : List Char) : (front.reverse.dropWhile (· == '/')).length ≤ front.length := by
    simpa using (List.dropWhile_sublist (· == '/') (l := front.reverse)).length_le
  have h3 := h2 (path.take (path.length - (path.reverse.takeWhile (· != '/')).length))
  simp only [splitLast, List.length_reverse] at *
  split <;> simp only [List.length_take, List.length_reverse] at * <;> omega

theorem length_fst_splitName_lt {path : List Char} (h : (splitName path).2 ≠ []) :
    (splitName path).1.length < path.length := by
  have h1 := length_fst_splitLast_le path
  have h2 := length_fst_splitLast_le (splitLast path).1
  unfold splitName at h ⊢
  by_cases hs : (splitLast path).2 = []
  · rw [if_pos hs] at h ⊢
    have := List.length_pos_iff.2 h
    omega
  · rw [if_neg hs] at h ⊢
    have := List.length_pos_iff.2 h
    omega

/-- Makes a directory, which may be there already. Gives the tree after it, and why it could not be made. -/
def ensureDirectory (fs : Files) (path : String) : Files × Option FileError :=
  match fs.makeDirectory path with
  | .ok fs => (fs, none)
  | .error e => (fs, if fs.isDirectory path then none else some e)

/-- Makes a directory and those it lies in, where they are missing. Of those around it a file in the way is
only noticed below it. Gives the tree after it, and why the last directory could not be made. -/
def ensureDirectories (fs : Files) (path : List Char) : Files × Option FileError :=
  if _h : (splitName path).1 ≠ [] ∧ (splitName path).2 ≠ [] ∧
      (fs.find? (String.ofList (splitName path).1)).isNone then
    match fs.ensureDirectories (splitName path).1 with
    | (fs, none) | (fs, some (.fault .alreadyThere _)) =>
      if (splitName path).2 = ['.'] then (fs, none) else fs.ensureDirectory (String.ofList path)
    | (fs, some e) => (fs, some e)
  else fs.ensureDirectory (String.ofList path)
termination_by path.length
decreasing_by exact length_fst_splitName_lt _h.2.1

/-- The tree with a directory and those it lies in. -/
def makeDirectories (fs : Files) (path : List Char) : Except FileError Files :=
  match fs.ensureDirectories path with
  | (fs, none) => .ok fs
  | (_, some e) => .error e

end Files

end SatSearch
