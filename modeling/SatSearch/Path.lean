/-!
# Paths

A path is an optional root and its parts. Reading a path drops empty parts and parts that are a single
point; two points stay. Paths are ordered part by part.
-/

namespace SatSearch

/-- A path in normal form. -/
structure Path where
  /-- Empty for a relative path, else one slash or exactly two. -/
  root : String
  parts : List String
deriving DecidableEq

namespace Path

/-- The pieces of a text between slashes. -/
def pieces (s : String) : List String :=
  (s.toList.splitOn '/').map String.ofList

/-- Reads a path. Two slashes at the front are a root of their own; three are one. -/
def ofString (s : String) : Path :=
  let slashes := (s.toList.takeWhile (· == '/')).length
  { root := if slashes = 0 then "" else if slashes = 2 then "//" else "/"
    parts := (pieces s).filter fun p => p != "" && p != "." }

/-- The text of a path; the empty relative path is a point. -/
def text (p : Path) : String :=
  if p.root = "" ∧ p.parts = [] then "." else p.root ++ "/".intercalate p.parts

/-- The last part, empty if there is none. -/
def name (p : Path) : String :=
  p.parts.getLastD ""

/-- The path without its last part. -/
def parent (p : Path) : Path :=
  { p with parts := p.parts.dropLast }

/-- The path with further parts. -/
def append (p : Path) (parts : List String) : Path :=
  { p with parts := p.parts ++ parts }

/-- The last point of the last part and what follows it, if something stands on both sides. -/
def suffix (p : Path) : String :=
  let reversed := p.name.toList.reverse
  let tail := reversed.takeWhile (· != '.')
  let front := reversed.drop (tail.length + 1)
  if tail.length < reversed.length && !tail.isEmpty && !front.isEmpty then
    String.ofList ('.' :: tail.reverse)
  else ""

/-- Whether the parts of one path come before those of another, as lists of texts. -/
def partsLe : List String → List String → Bool
  | [], _ => true
  | _ :: _, [] => false
  | a :: as, b :: bs => if a = b then partsLe as bs else a < b

end Path

/-- Joins a name to a directory given as text. A slash at the end of the directory is kept as it is. -/
def joinPath (directory name : String) : String :=
  if directory.isEmpty || directory.endsWith '/' then directory ++ name
  else directory ++ "/" ++ name

end SatSearch
