import SatSearch.Dimacs.Formula
import SatSearch.Text.Integer

/-!
# Writing DIMACS

`render` writes a formula with comments in front. The header declares the number of variables that occur.
A formula has no text if one of its integers has too many digits (`render?`).
-/

namespace SatSearch.Dimacs

/-- The line of a clause: its literals and the zero that ends it. -/
def clauseLine (c : List Literal) : String :=
  " ".intercalate ((c ++ [0]).map toString)

/-- The header of a formula. -/
def headerLine (f : Cnf) : String :=
  s!"p cnf {f.variables.length} {f.length}"

/-- The text of a formula with comments. -/
def render (f : Cnf) (comments : List String) : String :=
  "\n".intercalate (comments.map ("c " ++ ·) ++ headerLine f :: f.map clauseLine) ++ "\n"

/-- The text of a formula with comments, unless an integer in it has too many digits to be written. -/
def render? (f : Cnf) (comments : List String) : Option String :=
  if ((f.variables.length : Int) :: (f.length : Int) :: f.flatten).any Text.hasLongText then none
  else some (render f comments)

/-- The bytes of a file with a formula and comments. -/
def renderFile (f : Cnf) (comments : List String) : List UInt8 :=
  Text.encode (render f comments).toList

end SatSearch.Dimacs
