/-!
# Blanks, words and lines

The white-space characters, and the ways text is cut along them: `words` are the pieces between blanks,
`strip` drops the blanks at both ends, `lines` cuts at line feeds.
-/

namespace SatSearch.Text

/-- The closed ranges of blank characters, in ascending order. -/
def blankRanges : List (Nat × Nat) :=
  [(0x09, 0x0D), (0x1C, 0x20), (0x85, 0x85), (0xA0, 0xA0), (0x1680, 0x1680), (0x2000, 0x200A),
   (0x2028, 0x2029), (0x202F, 0x202F), (0x205F, 0x205F), (0x3000, 0x3000)]

/-- Whether the character is a blank. -/
def isBlank (c : Char) : Bool :=
  blankRanges.any fun r => r.1 ≤ c.toNat && c.toNat ≤ r.2

/-- Drops the characters that satisfy `p` from both ends. -/
def trimBy (p : Char → Bool) (s : List Char) : List Char :=
  ((s.dropWhile p).reverse.dropWhile p).reverse

/-- Drops the blanks at both ends. -/
def strip (s : List Char) : List Char :=
  trimBy isBlank s

/-- The longest pieces that hold no blank. -/
def words (s : List Char) : List (List Char) :=
  match _h : s.dropWhile isBlank with
  | [] => []
  | c :: rest =>
    (c :: rest.takeWhile (!isBlank ·)) :: words (rest.dropWhile (!isBlank ·))
termination_by s.length
decreasing_by
  have h1 := (List.dropWhile_sublist (!isBlank ·) (l := rest)).length_le
  have h2 := (List.dropWhile_sublist isBlank (l := s)).length_le
  simp_all
  omega

/-- The pieces between line feeds; there is one more than line feeds. -/
def lines : List Char → List (List Char)
  | [] => [[]]
  | c :: rest =>
    if c = '\n' then [] :: lines rest
    else
      match lines rest with
      | [] => [[c]]
      | line :: more => (c :: line) :: more

end SatSearch.Text
