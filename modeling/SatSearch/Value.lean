import SatSearch.Decimal.Shortest

/-!
# Values in tables and charts

A `Value` stands in a field of a table or is drawn in a chart: a whole number, a number with a fraction, a
truth value or a word.
-/

namespace SatSearch

/-- A field of a table, or a coordinate of a chart. -/
inductive Value where
  | whole (n : Int)
  | real (x : Float)
  | truth (b : Bool)
  | word (s : String)

/-- The text of a value in a table. -/
def Value.text : Value → String
  | whole n => toString n
  | real x => Decimal.text x
  | truth b => if b then "True" else "False"
  | word s => s

end SatSearch
