/-!
# Answers

`Status` is the answer to "can this formula be satisfied?".
-/

namespace SatSearch

/-- Whether a formula has a satisfying valuation. -/
inductive Status where
  | sat
  | unsat
deriving DecidableEq

/-- The word that reports use for an answer. -/
def Status.text : Status → String
  | sat => "SAT"
  | unsat => "UNSAT"

end SatSearch
