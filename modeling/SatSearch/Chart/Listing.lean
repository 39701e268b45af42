import SatSearch.Chart

/-!
# Charts as text

A chart is listed with a line for each step that draws it.
-/

namespace SatSearch

/-- Values with blanks between them. -/
def valueList (vs : List Value) : String :=
  " ".intercalate (vs.map Value.text)

/-- The line for a step. -/
def Drawing.text : Drawing → String
  | figure w h => "figure " ++ valueList [w, h]
  | boxes series outliers =>
    "boxes " ++ (if outliers then "" else "without outliers ") ++
      "; ".intercalate (series.map valueList)
  | ticks places labels => "ticks " ++ valueList places ++ " labelled " ++ ", ".intercalate labels
  | bars places heights width label =>
    "bars at " ++ valueList (places.map .real) ++ " of height " ++
      valueList (heights.map fun (n : Nat) => .whole n) ++ " and width " ++ Decimal.text width ++
      " labelled " ++ label
  | points across up colours scale opacity =>
    "points at " ++ valueList (across.map .whole) ++ " and " ++ valueList (up.map .real) ++
      " coloured " ++ valueList (colours.map .whole) ++ " on the scale " ++ scale ++ " with opacity " ++
      Decimal.text opacity
  | title text => "title " ++ text
  | acrossLabel text => "horizontal axis " ++ text
  | upLabel text => "vertical axis " ++ text
  | legend => "legend"
  | colourScale label => "colour scale " ++ label
  | fit => "fit"
  | save file => "save " ++ file
  | close => "close"

/-- The charts that steps draw: the file each is saved in, and the steps up to there. -/
def savedListings (done : List String) : List Drawing → List (String × String)
  | [] => []
  | d :: rest =>
    match d with
    | .save file => (file, String.join ((d.text :: done).reverse.map (· ++ "\n"))) :: savedListings [] rest
    | .close => savedListings done rest
    | _ => savedListings (d.text :: done) rest

end SatSearch
