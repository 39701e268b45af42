import SatSearch.Value

/-!
# Charts

A chart is described by the steps that draw it, from the figure it starts with to the file it is saved in
(`Drawing`).
-/

namespace SatSearch

/-- One step of drawing a chart. -/
inductive Drawing where
  | figure (width height : Value)
  | boxes (series : List (List Value)) (outliers : Bool)
  /-- The places on the horizontal axis and what is written there. -/
  | ticks (places : List Value) (labels : List String)
  | bars (places : List Float) (heights : List Nat) (width : Float) (label : String)
  /-- Points with a number each that chooses the colour from a scale. -/
  | points (across : List Int) (up : List Float) (colours : List Int) (scale : String) (opacity : Float)
  | title (text : String)
  | acrossLabel (text : String)
  | upLabel (text : String)
  | legend
  /-- The scale that the colours of the points are chosen from. -/
  | colourScale (label : String)
  | fit
  | save (file : String)
  | close

/-- The steps that finish a chart and save it. -/
def Drawing.finish (file : String) : List Drawing :=
  [fit, save file, close]

/-- The ticks of a row of boxes, numbered from one. -/
def Drawing.boxTicks (labels : List String) : Drawing :=
  ticks ((List.range labels.length).map fun (i : Nat) => .whole ((i : Int) + 1)) labels

end SatSearch
