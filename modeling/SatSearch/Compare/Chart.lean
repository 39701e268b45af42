import SatSearch.Chart
import SatSearch.Compare.Runs

/-!
# The chart of several runs

The chart has a box for each series, in the order of their labels.
-/

namespace SatSearch

/-- The width of the chart: it grows with the number of boxes from a least width on. -/
def comparisonWidth (boxes : Nat) : Float :=
  let wanted := 1.6 * boxes.toFloat
  if 6.4 < wanted then wanted else 6.4

namespace Series

/-- The series in the order of their labels. -/
def sorted (s : Series) : Series :=
  s.mergeSort fun a b => a.1 ≤ b.1

/-- The chart of series and its file. -/
def chart (s : Series) (file : Path) : List Drawing :=
  [.figure (.real (comparisonWidth s.length)) (.real 4.8),
   .boxes (s.sorted.map (·.2)) true,
   .boxTicks (s.sorted.map (·.1)),
   .upLabel "Seconds"] ++ Drawing.finish file.text

/-- Draws series into a file and makes the directories it lies in. Without series nothing is done. -/
def draw (s : Series) (fs : Files) (file : Path) : Except FileError (Files × List Drawing) :=
  if s.isEmpty then .ok (fs, [])
  else (fs.makeDirectories file.parent.text.toList).map fun fs => (fs, s.chart file)

end Series

end SatSearch
