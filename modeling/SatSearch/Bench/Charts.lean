import SatSearch.Bench.Summary
import SatSearch.Chart
import SatSearch.Path

/-!
# Charts of results

Three charts show the times by answer, the outcomes by source, and the times over the decisions. A chart
without anything to show is left out.
-/

namespace SatSearch

/-- A chart and the file it is saved in. -/
structure SavedChart where
  file : String
  drawings : List Drawing

/-- The answers that occur, in alphabetical order, with their times. -/
def timesByAnswer (rows : List Row) : List (Status × List Float) :=
  ([Status.sat, Status.unsat].map fun s => (s, timesOf rows s)).filter (!·.2.isEmpty)

/-- The texts of a list in ascending order, each once. -/
def sortedTexts (texts : List String) : List String :=
  (texts.mergeSort (· ≤ ·)).eraseReps

/-- The sources that occur, in ascending order. -/
def sources (rows : List Row) : List String :=
  sortedTexts (rows.map (·.source))

/-- The number of rows from a source with an outcome. -/
def outcomeCount (rows : List Row) (source : String) (o : Outcome) : Nat :=
  rows.countP fun r => r.source == source && r.hasOutcome o

/-- The width of a bar. -/
def barWidth : Float := 0.2

/-- The places of the bars that stand `offset` bar widths right of each group. -/
def barPlaces (groups : Nat) (offset : Float) : List Float :=
  (List.range groups).map fun g => g.toFloat + offset * barWidth

/-- The chart of times by answer. -/
def timeChart (rows : List Row) (directory : String) : List SavedChart :=
  match timesByAnswer rows with
  | [] => []
  | groups =>
    let file := joinPath directory "time_by_status.png"
    [{ file
       drawings :=
         [.figure (.whole 6) (.whole 4),
          .boxes (groups.map fun g => g.2.map .real) false,
          .boxTicks (groups.map (·.1.text)),
          .title "Solve time by result (successful runs)",
          .upLabel "Seconds"] ++ Drawing.finish file }]

/-- The bars of one outcome, a bar for each source. -/
def outcomeBars (rows : List Row) (number : Nat) (o : Outcome) : Drawing :=
  let names := sources rows
  .bars (barPlaces names.length number.toFloat) (names.map fun s => outcomeCount rows s o) barWidth o.text

/-- The chart of outcomes by source. -/
def outcomeChart (rows : List Row) (directory : String) : List SavedChart :=
  match sources rows with
  | [] => []
  | names =>
    let file := joinPath directory "status_counts.png"
    [{ file
       drawings :=
         .figure (.whole 7) (.whole 4) ::
           Outcome.all.zipIdx.map (fun (o, i) => outcomeBars rows i o) ++
           [.ticks ((barPlaces names.length 1.5).map .real) names,
            .acrossLabel "Source",
            .upLabel "Count",
            .title "Status counts by source",
            .legend] ++ Drawing.finish file }]

/-- The chart of times over decisions. -/
def decisionChart (rows : List Row) (directory : String) : List SavedChart :=
  match rows.filter Row.isSolved with
  | [] => []
  | solved =>
    let file := joinPath directory "time_vs_decisions.png"
    [{ file
       drawings :=
         [.figure (.whole 6) (.whole 4),
          .points (solved.map (·.decisions)) (solved.map (·.wallTime)) (solved.map (·.variableCount))
            "viridis" 0.7,
          .acrossLabel "Branching decisions",
          .upLabel "Seconds",
          .title "Time vs decisions",
          .colourScale "Variables"] ++ Drawing.finish file }]

/-- The charts of results, in the order in which they are drawn. -/
def resultCharts (rows : List Row) (directory : String) : List SavedChart :=
  timeChart rows directory ++ outcomeChart rows directory ++ decisionChart rows directory

end SatSearch
