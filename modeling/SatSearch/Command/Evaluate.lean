import SatSearch.Bench.Charts
import SatSearch.Bench.Folder
import SatSearch.Bench.Generated
import SatSearch.Bench.Table
import SatSearch.Command.Arguments
import SatSearch.Command.Result
import SatSearch.Random.Twister

/-!
# Measuring the search on many instances

`evaluate` collects instances, measures the search on each of them, and leaves a table, charts and a summary.
-/

namespace SatSearch

/-- The seed of random formulas for which none was chosen. -/
def defaultSeed : Int := 0

/-- The random instances that the arguments ask for. -/
def chosenRandom (a : EvaluateArguments) : Except GenerationError (List Instance) :=
  if a.random = 0 then .ok []
  else
    ((randomInstances Twister.draws a.random a.variables a.ratio a.labelLimit).run
      (.ofSeed (a.seed.getD defaultSeed))).map (·.1)

/-- The instances of the folder that the arguments name. -/
def chosenFolder (fs : Files) (a : EvaluateArguments) : Except FileError (List Instance) :=
  match a.folder.filter (· ≠ "") with
  | none => .ok []
  | some folder => fs.folderInstances folder a.limit

/-- All instances that the arguments ask for, in the order in which they are measured. -/
def chosenInstances (fs : Files) (a : EvaluateArguments) : Except Aborted (List Instance) := do
  let found ← orAbort [] .file (chosenFolder fs a)
  let random ← orAbort [] .generation (chosenRandom a)
  let pigeons ← orAbort [] .generation (pigeonholeInstances a.pigeonhole)
  return found ++ random ++ pigeons

/-- The line printed if there is no instance. -/
def nothingChosen : String :=
  "No instances selected; use --folder, --random or --pigeonhole."

/-- The line printed for the `number`-th of `count` instances. -/
def progressLine (count number : Nat) (r : Row) : String :=
  s!"[{number}/{count}] {r.name} -> {r.status} in " ++ threePlaces r.wallTime ++
    s!"s, clauses={r.clauseCount}"

/-- The lines printed for all instances. -/
def progressLines (rows : List Row) : List String :=
  rows.zipIdx.map fun (r, i) => progressLine rows.length (i + 1) r

/-- Makes the directory for charts, and the charts. -/
def drawResults (fs : Files) (rows : List Row) (directory : String) :
    Except FileError (Files × List SavedChart) :=
  (fs.makeDirectories directory.toList).map fun fs => (fs, resultCharts rows directory)

/-- Saves what was measured and sums it up. -/
def finishEvaluation (fs : Files) (a : EvaluateArguments) (threshold : Nat) (reports : List Report)
    (alarms : List Int) : Except Aborted CommandResult := do
  let rows := reports.map (·.row)
  let printed := progressLines rows
  let table := joinPath a.directory "metrics.csv"
  let fs ← orAbort printed .file (fs.saveResults rows table)
  let printed := printed ++ ["Saved metrics CSV -> " ++ table]
  let (fs, charts) ←
    if a.noPlots then pure (fs, []) else orAbort printed .file (drawResults fs rows a.directory)
  let printed := printed ++ charts.map ("Saved plot -> " ++ ·.file) ++ summary rows
  return { exit := 0
           stdout := unlines printed
           stderr := showLog threshold (reports.flatMap Report.log)
           files := fs
           alarms := alarms
           drawings := charts.flatMap (·.drawings) }

/-- Measures the search on all chosen instances. -/
def evaluate (w : World) (a : EvaluateArguments) : Except Aborted CommandResult := do
  let threshold ← orAbort [] .level (chooseThreshold a.logLevel w.levelVariable)
  let instances ← chosenInstances w.files a
  if instances.isEmpty then
    return { exit := 0, stdout := unlines [nothingChosen], stderr := "", files := w.files
             alarms := [], drawings := [] }
  else
    let (reports, s) := measureAll (some a.timeout) instances w.surroundings
    finishEvaluation w.files a threshold reports s.alarms

end SatSearch
