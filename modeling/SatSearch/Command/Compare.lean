import SatSearch.Command.Arguments
import SatSearch.Command.Result
import SatSearch.Compare.Chart

/-!
# Comparing runs

`compareRuns` draws the times of several runs into one chart.
-/

namespace SatSearch

/-- The times of all runs. -/
def collectRuns (fs : Files) (a : CompareArguments) : Except RunError Series :=
  a.runs.foldlM (Series.addRun fs a.options) []

/-- Draws the times of runs. -/
def compareRuns (w : World) (a : CompareArguments) : Except Aborted CommandResult := do
  let series ← orAbort [] .run (collectRuns w.files a)
  let (fs, drawings) ← orAbort [] .file (series.draw w.files a.file)
  return { exit := 0
           stdout :=
             unlines [if series.isEmpty then "Nothing to plot." else "Saved plot -> " ++ a.file.text]
           stderr := ""
           files := fs
           alarms := []
           drawings := drawings }

end SatSearch
