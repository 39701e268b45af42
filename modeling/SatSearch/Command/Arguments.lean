import SatSearch.Compare.Runs
import SatSearch.Options.Parse

/-!
# The arguments of the commands

There are three commands: one solves a file, one measures the search on many instances, and one compares the
times of several runs. Each has a grammar and a record of its arguments, with defaults for those not given.
-/

namespace SatSearch

open Options

/-- The option that chooses the level of the log. -/
def logLevelOption : Spec := .long "--log-level" (.one .text)

/-! ### Solving a file -/

/-- The option that asks for the counters of the search. -/
def statsOption : Spec := .long "--stats" .none

/-- The arguments of the command that solves a file. -/
structure SolveArguments where
  file : String
  stats : Bool
  logLevel : Option String

namespace SolveArguments

/-- The grammar of the command. -/
def grammar : Grammar :=
  { command := "dpll"
    options := [.askHelp, statsOption, logLevelOption]
    operands := .one "file" }

/-- Reads the arguments of the command. -/
def parse (arguments : List String) : Except Stop SolveArguments :=
  (Options.parse grammar arguments).map fun p =>
    { file := p.operands.headD ""
      stats := p.has statsOption
      logLevel := p.text? logLevelOption }

end SolveArguments

/-! ### Measuring the search -/

/-- The options of the command that measures the search. -/
inductive EvaluateOption where
  | folder
  | limit
  | random
  | variableCount
  | ratio
  | labelLimit
  | pigeonhole
  | seed
  | timeout
  | directory
  | noPlots
deriving DecidableEq

namespace EvaluateOption

/-- All options in the order in which messages list them. -/
def all : List EvaluateOption :=
  [folder, limit, random, variableCount, ratio, labelLimit, pigeonhole, seed, timeout, directory,
    noPlots]

/-- The spelling and the values of an option. -/
def spec : EvaluateOption → Spec
  | folder => .long "--folder" (.one .text)
  | limit => .long "--limit" (.one .whole)
  | random => .long "--random" (.one .whole)
  | variableCount => .long "--num-vars" (.one .whole)
  | ratio => .long "--ratio" (.one .real)
  | labelLimit => .long "--label-limit" (.one .whole)
  | pigeonhole => .long "--pigeonhole" (.several .whole)
  | seed => .long "--seed" (.one .whole)
  | timeout => .long "--timeout" (.one .real)
  | directory => .long "--outdir" (.one .text)
  | noPlots => .long "--no-plots" .none

end EvaluateOption

/-- The arguments of the command that measures the search. -/
structure EvaluateArguments where
  folder : Option String
  /-- The greatest number of formulas from the folder. -/
  limit : Option Int
  random : Int
  «variables» : Int
  ratio : Float
  /-- The greatest number of variables up to which random formulas are labelled. -/
  labelLimit : Int
  /-- The numbers of holes of pigeonhole formulas. -/
  pigeonhole : List Int
  seed : Option Int
  /-- The seconds that one search may take. -/
  timeout : Float
  directory : String
  noPlots : Bool
  logLevel : Option String

namespace EvaluateArguments

/-- The grammar of the command. -/
def grammar : Grammar :=
  { command := "dpll-evaluate"
    options := .askHelp :: EvaluateOption.all.map EvaluateOption.spec ++ [logLevelOption]
    operands := .none }

/-- The arguments that a command line gives. -/
def ofParsed (p : Parsed) : EvaluateArguments :=
  let text (o : EvaluateOption) := p.text? o.spec
  let whole (o : EvaluateOption) := p.whole? o.spec
  let real (o : EvaluateOption) := p.real? o.spec
  { folder := text .folder
    limit := whole .limit
    random := (whole .random).getD 0
    «variables» := (whole .variableCount).getD 20
    ratio := (real .ratio).getD 4.26
    labelLimit := (whole .labelLimit).getD 14
    pigeonhole := (p.wholes? EvaluateOption.pigeonhole.spec).getD []
    seed := whole .seed
    timeout := (real .timeout).getD 5.0
    directory := (text .directory).getD "outputs"
    noPlots := p.has EvaluateOption.noPlots.spec
    logLevel := p.text? logLevelOption }

/-- Reads the arguments of the command. Random formulas need three variables, even if none is made. -/
def parse (arguments : List String) : Except Stop EvaluateArguments := do
  let a := ofParsed (← Options.parse grammar arguments)
  if a.random ≠ 0 ∧ a.variables < 3 then throw (.usage (.tooFewVariables a.variables))
  return a

end EvaluateArguments

/-! ### Comparing runs -/

/-- The option that chooses the file of the chart. -/
def outOption : Spec := .long "--out" (.one .text)

/-- The option that asks for one box for each expected status. -/
def byStatusOption : Spec := .long "--by-status" .none

/-- The option that leaves out rows without an answer. -/
def solvedOnlyOption : Spec := .long "--solved-only" .none

/-- The arguments of the command that compares runs. -/
structure CompareArguments where
  runs : List String
  out : Option String
  options : RunOptions

namespace CompareArguments

/-- The grammar of the command. -/
def grammar : Grammar :=
  { command := "dpll-plot"
    options := [.askHelp, outOption, byStatusOption, solvedOnlyOption]
    operands := .several "runs" }

/-- Reads the arguments of the command. -/
def parse (arguments : List String) : Except Stop CompareArguments :=
  (Options.parse grammar arguments).map fun p =>
    { runs := p.operands
      out := p.text? outOption
      options := { byStatus := p.has byStatusOption, solvedOnly := p.has solvedOnlyOption } }

/-- The file of the chart. -/
def file (a : CompareArguments) : Path :=
  Path.ofString (a.out.getD "plots/runs.png")

end CompareArguments

end SatSearch
