import SatSearch.Chart.Listing
import SatSearch.Command.Compare
import SatSearch.Command.Live

/-!
# The program

The first argument names the command and the others are its arguments. What the command needs from the disk
is read into a tree of files, and what it changes there is written back afterwards. The commands that search ask
the machine for the time (`machine`).
-/

namespace SatSearch

/-! ### Time -/

/-- The seconds that a clock shows. -/
def secondsNow : IO Float := do
  return (← IO.monoNanosNow).toFloat / 1e9

/-- The clock of the machine, and an alarm that is kept as a deadline. -/
def machine : IO (Outside IO) := do
  let deadline : IO.Ref (Option Float) ← IO.mkRef none
  return { readClock := secondsNow
           setAlarm := fun seconds => do
             deadline.set (some ((← secondsNow) + Float.ofInt seconds))
             return none
           takeBackAlarm := deadline.set none
           isRinging := fun _ => do
             match ← deadline.get with
             | none => return false
             | some d => return d ≤ (← secondsNow)
           alarms := return [] }

/-! ### The disk -/

/-- Adds what stands at a path. Only the content of files that match is read. -/
def addEntry (isWanted : String → Bool) (fs : Files) (path : String) : IO Files := do
  let onDisk := (← IO.currentDir) / path
  match fs.place path with
  | .error _ => return fs
  | .ok place =>
    if (fs.entry? place).isSome then return fs
    else if ← onDisk.isDir then return fs.put place .directory
    else if ← onDisk.pathExists then
      let bytes ← if isWanted path then IO.FS.readBinFile onDisk else pure ByteArray.empty
      return fs.put place (.file bytes.toList)
    else return fs

/-- A path and the paths it leads through. -/
def pathsTo (path : String) : List String :=
  let pieces := Path.pieces path
  (List.range pieces.length).map fun n => "/".intercalate (pieces.take (n + 1))

/-- Adds what stands at a path and on the way to it. -/
def addPath (fs : Files) (path : String) : IO Files :=
  (pathsTo path).foldlM (addEntry fun p => p == path) fs

/-- Adds all that lies below a directory. -/
partial def addTree (fs : Files) (path : String) : IO Files := do
  let onDisk := (← IO.currentDir) / path
  if ← onDisk.isDir then
    let mut fs := fs
    for entry in ← onDisk.readDir do
      let inner := joinPath path entry.fileName
      fs ← addEntry (·.endsWith ".cnf") fs inner
      fs ← addTree fs inner
    return fs
  else return fs

/-- The path of a place. -/
def pathOfPlace : List String → String
  | "/" :: rest => "/" ++ "/".intercalate rest
  | place => "/".intercalate place

/-- Writes what a command changed. -/
def writeBack (before after : Files) : IO Unit := do
  for (place, e) in after.entries do
    if before.entry? place != some e then
      match e with
      | .directory => IO.FS.createDirAll (pathOfPlace place)
      | .file bytes => IO.FS.writeBinFile (pathOfPlace place) (ByteArray.mk bytes.toArray)

/-! ### Commands -/

/-- Prints what a command leaves and gives its exit number. -/
def showResult (before : Files) : Except Aborted CommandResult → IO UInt32
  | .error e => do
    IO.print e.stdout
    IO.eprintln e.error.message
    return 1
  | .ok r => do
    writeBack before r.files
    for (file, listing) in savedListings [] r.drawings do
      IO.FS.writeFile file listing
    IO.eprint r.stderr
    IO.print r.stdout
    return r.exit.toUInt32

/-- Runs a command whose arguments fit. -/
def withArguments {α : Type} (g : Options.Grammar) (run : α → IO UInt32) :
    Except Options.Stop α → IO UInt32
  | .ok a => run a
  | .error .help => do
    IO.println g.summary
    return 0
  | .error (.usage e) => do
    IO.eprintln g.summary
    IO.eprintln (g.usageLine e)
    return 2

/-- Solves a file. Nothing on the disk is changed. -/
def solveNow (a : SolveArguments) : IO UInt32 := do
  let result ← solveFileIn (← machine) (addPath ⟨[]⟩ a.file) (← IO.getEnv "LOGLEVEL") a
  showResult ((result.map (·.files)).toOption.getD ⟨[]⟩) result

/-- Measures the search. Without a seed the clock chooses the random formulas. -/
def evaluateNow (a : EvaluateArguments) : IO UInt32 := do
  let clockSeed ← IO.monoNanosNow
  let a := { a with seed := some (a.seed.getD clockSeed) }
  let folder := a.folder.getD ""
  let fs ← addTree (← addPath ⟨[]⟩ folder) folder
  let fs ← addPath fs (joinPath a.directory "metrics.csv")
  showResult fs (← evaluateIn (← machine) fs (← IO.getEnv "LOGLEVEL") a)

/-- Compares runs. -/
def compareNow (a : CompareArguments) : IO UInt32 := do
  let fs ← a.runs.foldlM (fun fs run => addPath fs (runFile run).text) ⟨[]⟩
  let fs ← addPath fs a.file.text
  let w : World :=
    { files := fs
      surroundings := { clock := ⟨[]⟩, rings := [], alarms := [] }
      levelVariable := none }
  showResult fs (compareRuns w a)

end SatSearch

open SatSearch in
def main (arguments : List String) : IO UInt32 :=
  match arguments with
  | "dpll" :: rest => withArguments SolveArguments.grammar solveNow (SolveArguments.parse rest)
  | "dpll-evaluate" :: rest =>
    withArguments EvaluateArguments.grammar evaluateNow (EvaluateArguments.parse rest)
  | "dpll-plot" :: rest => withArguments CompareArguments.grammar compareNow (CompareArguments.parse rest)
  | _ => do
    IO.eprintln "usage: dpll | dpll-evaluate | dpll-plot, with arguments"
    return 2
