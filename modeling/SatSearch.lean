import SatSearch.Bench.Charts
import SatSearch.Bench.Folder
import SatSearch.Bench.Generated
import SatSearch.Bench.Measure
import SatSearch.Bench.Table
import SatSearch.Command.Compare
import SatSearch.Command.Evaluate
import SatSearch.Command.Live
import SatSearch.Command.Solve
import SatSearch.Compare.Chart
import SatSearch.Decimal.Fixed
import SatSearch.Decimal.Reader
import SatSearch.Decimal.Shortest
import SatSearch.Dimacs.Parser
import SatSearch.Dimacs.Printer
import SatSearch.Enumeration
import SatSearch.Files
import SatSearch.Generate.Pigeonhole
import SatSearch.Generate.RandomCnf
import SatSearch.LogThreshold
import SatSearch.Main
import SatSearch.Options.Parse
import SatSearch.Proofs.Bounds
import SatSearch.Proofs.Branching
import SatSearch.Proofs.ClosedForm
import SatSearch.Proofs.Columns
import SatSearch.Proofs.Comments
import SatSearch.Proofs.ComparedRuns
import SatSearch.Proofs.Decimals
import SatSearch.Proofs.Enumeration
import SatSearch.Proofs.Folders
import SatSearch.Proofs.Labels
import SatSearch.Proofs.Layout
import SatSearch.Proofs.Live
import SatSearch.Proofs.Passes
import SatSearch.Proofs.Paths
import SatSearch.Proofs.Pigeonhole
import SatSearch.Proofs.Refusal
import SatSearch.Proofs.Renaming
import SatSearch.Proofs.RoundTrip
import SatSearch.Proofs.Samples
import SatSearch.Proofs.Saturation
import SatSearch.Proofs.SavedRun
import SatSearch.Proofs.SolveCommand
import SatSearch.Proofs.Tables
import SatSearch.Proofs.Tallies
import SatSearch.Proofs.TimeLimit
import SatSearch.Proofs.Trees
import SatSearch.Proofs.Utf8
import SatSearch.Random.Twister
import SatSearch.Solve
import SatSearch.Text.UpperCase
