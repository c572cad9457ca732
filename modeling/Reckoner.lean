import Reckoner.Calculation
import Reckoner.CommandLine.Arguments
import Reckoner.CommandLine.Host
import Reckoner.CommandLine.Input
import Reckoner.CommandLine.Machine
import Reckoner.CommandLine.Plan
import Reckoner.CommandLine.Run
import Reckoner.CommandLine.Usage
import Reckoner.Diagnostic
import Reckoner.Expr
import Reckoner.Expr.Arena
import Reckoner.Expr.Eval
import Reckoner.Expr.Parser
import Reckoner.Expr.Tree
import Reckoner.Fault
import Reckoner.Files
import Reckoner.Files.Path
import Reckoner.Function
import Reckoner.Function.Direct
import Reckoner.Log.Data
import Reckoner.Log.Journal
import Reckoner.Log.Level
import Reckoner.Log.Loggers
import Reckoner.Log.Record
import Reckoner.Main
import Reckoner.Number.Decimal
import Reckoner.Number.FloatOps
import Reckoner.Number.Reading
import Reckoner.Number.Shortest
import Reckoner.Proofs.Allocation
import Reckoner.Proofs.Blame
import Reckoner.Proofs.Comparison
import Reckoner.Proofs.Data.Doubles
import Reckoner.Proofs.Data.Figures
import Reckoner.Proofs.Data.Lines
import Reckoner.Proofs.Data.Magnitudes
import Reckoner.Proofs.Data.Numbers
import Reckoner.Proofs.Data.Texts
import Reckoner.Proofs.Evaluation.Exact
import Reckoner.Proofs.Evaluation.Frames
import Reckoner.Proofs.Evaluation.Kinds
import Reckoner.Proofs.Evaluation.Meaning
import Reckoner.Proofs.Evaluation.Powers
import Reckoner.Proofs.Evaluation.Recursion
import Reckoner.Proofs.Grammar
import Reckoner.Proofs.Lexicon
import Reckoner.Proofs.Nesting
import Reckoner.Proofs.Parsing.Acceptance
import Reckoner.Proofs.Parsing.Causes
import Reckoner.Proofs.Parsing.Chains
import Reckoner.Proofs.Parsing.Changes
import Reckoner.Proofs.Parsing.Completeness
import Reckoner.Proofs.Parsing.Crossing
import Reckoner.Proofs.Parsing.Cursor
import Reckoner.Proofs.Parsing.Ends
import Reckoner.Proofs.Parsing.FirstEnd
import Reckoner.Proofs.Parsing.FirstFault
import Reckoner.Proofs.Parsing.Frames
import Reckoner.Proofs.Parsing.Limits
import Reckoner.Proofs.Parsing.Mirrors
import Reckoner.Proofs.Parsing.Moves
import Reckoner.Proofs.Parsing.Nodes
import Reckoner.Proofs.Parsing.Parts
import Reckoner.Proofs.Parsing.Paths
import Reckoner.Proofs.Parsing.Reruns
import Reckoner.Proofs.Parsing.Room
import Reckoner.Proofs.Parsing.Sequence
import Reckoner.Proofs.Parsing.Sessions
import Reckoner.Proofs.Parsing.Simulations
import Reckoner.Proofs.Parsing.Soundness
import Reckoner.Proofs.Parsing.Steps
import Reckoner.Proofs.Parsing.Viability
import Reckoner.Proofs.Parsing.Walk
import Reckoner.Proofs.Parsing.Writing
import Reckoner.Proofs.Relocation
import Reckoner.Proofs.Rendering.Carets
import Reckoner.Proofs.Rendering.Drawing
import Reckoner.Proofs.Rendering.Forms
import Reckoner.Proofs.Rendering.Listings
import Reckoner.Proofs.Rendering.Outlines
import Reckoner.Proofs.Rendering.Rows
import Reckoner.Proofs.Rendering.Wordings
import Reckoner.Proofs.Results
import Reckoner.Proofs.Running.Contents
import Reckoner.Proofs.Running.Course
import Reckoner.Proofs.Running.Endings
import Reckoner.Proofs.Running.History
import Reckoner.Proofs.Running.Inputs
import Reckoner.Proofs.Running.Logs
import Reckoner.Proofs.Running.Repeated
import Reckoner.Proofs.Running.Streams
import Reckoner.Proofs.Scanning.Fronts
import Reckoner.Proofs.Scanning.Insertion
import Reckoner.Proofs.Scanning.Joining
import Reckoner.Proofs.Scanning.Leading
import Reckoner.Proofs.Scanning.Munch
import Reckoner.Proofs.Scanning.Numerals
import Reckoner.Proofs.Scanning.Readings
import Reckoner.Proofs.Scanning.Tokenization
import Reckoner.Proofs.Spacing
import Reckoner.Proofs.Traps.Calculation
import Reckoner.Proofs.Traps.Evaluation
import Reckoner.Proofs.Traps.Library
import Reckoner.Proofs.Traps.Scanning
import Reckoner.Scalar
import Reckoner.Settings
import Reckoner.Settings.EnvFile
import Reckoner.Settings.Fields
import Reckoner.Text.Classes
import Reckoner.Text.Printable
import Reckoner.Text.Quoted
import Reckoner.Text.Template
import Reckoner.Token
import Reckoner.Token.Scan
import Reckoner.Validation
import Reckoner.Value
import Reckoner.Value.Cell
