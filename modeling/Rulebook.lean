import Rulebook.Action
import Rulebook.Calendar
import Rulebook.CommandLine.Invocation
import Rulebook.CommandLine.LogFilter
import Rulebook.CommandLine.Options
import Rulebook.CommandLine.Program
import Rulebook.Compilation
import Rulebook.Configuration.Basic
import Rulebook.Configuration.Source
import Rulebook.Decimal.Layout
import Rulebook.Decimal.Reading
import Rulebook.Decimal.Shortest
import Rulebook.Decimal.Text
import Rulebook.Engine.Basic
import Rulebook.Engine.Session
import Rulebook.Engine.View
import Rulebook.Fault
import Rulebook.Fields
import Rulebook.Host
import Rulebook.Json.Basic
import Rulebook.Json.Lexeme
import Rulebook.Json.Printer
import Rulebook.Json.Reader
import Rulebook.Json.Section
import Rulebook.Main
import Rulebook.Monitor
import Rulebook.Output
import Rulebook.Parameter.Kind
import Rulebook.Parameter.Spec
import Rulebook.Parameter.Validation
import Rulebook.Parameter.Violation
import Rulebook.Pattern.Basic
import Rulebook.Pattern.Reader
import Rulebook.Pattern.Search
import Rulebook.Procedure
import Rulebook.Proofs.CommandLine.Jobs
import Rulebook.Proofs.CommandLine.Warnings
import Rulebook.Proofs.Compilation.Callable
import Rulebook.Proofs.Compilation.FirstLines
import Rulebook.Proofs.Compilation.Inputs
import Rulebook.Proofs.Compilation.Literal
import Rulebook.Proofs.Compilation.Meaning
import Rulebook.Proofs.Compilation.Outline
import Rulebook.Proofs.Compilation.Parsing
import Rulebook.Proofs.Compilation.Passages
import Rulebook.Proofs.Compilation.References
import Rulebook.Proofs.Compilation.Segments
import Rulebook.Proofs.Compilation.Simulation
import Rulebook.Proofs.Compilation.Termination
import Rulebook.Proofs.Configuration.Canonical
import Rulebook.Proofs.Configuration.Entries
import Rulebook.Proofs.Configuration.Faults
import Rulebook.Proofs.Configuration.Sections
import Rulebook.Proofs.Configuration.Transcription
import Rulebook.Proofs.Decimal.Doubles
import Rulebook.Proofs.Decimal.Nearest
import Rulebook.Proofs.Decimal.Order
import Rulebook.Proofs.Decimal.Rounding
import Rulebook.Proofs.Decimal.Shortest
import Rulebook.Proofs.Decimal.Values
import Rulebook.Proofs.Engine.Bare
import Rulebook.Proofs.Engine.Caches
import Rulebook.Proofs.Engine.Calls
import Rulebook.Proofs.Engine.Closure
import Rulebook.Proofs.Engine.Failures
import Rulebook.Proofs.Engine.OnHost
import Rulebook.Proofs.Engine.Orders
import Rulebook.Proofs.Engine.Outputs
import Rulebook.Proofs.Engine.Payloads
import Rulebook.Proofs.Engine.Phases
import Rulebook.Proofs.Engine.Survival
import Rulebook.Proofs.Engine.Views
import Rulebook.Proofs.Json.Canonical
import Rulebook.Proofs.Json.Documents
import Rulebook.Proofs.Json.Limits
import Rulebook.Proofs.Json.Places
import Rulebook.Proofs.Json.Readings
import Rulebook.Proofs.Json.Reals
import Rulebook.Proofs.Json.Rearranged
import Rulebook.Proofs.Json.RoundTrip
import Rulebook.Proofs.Json.Scalars
import Rulebook.Proofs.Json.Standard
import Rulebook.Proofs.Json.Written
import Rulebook.Proofs.Monitor.Labels
import Rulebook.Proofs.Monitor.Pairing
import Rulebook.Proofs.Monitor.Tracking
import Rulebook.Proofs.Parameter.Delivery
import Rulebook.Proofs.Parameter.Orders
import Rulebook.Proofs.Parameter.Origins
import Rulebook.Proofs.Parameter.Ranges
import Rulebook.Proofs.Parameter.Reports
import Rulebook.Proofs.Parameter.Strings
import Rulebook.Proofs.Parameter.Structured
import Rulebook.Proofs.Parameter.Verdicts
import Rulebook.Proofs.Script.Boundary
import Rulebook.Proofs.Script.Closure
import Rulebook.Proofs.Script.Congruence
import Rulebook.Proofs.Script.Cutting
import Rulebook.Proofs.Script.Frame
import Rulebook.Proofs.Script.Grammar
import Rulebook.Proofs.Script.Lexemes
import Rulebook.Proofs.Script.Lifting
import Rulebook.Proofs.Script.Logging
import Rulebook.Proofs.Script.Masking
import Rulebook.Proofs.Script.Phrases
import Rulebook.Proofs.Script.Refusals
import Rulebook.Proofs.Script.Running
import Rulebook.Proofs.Script.Sentences
import Rulebook.Proofs.Script.Signatures
import Rulebook.Proofs.Script.Sparing
import Rulebook.Proofs.Script.Tidying
import Rulebook.Proofs.Surface.Braces
import Rulebook.Proofs.Surface.Idempotence
import Rulebook.Proofs.Surface.Images
import Rulebook.Proofs.Surface.Pieces
import Rulebook.Proofs.Surface.Requoting
import Rulebook.Proofs.Surface.Rewriting
import Rulebook.Proofs.Surface.Scanning
import Rulebook.Proofs.Surface.Seams
import Rulebook.Proofs.Text.Blanks
import Rulebook.Proofs.Text.Bytes
import Rulebook.Proofs.Text.Runs
import Rulebook.Proofs.Value.Agreement
import Rulebook.Proofs.Value.Liberties
import Rulebook.Proofs.Value.Paths
import Rulebook.Proofs.Value.Rearranged
import Rulebook.Proofs.Value.Verbatim
import Rulebook.Registry
import Rulebook.Rule
import Rulebook.Script.Arithmetic
import Rulebook.Script.Basic
import Rulebook.Script.Call
import Rulebook.Script.Chain
import Rulebook.Script.Datum
import Rulebook.Script.Evaluation
import Rulebook.Script.Exchange
import Rulebook.Script.HigherOrder
import Rulebook.Script.Interpreter
import Rulebook.Script.Lexer
import Rulebook.Script.Library.Basic
import Rulebook.Script.Library.Collections
import Rulebook.Script.Library.Items
import Rulebook.Script.Library.Numbers
import Rulebook.Script.Library.Places
import Rulebook.Script.Library.Texts
import Rulebook.Script.Operator
import Rulebook.Script.Position
import Rulebook.Script.Problem
import Rulebook.Script.Reader
import Rulebook.Script.Simplify
import Rulebook.Script.Syntax
import Rulebook.Script.Token
import Rulebook.Script.Word
import Rulebook.Surface.Image
import Rulebook.Surface.Piece
import Rulebook.Text.Case
import Rulebook.Text.CaseTable
import Rulebook.Text.Class
import Rulebook.Text.ClassTable
import Rulebook.Text.Quoted
import Rulebook.Value.Basic
import Rulebook.Value.Inline
import Rulebook.Value.Json
import Rulebook.Value.Verbatim
import Rulebook.Workbench
import Rulebook.Yaml.Meaning
import Rulebook.Yaml.Node
import Rulebook.Yaml.Reader
import Rulebook.Yaml.Scalar
