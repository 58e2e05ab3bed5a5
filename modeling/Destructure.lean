import Destructure.CommandLine.Arguments
import Destructure.CommandLine.Run
import Destructure.Compile.Basic
import Destructure.Compile.Cache
import Destructure.Compile.Compilation
import Destructure.Diagnostic.Basic
import Destructure.Diagnostic.Report
import Destructure.Dispatch.Action
import Destructure.Dispatch.Basic
import Destructure.Dispatch.PartialFunction
import Destructure.Dispatch.Program
import Destructure.Dispatch.Registration
import Destructure.Failure
import Destructure.Fault
import Destructure.Json.Reader
import Destructure.Json.Writer
import Destructure.Main
import Destructure.Matcher.Basic
import Destructure.Matcher.OfPattern
import Destructure.Number.Binary
import Destructure.Number.Layout
import Destructure.Number.Quantity
import Destructure.Number.Reading
import Destructure.Number.Scaled
import Destructure.Number.ScaledArithmetic
import Destructure.Number.Shortest
import Destructure.Pattern.Basic
import Destructure.Pattern.Literal
import Destructure.Pattern.Node
import Destructure.Pattern.Reader
import Destructure.Pattern.Token
import Destructure.Pattern.Violation
import Destructure.Pipeline.Order
import Destructure.Pipeline.Run
import Destructure.Proofs.CommandLine.Arguments
import Destructure.Proofs.CommandLine.Run
import Destructure.Proofs.Compile.Compilation
import Destructure.Proofs.Compile.Ends
import Destructure.Proofs.Compile.Expectation
import Destructure.Proofs.Compile.Guard
import Destructure.Proofs.Compile.Inversion
import Destructure.Proofs.Compile.Likeness
import Destructure.Proofs.Compile.Literals
import Destructure.Proofs.Compile.Meaning
import Destructure.Proofs.Compile.Recency
import Destructure.Proofs.Compile.Refusal
import Destructure.Proofs.Compile.Rendering
import Destructure.Proofs.Compile.Totality
import Destructure.Proofs.Compile.Validation
import Destructure.Proofs.Compile.Views
import Destructure.Proofs.Diagnostic.Colour
import Destructure.Proofs.Diagnostic.Rows
import Destructure.Proofs.Diagnostic.Underline
import Destructure.Proofs.Dispatch.Choice
import Destructure.Proofs.Dispatch.Composition
import Destructure.Proofs.Dispatch.Domain
import Destructure.Proofs.Dispatch.Exhaustion
import Destructure.Proofs.Dispatch.Folding
import Destructure.Proofs.Dispatch.History
import Destructure.Proofs.Dispatch.Record
import Destructure.Proofs.Dispatch.Search
import Destructure.Proofs.Dispatch.Trace
import Destructure.Proofs.Json.Reading
import Destructure.Proofs.Json.Value
import Destructure.Proofs.Json.Writing
import Destructure.Proofs.Matcher.Capture
import Destructure.Proofs.Matcher.Congruence
import Destructure.Proofs.Matcher.Equality
import Destructure.Proofs.Matcher.Inheritance
import Destructure.Proofs.Matcher.Likeness
import Destructure.Proofs.Matcher.Lowering
import Destructure.Proofs.Matcher.Overflow
import Destructure.Proofs.Matcher.Reference
import Destructure.Proofs.Matcher.Simulation
import Destructure.Proofs.Matcher.Substitution
import Destructure.Proofs.Mismatch
import Destructure.Proofs.Number.Exactness
import Destructure.Proofs.Number.Integer
import Destructure.Proofs.Number.Rounding
import Destructure.Proofs.Outcome
import Destructure.Proofs.Pattern.Beginning
import Destructure.Proofs.Pattern.Conversion
import Destructure.Proofs.Pattern.Cutting
import Destructure.Proofs.Pattern.Derivation
import Destructure.Proofs.Pattern.Extents
import Destructure.Proofs.Pattern.Findings
import Destructure.Proofs.Pattern.Halting
import Destructure.Proofs.Pattern.Likeness
import Destructure.Proofs.Pattern.Order
import Destructure.Proofs.Pattern.Outline
import Destructure.Proofs.Pattern.Parts
import Destructure.Proofs.Pattern.Quotation
import Destructure.Proofs.Pattern.Reading
import Destructure.Proofs.Pattern.Shift
import Destructure.Proofs.Pattern.Size
import Destructure.Proofs.Pattern.Substitution
import Destructure.Proofs.Pattern.Terminal
import Destructure.Proofs.Pattern.Valuation
import Destructure.Proofs.Pattern.Walk
import Destructure.Proofs.Pipeline.Order
import Destructure.Proofs.Text.Lines
import Destructure.Proofs.Value.Sequence
import Destructure.Proofs.Value.Suffix
import Destructure.Text.CodePoint
import Destructure.Text.DecimalDigit
import Destructure.Text.Quoted
import Destructure.Text.Span
import Destructure.Text.Unprintable
import Destructure.Value.Arithmetic
import Destructure.Value.Assembly
import Destructure.Value.Basic
import Destructure.Value.Comparison
import Destructure.Value.Grid
import Destructure.Value.Operand
import Destructure.Value.Sequence
import Destructure.Value.Show
import Destructure.Value.Storage
