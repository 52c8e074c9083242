import Outline.Builder
import Outline.Calendar
import Outline.Category
import Outline.Characters
import Outline.Characters.Combining
import Outline.Characters.Invisible
import Outline.CommandLine
import Outline.Cursor
import Outline.Decimal
import Outline.Document
import Outline.Double
import Outline.Double.Reading
import Outline.Double.Shortest
import Outline.Drawing
import Outline.Escape
import Outline.Expectation
import Outline.Format
import Outline.Literal
import Outline.Main
import Outline.Node
import Outline.Pattern
import Outline.Position
import Outline.Proofs.Builder.Agreement
import Outline.Proofs.Builder.Joining
import Outline.Proofs.Builder.Lines
import Outline.Proofs.Builder.Machine
import Outline.Proofs.Builder.Nesting
import Outline.Proofs.Builder.Retagging
import Outline.Proofs.Builder.Rows
import Outline.Proofs.Builder.Skeleton
import Outline.Proofs.Builder.Structure
import Outline.Proofs.Calendar
import Outline.Proofs.Category.LongestFirst
import Outline.Proofs.Decimal
import Outline.Proofs.Document.Acceptance
import Outline.Proofs.Document.Checks
import Outline.Proofs.Document.Contents
import Outline.Proofs.Document.Errors
import Outline.Proofs.Document.Factoring
import Outline.Proofs.Document.FinalNewline
import Outline.Proofs.Document.LineEnds
import Outline.Proofs.Document.Nesting
import Outline.Proofs.Document.OpenCalls
import Outline.Proofs.Document.SpanOrder
import Outline.Proofs.Document.Traversal
import Outline.Proofs.Document.Unclosed
import Outline.Proofs.Drawing
import Outline.Proofs.Grammar
import Outline.Proofs.Lexing.Calendar
import Outline.Proofs.Lexing.FinalNewline
import Outline.Proofs.Lexing.LineStarts
import Outline.Proofs.Lexing.NormalForm
import Outline.Proofs.Lexing.Numbers
import Outline.Proofs.Lexing.Rule
import Outline.Proofs.Lexing.Splitting
import Outline.Proofs.Lexing.Tiling
import Outline.Proofs.Lexing.TokenLines
import Outline.Proofs.Lexing.Tracking
import Outline.Proofs.Literal.Calendar
import Outline.Proofs.Literal.CalendarReading
import Outline.Proofs.Literal.Numbers
import Outline.Proofs.Node.Display
import Outline.Proofs.Pattern.Derivatives
import Outline.Proofs.Pattern.Languages
import Outline.Proofs.Pattern.LongestFirst
import Outline.Proofs.Position
import Outline.Proofs.Snapshot
import Outline.Proofs.Text.Bytes
import Outline.Proofs.Text.Lines
import Outline.Proofs.Token.Display
import Outline.Proofs.Value.JsonRoundTrip
import Outline.Proofs.Value.Lexemes
import Outline.Snapshot
import Outline.Source
import Outline.Token
import Outline.Value
import Outline.Value.Json
import Outline.Value.JsonReader
import Outline.Value.Yaml
import Outline.Violation
import Outline.Visitor
import Outline.Visitor.Collectors
