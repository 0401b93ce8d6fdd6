import Ingest.Cli.Command
import Ingest.Cli.Help
import Ingest.Cli.Run
import Ingest.Delimited.Columns
import Ingest.Delimited.Delimiter
import Ingest.Main
import Ingest.Number.Binary64
import Ingest.Number.Decimal
import Ingest.Number.Loose
import Ingest.Number.Notation
import Ingest.Number.Shortest
import Ingest.Records
import Ingest.Relaxed.Fault
import Ingest.Relaxed.KeyCoercion
import Ingest.Relaxed.Reader
import Ingest.Relaxed.Token
import Ingest.Schema.Column
import Ingest.Schema.Compile
import Ingest.Schema.Document
import Ingest.Schema.Error
import Ingest.Schema.Lax
import Ingest.Schema.Options
import Ingest.Text.Blank
import Ingest.Text.Digit
import Ingest.Text.JsonString
import Ingest.Text.Pattern
import Ingest.Text.Point
import Ingest.Text.Printable
import Ingest.Text.Quoted
import Ingest.Text.WordChar
import Ingest.Value.Basic
import Ingest.Value.Build
import Ingest.Value.Equality
import Ingest.Value.Render
import Ingest.Value.View
import Ingest.Yaml.Document
import Ingest.Yaml.Implicit
import Ingest.Yaml.Style
import Ingest.Yaml.Writer
import Ingest.Proofs.Columns.Quoted
import Ingest.Proofs.Columns.Scan
import Ingest.Proofs.Columns.Search
import Ingest.Proofs.Columns.Leading
import Ingest.Proofs.Columns.Conservation
import Ingest.Proofs.Number.Rounding
import Ingest.Proofs.Number.ShortestDigits
import Ingest.Proofs.Number.NumberText
import Ingest.Proofs.Text.JsonLiteral
import Ingest.Proofs.Relaxed.Lexing
import Ingest.Proofs.Relaxed.Rendering
import Ingest.Proofs.Relaxed.Descent
import Ingest.Proofs.Relaxed.Document
import Ingest.Proofs.Value.Slots
import Ingest.Proofs.Relaxed.ParseTree
import Ingest.Proofs.Relaxed.Lookup
import Ingest.Proofs.Relaxed.Coercion
import Ingest.Proofs.Relaxed.CoercedKeys
import Ingest.Proofs.Relaxed.LexemeBounds
import Ingest.Proofs.Relaxed.Respelling
import Ingest.Proofs.Relaxed.ReadSteps
import Ingest.Proofs.Relaxed.Sugar
import Ingest.Proofs.Relaxed.Loosening
import Ingest.Proofs.Relaxed.TreeSteps
import Ingest.Proofs.Relaxed.DepthLimit
import Ingest.Proofs.Relaxed.FaultOffsets
import Ingest.Proofs.Schema.Faults
import Ingest.Proofs.Schema.WellFormed
import Ingest.Proofs.Relaxed.LineColumn
import Ingest.Proofs.Schema.Picking
import Ingest.Proofs.Value.Comparison
import Ingest.Proofs.Relaxed.DocumentEquality
import Ingest.Proofs.Relaxed.Progress
