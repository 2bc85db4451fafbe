import Folio.Bounds
import Folio.CommandLine
import Folio.CommandLine.Options
import Folio.CommandLine.Usage
import Folio.Compilation
import Folio.Data
import Folio.Data.Encode
import Folio.Data.Json
import Folio.Data.Yaml
import Folio.Data.Yaml.Reading
import Folio.Data.Yaml.Scalar
import Folio.Decimal
import Folio.Decimal.Double
import Folio.Diagnostic
import Folio.Echo
import Folio.Expectation
import Folio.Instruction
import Folio.Instruction.Arguments
import Folio.Instruction.Combinators
import Folio.Instruction.Productions
import Folio.Instruction.Reader
import Folio.Main
import Folio.Model
import Folio.PageNumber
import Folio.Position
import Folio.Proofs.Accounting
import Folio.Proofs.ArgumentOrder
import Folio.Proofs.ArgumentPlace
import Folio.Proofs.Arrival
import Folio.Proofs.Backtracking
import Folio.Proofs.BlockErrors
import Folio.Proofs.Canonical
import Folio.Proofs.Compiled
import Folio.Proofs.Complaints
import Folio.Proofs.Concatenation
import Folio.Proofs.CounterTable
import Folio.Proofs.Defaults
import Folio.Proofs.Denotation
import Folio.Proofs.DistinctNumbers
import Folio.Proofs.Encoding
import Folio.Proofs.Extension
import Folio.Proofs.Faults
import Folio.Proofs.Grammar
import Folio.Proofs.Growth
import Folio.Proofs.JsonText
import Folio.Proofs.Layout
import Folio.Proofs.Lexeme
import Folio.Proofs.LineBreaks
import Folio.Proofs.LineColumn
import Folio.Proofs.Lines
import Folio.Proofs.LongestMatch
import Folio.Proofs.Lossless
import Folio.Proofs.Mirroring
import Folio.Proofs.Misprint
import Folio.Proofs.Modes
import Folio.Proofs.Numbering
import Folio.Proofs.NumericArguments
import Folio.Proofs.OutlineLines
import Folio.Proofs.PageLabels
import Folio.Proofs.Parameters
import Folio.Proofs.Precedence
import Folio.Proofs.Printing
import Folio.Proofs.QuotedText
import Folio.Proofs.Reading
import Folio.Proofs.Reordering
import Folio.Proofs.ReportLines
import Folio.Proofs.Reproduction
import Folio.Proofs.Roundtrip
import Folio.Proofs.Scanning
import Folio.Proofs.Seam
import Folio.Proofs.SourceOrder
import Folio.Proofs.Spacing
import Folio.Proofs.TokenLines
import Folio.Proofs.Validity
import Folio.Proofs.Verdict
import Folio.Proofs.Viability
import Folio.Rendition
import Folio.Report
import Folio.Resolve
import Folio.Resolve.Correction
import Folio.Resolve.Fault
import Folio.Resolve.Signature
import Folio.Settings
import Folio.Settings.Check
import Folio.Settings.Decode
import Folio.Settings.KeyPath
import Folio.Settings.Layer
import Folio.Settings.Merge
import Folio.Settings.Standard
import Folio.Settings.Value
import Folio.Summary
import Folio.Text.Blank
import Folio.Text.Cased
import Folio.Text.Hidden
import Folio.Text.Integer
import Folio.Text.Lower
import Folio.Text.Quoted
import Folio.Text.Similarity
import Folio.Text.Utf8
import Folio.Text.Visible
import Folio.TitleNumber
import Folio.Token
import Folio.Token.Scan
import Folio.Toml
import Folio.Toml.Lexeme
import Folio.Toml.Moment
import Folio.Toml.Number
import Folio.Toml.Table
