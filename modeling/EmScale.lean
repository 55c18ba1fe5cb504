import EmScale.Entry
import EmScale.Json.Printer
import EmScale.Json.Reader
import EmScale.Proofs.Cursor
import EmScale.Proofs.Sheet.Lexis
import EmScale.Proofs.Sheet.Concat
import EmScale.Proofs.Sheet.Selection
import EmScale.Proofs.Sheet.Statement
import EmScale.Proofs.Sheet.Shape
import EmScale.Proofs.Converter.Blacklist
import EmScale.Proofs.Converter.Concat
import EmScale.Proofs.Converter.Decision
import EmScale.Proofs.Converter.Divider
import EmScale.Proofs.Converter.Duplicates
import EmScale.Proofs.Converter.FixedPoint
import EmScale.Proofs.Converter.Idempotence
import EmScale.Proofs.Converter.Marker
import EmScale.Proofs.Converter.Plain
import EmScale.Proofs.Converter.Remaining
import EmScale.Proofs.Converter.Revision
import EmScale.Proofs.Converter.Strings
import EmScale.Proofs.Value.Occurrence
import EmScale.Proofs.Sheet.Layout
import EmScale.Proofs.Sheet.Finality
import EmScale.Proofs.Sheet.Progress
import EmScale.Proofs.Number.Rounding
import EmScale.Proofs.Options.Decode
import EmScale.Proofs.RootValue
import EmScale.Proofs.Value.Unit
import EmScale.Regex.Matcher
