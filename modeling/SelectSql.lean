import SelectSql.Grammar.Entry
import SelectSql.Json.Options
import SelectSql.Json.Read
import SelectSql.Layout.WriterLaws
import SelectSql.Syntax.Equality
import SelectSql.Proofs.Lexical.Grammar
import SelectSql.Proofs.Lexical.Remaining
import SelectSql.Proofs.Lexical.Scanned
import SelectSql.Proofs.Lexical.Boundary
import SelectSql.Proofs.Lexical.Scans
import SelectSql.Proofs.Lexical.Split
import SelectSql.Proofs.Lexical.Meaning
import SelectSql.Proofs.Spelling.Ahead
import SelectSql.Proofs.Spelling.Expression
import SelectSql.Proofs.Reading.Reads
import SelectSql.Proofs.Spelling.Statement
import SelectSql.Proofs.Reading.Expression
import SelectSql.Proofs.Reading.Statement
import SelectSql.Proofs.Reading.ExpressionComplete
import SelectSql.Proofs.Reading.StatementComplete
import SelectSql.Proofs.Reading.Entry
import SelectSql.Proofs.Printing.Fits
import SelectSql.Proofs.Printing.Expression
import SelectSql.Proofs.Printing.Statement
import SelectSql.Proofs.RoundTrip
import SelectSql.Proofs.Spelling.Spaced
import SelectSql.Proofs.Spelling.Settled
import SelectSql.Proofs.Accepted
import SelectSql.Proofs.Spelling.Induction
import SelectSql.Proofs.Spelling.Passing
import SelectSql.Proofs.Sheltered
import SelectSql.Proofs.Spelling.Closing
import SelectSql.Proofs.Splicing.Holds
import SelectSql.Proofs.Splicing.Embedded
import SelectSql.Proofs.Spelling.Commas
import SelectSql.Proofs.Blanks
import SelectSql.Proofs.Lexical.Tiling
import SelectSql.Proofs.Lexical.Pieces
import SelectSql.Proofs.Twins.Alike
import SelectSql.Proofs.Twins.Grammar
import SelectSql.Proofs.Twins.Entry
import SelectSql.Proofs.Twins.Suffix
import SelectSql.Proofs.Reuse
import SelectSql.Proofs.Twins.Tape
import SelectSql.Proofs.Completing.Filler
import SelectSql.Proofs.Completing.Rules
import SelectSql.Proofs.Completing.Grammar
import SelectSql.Proofs.Completing.Entry
import SelectSql.Proofs.Completing.Text
import SelectSql.Proofs.ViablePrefix
import SelectSql.Proofs.Twins.Paired
import SelectSql.Proofs.Agreement
import SelectSql.Proofs.Respelled
import SelectSql.Proofs.Pushback
import SelectSql.Proofs.Nesting.Texts
import SelectSql.Proofs.Nesting.Shift
import SelectSql.Proofs.Nesting.Frame
import SelectSql.Proofs.Nested
import SelectSql.Proofs.Finishing.Solid
import SelectSql.Proofs.Finishing
import SelectSql.Proofs.Trailing
import SelectSql.Proofs.Breaking.Spelled
import SelectSql.Proofs.Breaking
import SelectSql.Proofs.Json.Loosened
import SelectSql.Proofs.Json.ReadBack
import SelectSql.Proofs.Looking
import SelectSql.Proofs.Lexical.Delimited
import SelectSql.Proofs.Layouts
import SelectSql.Proofs.Leading
import SelectSql.Proofs.Recording
import SelectSql.Proofs.Restoring.Step
import SelectSql.Proofs.Restoring
