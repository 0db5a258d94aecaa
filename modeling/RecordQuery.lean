import RecordQuery.Main
import RecordQuery.Proofs.Query.Canonical
import RecordQuery.Proofs.Decimal.Nearest
import RecordQuery.Proofs.Decimal.Rank
import RecordQuery.Proofs.Decimal.Rounding
import RecordQuery.Proofs.Decimal.Amount
import RecordQuery.Proofs.Text.Order
import RecordQuery.Proofs.Decimal.Layout
import RecordQuery.Proofs.Json.Number
import RecordQuery.Proofs.Json.Token
import RecordQuery.Proofs.Json.Assembly
import RecordQuery.Proofs.Json.Reading
import RecordQuery.Proofs.Storage.Path
import RecordQuery.Proofs.Storage.Slot
import RecordQuery.Proofs.Storage.Temporary
import RecordQuery.Proofs.Storage.Change
import RecordQuery.Proofs.Storage.Delivery
import RecordQuery.Proofs.Storage.Session
import RecordQuery.Proofs.Storage.Replacement
import RecordQuery.Proofs.Json.RoundTrip
import RecordQuery.Proofs.Json.Pairs
import RecordQuery.Proofs.Record
import RecordQuery.Proofs.Run.Stages
import RecordQuery.Proofs.Run.InputKept
import RecordQuery.Proofs.Run.Sequence
import RecordQuery.Proofs.Run.Defaults
import RecordQuery.Proofs.Query.Operand
import RecordQuery.Proofs.Query.Grammar
import RecordQuery.Proofs.Query.Rechecking
import RecordQuery.Proofs.Query.StrictCanonical
import RecordQuery.Proofs.Query.Agreement
import RecordQuery.Proofs.Json.Layout
import RecordQuery.Proofs.Query.Numeral
import RecordQuery.Proofs.Query.Trichotomy
import RecordQuery.Proofs.Query.Exchange
import RecordQuery.Proofs.Query.NormalForm
import RecordQuery.Proofs.Query.Integers
import RecordQuery.Proofs.Query.Limit
import RecordQuery.Proofs.Query.Positions
import RecordQuery.Proofs.Query.Staging
import RecordQuery.Proofs.Report.Reading
import RecordQuery.Proofs.Report.Template
import RecordQuery.Proofs.Report.Lines
import RecordQuery.Proofs.Program.Agreement
import RecordQuery.Proofs.Program.Consistency
import RecordQuery.Proofs.CommandLine
