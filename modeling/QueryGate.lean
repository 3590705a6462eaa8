import QueryGate.Binary64
import QueryGate.Binary64.Shortest
import QueryGate.Binary64.Text
import QueryGate.Builder
import QueryGate.Builder.Call
import QueryGate.Builder.Session
import QueryGate.Calendar
import QueryGate.Calendar.Iso
import QueryGate.Calendar.Week
import QueryGate.Config
import QueryGate.Environment
import QueryGate.Failure
import QueryGate.Form.Fault
import QueryGate.Form.Field
import QueryGate.Form.Operation
import QueryGate.Form.Query
import QueryGate.Gate
import QueryGate.Http.Rest
import QueryGate.Http.Service
import QueryGate.Json.Fault
import QueryGate.Json.Reader
import QueryGate.Json.Writer
import QueryGate.Operation
import QueryGate.Proofs.Alike
import QueryGate.Proofs.AlikeDraft
import QueryGate.Proofs.AllowedCondition
import QueryGate.Proofs.AllowedQuery
import QueryGate.Proofs.Base64Text
import QueryGate.Proofs.Bound
import QueryGate.Proofs.BulkValues
import QueryGate.Proofs.CanonicalForm
import QueryGate.Proofs.CarriedConditions
import QueryGate.Proofs.ColumnReference
import QueryGate.Proofs.Comparing
import QueryGate.Proofs.CompiledLeaf
import QueryGate.Proofs.CompiledOperation
import QueryGate.Proofs.Corresponding
import QueryGate.Proofs.DangerousText
import QueryGate.Proofs.DeclaredFailures
import QueryGate.Proofs.DescribedQuery
import QueryGate.Proofs.DialectAgreement
import QueryGate.Proofs.Draft
import QueryGate.Proofs.EnvelopeForms
import QueryGate.Proofs.EscapedName
import QueryGate.Proofs.FailedCalls
import QueryGate.Proofs.Failing
import QueryGate.Proofs.FilterSize
import QueryGate.Proofs.FoldedFilter
import QueryGate.Proofs.GateText
import QueryGate.Proofs.Interleaving
import QueryGate.Proofs.JoinOperands
import QueryGate.Proofs.JsonNumber
import QueryGate.Proofs.JsonString
import QueryGate.Proofs.JsonValue
import QueryGate.Proofs.KeptFilter
import QueryGate.Proofs.KeyOrder
import QueryGate.Proofs.Lexing
import QueryGate.Proofs.Lookup
import QueryGate.Proofs.LooserLimits
import QueryGate.Proofs.Meaning
import QueryGate.Proofs.NameReading
import QueryGate.Proofs.NamedRows
import QueryGate.Proofs.Numbering
import QueryGate.Proofs.Numeral
import QueryGate.Proofs.OneRow
import QueryGate.Proofs.Outcome
import QueryGate.Proofs.OwnText
import QueryGate.Proofs.Pagination
import QueryGate.Proofs.Phrase
import QueryGate.Proofs.Placeholders
import QueryGate.Proofs.PlainName
import QueryGate.Proofs.QueryFaults
import QueryGate.Proofs.QuotedText
import QueryGate.Proofs.ReadFrom
import QueryGate.Proofs.ReadLimits
import QueryGate.Proofs.Reading
import QueryGate.Proofs.ReplacedMarks
import QueryGate.Proofs.RequestNames
import QueryGate.Proofs.RequestRows
import QueryGate.Proofs.Revalidation
import QueryGate.Proofs.Rounding
import QueryGate.Proofs.RowByRow
import QueryGate.Proofs.SafeName
import QueryGate.Proofs.SameRead
import QueryGate.Proofs.SameText
import QueryGate.Proofs.ShiftedMarks
import QueryGate.Proofs.ShortestDecimal
import QueryGate.Proofs.Splitting
import QueryGate.Proofs.StatementMarks
import QueryGate.Proofs.StatementShape
import QueryGate.Proofs.StatementWording
import QueryGate.Proofs.Transport
import QueryGate.Proofs.Tree
import QueryGate.Proofs.Truth
import QueryGate.Proofs.UpdateEffect
import QueryGate.Proofs.UpdateReading
import QueryGate.Proofs.UpdateText
import QueryGate.Proofs.Utf8Text
import QueryGate.Proofs.ValidConfig
import QueryGate.Proofs.Wording
import QueryGate.Proofs.Written
import QueryGate.Query.Basic
import QueryGate.Query.Operator
import QueryGate.Query.Wire
import QueryGate.Request
import QueryGate.Sql.Dialect
import QueryGate.Sql.Fragment
import QueryGate.Sql.Predicate
import QueryGate.Sql.Statement
import QueryGate.Text.Character
import QueryGate.Text.Integer
import QueryGate.Text.Printable
import QueryGate.Text.Quoted
import QueryGate.Text.UpperCase
import QueryGate.Text.Word
import QueryGate.Validation.Condition
import QueryGate.Validation.Danger
import QueryGate.Validation.FieldPattern
import QueryGate.Validation.Name
import QueryGate.Validation.Options
import QueryGate.Validation.Predicate
import QueryGate.Validation.Query
import QueryGate.Validation.Rejection
import QueryGate.Value
import QueryGate.Value.Shape
import QueryGate.Verify.Check
import QueryGate.Wire.Base64
import QueryGate.Wire.Envelope
import QueryGate.Wire.Pairs
import QueryGate.Wire.Utf8
import QueryGate.Wire.WideUnits
