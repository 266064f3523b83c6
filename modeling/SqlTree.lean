import SqlTree.Builder
import SqlTree.Codec.Config
import SqlTree.Codec.Literal
import SqlTree.Codec.Tree
import SqlTree.DataType
import SqlTree.Dialect.Basic
import SqlTree.Dialect.Capabilities
import SqlTree.Dialect.Registry
import SqlTree.Dialect.SqlCe
import SqlTree.Error
import SqlTree.Expr
import SqlTree.Fold.Basic
import SqlTree.Fold.Function
import SqlTree.Fold.Operator
import SqlTree.Ids
import SqlTree.Json.Basic
import SqlTree.Json.Text
import SqlTree.Label
import SqlTree.Literal
import SqlTree.Lowering.Ordering
import SqlTree.Lowering.Parameters
import SqlTree.Lowering.Pipeline
import SqlTree.Lowering.Projection
import SqlTree.Lowering.RowNumber
import SqlTree.Lowering.SingleTable
import SqlTree.Node
import SqlTree.Number.Binary64
import SqlTree.Number.Decimal
import SqlTree.Number.Word
import SqlTree.Pass
import SqlTree.Query
import SqlTree.Statement
import SqlTree.Table
import SqlTree.Text.Blank
import SqlTree.Text.Case
import SqlTree.Text.CaseData
import SqlTree.Text.HiddenData
import SqlTree.Text.Quoted
import SqlTree.Text.Ranges
import SqlTree.Time.Civil
import SqlTree.Time.Date
import SqlTree.Time.Interval
import SqlTree.Transform.Basic
import SqlTree.Transform.Hooks
import SqlTree.Transform.Rules
import SqlTree.Proofs.Pagination.Emulation
import SqlTree.Proofs.SingleTable.WellFormed
import SqlTree.Proofs.Invariant
import SqlTree.Proofs.Pagination.Shape
import SqlTree.Proofs.Resolution
import SqlTree.Proofs.Pagination.References
import SqlTree.Proofs.Pagination.Queries
import SqlTree.Proofs.Lowering.Pipeline
import SqlTree.Proofs.Lowering.Ordering
import SqlTree.Proofs.Lowering.Bounds
import SqlTree.Proofs.Lowering.Target
import SqlTree.Proofs.Lowering.Arguments
import SqlTree.Proofs.Hooks
import SqlTree.Proofs.Lowering.Preservation
import SqlTree.Proofs.Lowering.Conformance
import SqlTree.Proofs.Lowering.Insertion
import SqlTree.Proofs.Declared
import SqlTree.Proofs.Pagination.Fresh
import SqlTree.Proofs.Lowering.Unique
import SqlTree.Proofs.Lowering.NormalForm
import SqlTree.Proofs.Lowering.Flags
import SqlTree.Proofs.Survey
import SqlTree.Proofs.Lowering.Failure
import SqlTree.Proofs.Lowering.Bindings
import SqlTree.Proofs.Settled
import SqlTree.Proofs.Lowering.Idempotence
import SqlTree.Proofs.MapUp
import SqlTree.Proofs.Lowering.Reconversion
import SqlTree.Proofs.Lowering.Commutation
import SqlTree.Proofs.Time.Calendar
import SqlTree.Proofs.Time.Text
import SqlTree.Proofs.Json.Text
import SqlTree.Proofs.Codec.Literal
import SqlTree.Proofs.Codec.Limits
import SqlTree.Proofs.Codec.RoundTrip
import SqlTree.Proofs.Codec.Text
import SqlTree.Proofs.Lowering.PassList
import SqlTree.Proofs.SingleTable.LeftJoin
import SqlTree.Proofs.SingleTable.Limit
import SqlTree.Proofs.Lowering.Pages
import SqlTree.Proofs.Time.Increment
import SqlTree.Proofs.Lowering.DateShift
import SqlTree.Proofs.Registry
import SqlTree.Proofs.Descent
import SqlTree.Proofs.Lowering.Descent
import SqlTree.Proofs.Key
import SqlTree.Proofs.Lowering.Correction
import SqlTree.Proofs.Number.Double
import SqlTree.Proofs.Fold.Reference
import SqlTree.Proofs.Fold.Soundness
import SqlTree.Proofs.Fold.Comparison
import SqlTree.Proofs.Time.Coarsest
import SqlTree.Proofs.Time.Quotient
import SqlTree.Proofs.Lowering.DateQuotient
import SqlTree.Proofs.Fold.Completeness
import SqlTree.Proofs.Fold.Shift
import SqlTree.Proofs.Fold.Symmetry
import SqlTree.Proofs.Number.Whole
import SqlTree.Proofs.Number.Numeral
import SqlTree.Proofs.Fold.Conversion
import SqlTree.Proofs.Text.Literal
import SqlTree.Proofs.Walk
import SqlTree.Proofs.SingleTable.Alias
import SqlTree.Proofs.Freshness
