import SchemaReview.Main
import SchemaReview.Pattern.Runs
import SchemaReview.Proofs.Detector.CascadeCycle
import SchemaReview.Proofs.Source.Comment
import SchemaReview.Proofs.Pattern.Match
import SchemaReview.Proofs.Scope.Events
import SchemaReview.Proofs.Scope.RoundTrip
import SchemaReview.Proofs.Review
import SchemaReview.Proofs.Catalog.TableKeys
import SchemaReview.Proofs.Pattern.Placement
import SchemaReview.Proofs.Text.FoldCase
import SchemaReview.Proofs.Pattern.FoldCase
import SchemaReview.Proofs.Ddl.FoldCase
import SchemaReview.Proofs.Scope.FoldCase
import SchemaReview.Proofs.Detector.FoldCase
import SchemaReview.Proofs.Rearrangement
import SchemaReview.Proofs.Pattern.Verbatim
import SchemaReview.Proofs.Source.Pieces
import SchemaReview.Proofs.Ddl.Pieces
import SchemaReview.Proofs.Scope.Pieces
import SchemaReview.Proofs.Detector.Rearranged
import SchemaReview.Proofs.Detector.StatementOrder
import SchemaReview.Proofs.Catalog.Growth
import SchemaReview.Proofs.Source.Statement
import SchemaReview.Proofs.Pattern.Occurrence
import SchemaReview.Proofs.Ddl.Name
import SchemaReview.Proofs.Ddl.ForeignKey
import SchemaReview.Proofs.Catalog.ForeignKeyCount
import SchemaReview.Proofs.Detector.CascadeAttribution
import SchemaReview.Proofs.Detector.CascadeIsolation
import SchemaReview.Proofs.Settings
import SchemaReview.Proofs.Source.Line
import SchemaReview.Proofs.Source.Append
import SchemaReview.Proofs.Source.Padding
import SchemaReview.Proofs.Scope.Append
import SchemaReview.Proofs.Scope.Shift
import SchemaReview.Proofs.Ddl.Padding
import SchemaReview.Proofs.Detector.Shift
import SchemaReview.Proofs.Text.Slice
import SchemaReview.Proofs.Source.Span
import SchemaReview.Proofs.Pattern.Extent
import SchemaReview.Proofs.Detector.Positions
import SchemaReview.Proofs.Detector.Spans
import SchemaReview.Proofs.Checked.Clause
import SchemaReview.Proofs.Checked.Scan
import SchemaReview.Proofs.Checked.Detector
import SchemaReview.Proofs.Command.Check
import SchemaReview.Proofs.Detector.UndefinedRelation
import SchemaReview.Proofs.Pattern.Walk
import SchemaReview.Proofs.Ddl.Comparison
import SchemaReview.Proofs.Ddl.BoundedRange
import SchemaReview.Proofs.Ddl.Contradiction
import SchemaReview.Proofs.Detector.IndexDrop
import SchemaReview.Proofs.Ddl.Column
import SchemaReview.Proofs.Ddl.Index
import SchemaReview.Proofs.Source.Segment
import SchemaReview.Proofs.Source.Separator
import SchemaReview.Proofs.Source.DollarBody
import SchemaReview.Proofs.Source.Column
import SchemaReview.Proofs.Ddl.Literal
import SchemaReview.Proofs.Scope.Literal
import SchemaReview.Proofs.Detector.DefaultLength
import SchemaReview.Proofs.Source.WrittenLine
import SchemaReview.Proofs.Report.ShownLine
import SchemaReview.Proofs.Report.Underline
import SchemaReview.Proofs.Catalog.Column
import SchemaReview.Proofs.Detector.NullableKey
import SchemaReview.Proofs.Detector.SelfReference
import SchemaReview.Proofs.Ddl.DeclaredType
import SchemaReview.Proofs.Detector.TypeConflict
import SchemaReview.Proofs.Scope.Mode
import SchemaReview.Proofs.Ddl.CheckClause
import SchemaReview.Proofs.Pattern.Numbering
import SchemaReview.Proofs.Ddl.Reference
import SchemaReview.Proofs.Detector.Name
import SchemaReview.Proofs.Document.Content
import SchemaReview.Proofs.Document.Line
import SchemaReview.Proofs.Document.Written
import SchemaReview.Proofs.Document.RoundTrip
import SchemaReview.Proofs.Pattern.Seek
import SchemaReview.Proofs.Scope.Loop
import SchemaReview.Proofs.Source.LineIndex
