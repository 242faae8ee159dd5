import SchemaDiagram.CommandLine.Host
import SchemaDiagram.CommandLine.Options
import SchemaDiagram.CommandLine.Run
import SchemaDiagram.Decimal.Basic
import SchemaDiagram.Decimal.Nearest
import SchemaDiagram.Decimal.Notation
import SchemaDiagram.Decimal.Shortest
import SchemaDiagram.Diagram
import SchemaDiagram.Float64
import SchemaDiagram.FontMetrics
import SchemaDiagram.Json.Basic
import SchemaDiagram.Json.Encoding
import SchemaDiagram.Layout.Anchors
import SchemaDiagram.Layout.Arrangement
import SchemaDiagram.Layout.Basic
import SchemaDiagram.Layout.Box
import SchemaDiagram.Layout.Config
import SchemaDiagram.Layout.Graph
import SchemaDiagram.Layout.Layers
import SchemaDiagram.Layout.Origin
import SchemaDiagram.Layout.Placement
import SchemaDiagram.Layout.Relaxation
import SchemaDiagram.Layout.Separation
import SchemaDiagram.Layout.Settings
import SchemaDiagram.Layout.TableSize
import SchemaDiagram.Main
import SchemaDiagram.NameMap
import SchemaDiagram.Proofs.FittedView
import SchemaDiagram.Proofs.HitTests
import SchemaDiagram.Proofs.Layout.Adjacency
import SchemaDiagram.Proofs.Layout.Apart
import SchemaDiagram.Proofs.Layout.Bounds
import SchemaDiagram.Proofs.Layout.Canvas
import SchemaDiagram.Proofs.Layout.Crossings
import SchemaDiagram.Proofs.Layout.Dragging
import SchemaDiagram.Proofs.Layout.Edges
import SchemaDiagram.Proofs.Layout.Fitting
import SchemaDiagram.Proofs.Layout.Frame
import SchemaDiagram.Proofs.Layout.Layering
import SchemaDiagram.Proofs.Layout.LeastCorrection
import SchemaDiagram.Proofs.Layout.LeftToRight
import SchemaDiagram.Proofs.Layout.References
import SchemaDiagram.Proofs.Layout.Spacing
import SchemaDiagram.Proofs.Layout.Spread
import SchemaDiagram.Proofs.Layout.Stacking
import SchemaDiagram.Proofs.LetterCase
import SchemaDiagram.Proofs.ListOrder
import SchemaDiagram.Proofs.RelationshipKey
import SchemaDiagram.Proofs.Scalar
import SchemaDiagram.Proofs.Sql.AddedConstraint
import SchemaDiagram.Proofs.Sql.Agreement
import SchemaDiagram.Proofs.Sql.Boundaries
import SchemaDiagram.Proofs.Sql.BoundedNesting
import SchemaDiagram.Proofs.Sql.Checked.Clauses
import SchemaDiagram.Proofs.Sql.Checked.ColumnTypes
import SchemaDiagram.Proofs.Sql.Checked.Progress
import SchemaDiagram.Proofs.Sql.Checked.Scripts
import SchemaDiagram.Proofs.Sql.ClauseText
import SchemaDiagram.Proofs.Sql.Closed
import SchemaDiagram.Proofs.Sql.ColumnLists
import SchemaDiagram.Proofs.Sql.ColumnParts
import SchemaDiagram.Proofs.Sql.ColumnText
import SchemaDiagram.Proofs.Sql.Comments
import SchemaDiagram.Proofs.Sql.Concatenation
import SchemaDiagram.Proofs.Sql.ConstrainedTable
import SchemaDiagram.Proofs.Sql.Declared
import SchemaDiagram.Proofs.Sql.Deduplication
import SchemaDiagram.Proofs.Sql.Flags
import SchemaDiagram.Proofs.Sql.ForeignKeys
import SchemaDiagram.Proofs.Sql.Identities
import SchemaDiagram.Proofs.Sql.Interchange
import SchemaDiagram.Proofs.Sql.LetterCase.Bodies
import SchemaDiagram.Proofs.Sql.LetterCase.Scripts
import SchemaDiagram.Proofs.Sql.LongestName
import SchemaDiagram.Proofs.Sql.Mixtures
import SchemaDiagram.Proofs.Sql.Nesting
import SchemaDiagram.Proofs.Sql.NormalTypes
import SchemaDiagram.Proofs.Sql.PartedColumn
import SchemaDiagram.Proofs.Sql.Phrases
import SchemaDiagram.Proofs.Sql.PlainParts
import SchemaDiagram.Proofs.Sql.Quotings
import SchemaDiagram.Proofs.Sql.Reading
import SchemaDiagram.Proofs.Sql.ReferentialActions
import SchemaDiagram.Proofs.Sql.Regions
import SchemaDiagram.Proofs.Sql.RoundTrip
import SchemaDiagram.Proofs.Sql.Scanning
import SchemaDiagram.Proofs.Sql.SegmentKinds
import SchemaDiagram.Proofs.Sql.Splitting
import SchemaDiagram.Proofs.Sql.TokenLocality
import SchemaDiagram.Proofs.Sql.TypeArguments
import SchemaDiagram.Proofs.Sql.Types
import SchemaDiagram.Proofs.Sql.Uncommented
import SchemaDiagram.Proofs.Sql.Vocabulary
import SchemaDiagram.Proofs.UpperCase
import SchemaDiagram.Proofs.View
import SchemaDiagram.Scalar
import SchemaDiagram.Schema
import SchemaDiagram.Sql.Body
import SchemaDiagram.Sql.Clause
import SchemaDiagram.Sql.ColumnType
import SchemaDiagram.Sql.Comment
import SchemaDiagram.Sql.Reader
import SchemaDiagram.Sql.Scan
import SchemaDiagram.Sql.Script
import SchemaDiagram.Sql.Token
import SchemaDiagram.Text.Alphanumeric
import SchemaDiagram.Text.Basic
import SchemaDiagram.Text.Blank
import SchemaDiagram.Text.Columns
import SchemaDiagram.Text.Emoji
import SchemaDiagram.Text.EmojiSequence
import SchemaDiagram.Text.Ligature
import SchemaDiagram.Text.Upper
import SchemaDiagram.Text.Wide
import SchemaDiagram.Text.ZeroWidth
import SchemaDiagram.Toml.Document
import SchemaDiagram.Toml.Moment
import SchemaDiagram.Toml.Number
import SchemaDiagram.Toml.Quoted
import SchemaDiagram.Toml.Reading
import SchemaDiagram.Toml.Value
import SchemaDiagram.View
