import SchemaDrift.Code.Annotation
import SchemaDrift.Code.ColumnType
import SchemaDrift.Code.Expression
import SchemaDrift.Code.File
import SchemaDrift.Code.Item
import SchemaDrift.Code.Literal
import SchemaDrift.Code.Parser
import SchemaDrift.Code.Pattern
import SchemaDrift.Code.Scan
import SchemaDrift.Code.Table
import SchemaDrift.Code.Token
import SchemaDrift.Code.Type
import SchemaDrift.CommandLine.Arguments
import SchemaDrift.CommandLine.Help
import SchemaDrift.CommandLine.Run
import SchemaDrift.Ddl.Column
import SchemaDrift.Ddl.Constraint
import SchemaDrift.Ddl.Document
import SchemaDrift.Ddl.Index
import SchemaDrift.Ddl.Name
import SchemaDrift.Ddl.Type
import SchemaDrift.Dialect.Basic
import SchemaDrift.Dialect.Canonical
import SchemaDrift.Dialect.Name
import SchemaDrift.Dialect.Render
import SchemaDrift.Dialect.Type
import SchemaDrift.Error
import SchemaDrift.Expression.Check
import SchemaDrift.Expression.Default
import SchemaDrift.Grammar.Ddl
import SchemaDrift.Grammar.Expr
import SchemaDrift.Grammar.Failure
import SchemaDrift.Grammar.Layout
import SchemaDrift.Grammar.Match
import SchemaDrift.Grammar.Rule
import SchemaDrift.Main
import SchemaDrift.Migration.Basic
import SchemaDrift.Migration.Source
import SchemaDrift.Plan.Basic
import SchemaDrift.Plan.Diff
import SchemaDrift.Plan.Emit
import SchemaDrift.Plan.Error
import SchemaDrift.Plan.Order
import SchemaDrift.Proofs.Ddl.RoundTrip
import SchemaDrift.Proofs.Ddl.Validated
import SchemaDrift.Proofs.Dialect.Accepted
import SchemaDrift.Proofs.Dialect.Canonical
import SchemaDrift.Proofs.Dialect.Congruence
import SchemaDrift.Proofs.Dialect.Idempotent
import SchemaDrift.Proofs.Dialect.Image
import SchemaDrift.Proofs.Dialect.Reached
import SchemaDrift.Proofs.Expression.Default
import SchemaDrift.Proofs.Migration.Generated
import SchemaDrift.Proofs.Migration.Loaded
import SchemaDrift.Proofs.Plan.Collision
import SchemaDrift.Proofs.Plan.ColumnDrop
import SchemaDrift.Proofs.Plan.Convergence
import SchemaDrift.Proofs.Plan.Cut
import SchemaDrift.Proofs.Plan.Due
import SchemaDrift.Proofs.Plan.Empty
import SchemaDrift.Proofs.Plan.Kept
import SchemaDrift.Proofs.Plan.KeyLoss
import SchemaDrift.Proofs.Plan.Lasting
import SchemaDrift.Proofs.Plan.Order
import SchemaDrift.Proofs.Plan.Owes
import SchemaDrift.Proofs.Plan.Part
import SchemaDrift.Proofs.Plan.Progress
import SchemaDrift.Proofs.Plan.Reference
import SchemaDrift.Proofs.Plan.Replay
import SchemaDrift.Proofs.Plan.Stage
import SchemaDrift.Proofs.Plan.Table
import SchemaDrift.Proofs.Result
import SchemaDrift.Proofs.Schema.Apply
import SchemaDrift.Proofs.Schema.Balance
import SchemaDrift.Proofs.Schema.Build
import SchemaDrift.Proofs.Schema.Change
import SchemaDrift.Proofs.Schema.Equivalence
import SchemaDrift.Proofs.Schema.Lookup
import SchemaDrift.Proofs.Schema.Matching
import SchemaDrift.Proofs.Schema.Rebuild
import SchemaDrift.Proofs.Schema.Run
import SchemaDrift.Proofs.Schema.Shape
import SchemaDrift.Proofs.Schema.Sound
import SchemaDrift.Proofs.Schema.Step
import SchemaDrift.Proofs.Schema.WellFormed
import SchemaDrift.Proofs.Text.Case
import SchemaDrift.Proofs.Type.Canonical
import SchemaDrift.Proofs.Type.Change
import SchemaDrift.Proofs.Type.Decimal
import SchemaDrift.Report.Json
import SchemaDrift.Report.Model
import SchemaDrift.Schema.Apply
import SchemaDrift.Schema.Column
import SchemaDrift.Schema.Constraint
import SchemaDrift.Schema.Draft
import SchemaDrift.Schema.Multiset
import SchemaDrift.Schema.Operation
import SchemaDrift.Schema.Table
import SchemaDrift.Settings.Basic
import SchemaDrift.Settings.Keys
import SchemaDrift.Text.Blank
import SchemaDrift.Text.Case
import SchemaDrift.Text.CaseTable
import SchemaDrift.Text.IdentifierTable
import SchemaDrift.Text.Position
import SchemaDrift.Toml.Document
import SchemaDrift.Toml.Value
import SchemaDrift.Type.Basic
import SchemaDrift.Type.Change
import SchemaDrift.Type.MySql
import SchemaDrift.Type.Native
import SchemaDrift.Type.Postgres
import SchemaDrift.Type.Spanner
import SchemaDrift.Workspace.Basic
import SchemaDrift.Workspace.Path
import SchemaDrift.Proofs.Plan.Creation
import SchemaDrift.Proofs.Plan.KeyRule
import SchemaDrift.Proofs.Dialect.Rendering
import SchemaDrift.Proofs.Plan.Rendering
import SchemaDrift.Proofs.Ddl.ConstraintNames
import SchemaDrift.Proofs.Plan.Difference
import SchemaDrift.Proofs.Plan.Deferral
import SchemaDrift.Proofs.Grammar.Layout
import SchemaDrift.Proofs.Grammar.Match
import SchemaDrift.Proofs.Grammar.Spared
import SchemaDrift.Proofs.Ddl.Corresponding
import SchemaDrift.Proofs.Ddl.Comment
import SchemaDrift.Proofs.Expression.Lasting
import SchemaDrift.Proofs.Expression.Respelling
import SchemaDrift.Proofs.Grammar.Literal
import SchemaDrift.Proofs.Grammar.Reading
import SchemaDrift.Proofs.Expression.Literal
import SchemaDrift.Proofs.Expression.Compound
import SchemaDrift.Proofs.Expression.Cast
import SchemaDrift.Proofs.Expression.Wrapping
import SchemaDrift.Proofs.Expression.Token
import SchemaDrift.Proofs.Expression.Check
import SchemaDrift.Proofs.Type.Length
import SchemaDrift.Proofs.Type.Modifier
import SchemaDrift.Proofs.Dialect.Frame
import SchemaDrift.Proofs.Ddl.InlineName
import SchemaDrift.Proofs.Schema.Acceptance
import SchemaDrift.Proofs.Grammar.Fuel
import SchemaDrift.Proofs.Grammar.Evaluation
import SchemaDrift.Proofs.Grammar.Word
import SchemaDrift.Proofs.Ddl.Identifier
import SchemaDrift.Proofs.Ddl.NativeType
import SchemaDrift.Proofs.Ddl.PrintedType
import SchemaDrift.Proofs.Schema.Commute
import SchemaDrift.Proofs.Schema.Frame
import SchemaDrift.Proofs.Schema.Undo
import SchemaDrift.Proofs.Schema.Key
import SchemaDrift.Proofs.Text.Position
import SchemaDrift.Proofs.Plan.Consent
import SchemaDrift.Proofs.Schema.Payload
import SchemaDrift.Proofs.Code.Annotation
import SchemaDrift.Proofs.Code.Setting
import SchemaDrift.Proofs.Code.Declaration
import SchemaDrift.Proofs.Code.Placement
import SchemaDrift.Proofs.Code.Extraction
import SchemaDrift.Proofs.Grammar.Start
import SchemaDrift.Proofs.Grammar.Listing
import SchemaDrift.Proofs.Grammar.Group
import SchemaDrift.Proofs.Grammar.DefaultTerm
import SchemaDrift.Proofs.Expression.Enclosed
import SchemaDrift.Proofs.Ddl.NameList
import SchemaDrift.Proofs.Ddl.PrintedConstraint
import SchemaDrift.Proofs.Ddl.PrintedColumn
import SchemaDrift.Proofs.Ddl.PrintedTable
import SchemaDrift.Proofs.Ddl.PrintedStatement
import SchemaDrift.Proofs.Ddl.PrintedDocument
import SchemaDrift.Proofs.Ddl.Declared
import SchemaDrift.Proofs.Ddl.ReadBack
import SchemaDrift.Proofs.Ddl.PrintedSchema
import SchemaDrift.Proofs.Ddl.Invariant
import SchemaDrift.Proofs.Ddl.ReadType
import SchemaDrift.Proofs.Ddl.ReadOption
import SchemaDrift.Proofs.Ddl.ReadTable
import SchemaDrift.Proofs.Ddl.Legible
