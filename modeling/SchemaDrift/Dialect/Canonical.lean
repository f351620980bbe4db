import SchemaDrift.Dialect.Type
import SchemaDrift.Expression.Default
import SchemaDrift.Schema.Apply
/-!
What a dialect can represent, and the canonical image of a schema: the schema that is read back
after writing it.
-/

set_option autoImplicit false

namespace SchemaDrift.Dialect

def normalizeDefault : Dialect → List Char → Option String
  | postgres, e => (Default.normalize e).map fun n => String.ofList (Default.stripLiteralCast n)
  | _, e => (Default.normalize e).map String.ofList

def supportsPrimaryKeyChange : Dialect → Bool
  | spanner => false
  | _ => true

def dropsIndexesWithTable : Dialect → Bool
  | spanner => false
  | _ => true

def applyRules (dialect : Dialect) : ApplyRules :=
  { dropTableDropsIndexes := dialect.dropsIndexesWithTable }

def refusal? (constraint : Constraint) : Option String :=
  match constraint.kind with
  | .unique => some "UNIQUE constraint"
  | .foreignKey reference =>
    if reference.onUpdate.isSome then some "ON UPDATE foreign key action"
    else match reference.onDelete with
      | none | some .cascade | some .noAction => none
      | some action => some ("ON DELETE " ++ action.sql)
  | _ => none

def checkTable : Dialect → Table → Except SchemaError Unit
  | spanner, table => match table.constraints.findSome? refusal? with
    | some construct => .error (.unsupported .spanner construct)
    | none => .ok ()
  | _, _ => .ok ()

def generates : Dialect → ColumnType → Bool
  | postgres, type => (Postgres.serial? type).isSome
  | mysql, type => !type.array && type.base.family = .integer
  | spanner, _ => false

def generatedColumn (dialect : Dialect) (type : ColumnType) : SchemaError :=
  match dialect with
  | spanner => .unsupported .spanner "auto-increment column"
  | _ => .unsupported dialect ("auto-increment " ++ type.text ++ " column")

def checkColumn (dialect : Dialect) (column : Column) : Except SchemaError Unit :=
  if column.autoIncrement && !dialect.generates column.type then
    .error (dialect.generatedColumn column.type)
  else .ok ()

def canonicalColumn (dialect : Dialect) (column : Column) : Except SchemaError Column := do
  dialect.checkColumn column
  let type ← dialect.canonicalType column.type
  let default := column.default.bind fun e => dialect.normalizeDefault e.toList
  .ok { column with type, default }

def canonicalColumns (dialect : Dialect) (schema : Schema) : Except SchemaError Schema := do
  schema.tables.forM dialect.checkTable
  schema.mapColumns fun _ column => dialect.canonicalColumn column

-- In MySQL an ascending unique index is a unique constraint of the same name.
def foldUniqueIndex (draft : TableDraft) (index : Index) : TableDraft :=
  if index.unique && index.columns.all (!·.descending) then
    ((draft.removeIndex? index.name).getD draft).addConstraint
      ((Constraint.unique index.columnNames).named index.name)
  else draft

-- In Spanner a unique constraint is a unique index of the same name.
def foldUniqueConstraint (table : String) (draft : TableDraft) (constraint : Constraint) :
    TableDraft :=
  if constraint.kind = .unique then
    ((draft.removeConstraint? constraint).getD draft).addIndex
      { Index.ascending (constraint.effectiveName table) constraint.columns with unique := true }
  else draft

def foldUniqueIndexes (schema : Schema) : Except SchemaError Schema :=
  SchemaDraft.build
    { tables := schema.tables.map fun table => table.indexes.foldl foldUniqueIndex table.toDraft }

def foldUniqueConstraints (schema : Schema) : Except SchemaError Schema :=
  SchemaDraft.build
    { tables := schema.tables.map fun table =>
        table.constraints.foldl (foldUniqueConstraint table.name) table.toDraft }

def canonicalize (dialect : Dialect) (schema : Schema) : Except SchemaError Schema := do
  match dialect with
  | postgres => canonicalColumns postgres schema
  | mysql => foldUniqueIndexes (← canonicalColumns mysql schema)
  | spanner => canonicalColumns spanner (← foldUniqueConstraints schema)

end SchemaDrift.Dialect
