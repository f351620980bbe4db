import SchemaDrift.Schema.Operation
/-!
Applying operations to a schema. Each step is refused unless it fits the schema it meets and leaves
a schema that follows the rules.
-/

set_option autoImplicit false

namespace SchemaDrift

structure ApplyRules where
  -- Dropping a table drops its indexes too; otherwise they have to be dropped first.
  dropTableDropsIndexes : Bool := true
deriving DecidableEq, Repr

namespace Operation

def change? (draft : TableDraft) : Operation → Option TableDraft
  | addColumn _ column =>
    if draft.hasColumn column.name then none else some (draft.addColumn column)
  | dropColumn _ column => draft.removeColumn? column
  | alterColumnType _ source target =>
    if source.name = target.name then draft.replaceColumn? target else none
  | addConstraint _ constraint => some (draft.addConstraint constraint)
  | dropConstraint _ constraint => draft.removeConstraint? constraint
  | addIndex _ index => some (draft.addIndex index)
  | dropIndex _ index => draft.removeIndex? index.name
  | createTable _ | dropTable _ => some draft

def newReferences : Operation → List Reference
  | createTable table => table.foreignKeys.filterMap Constraint.reference?
  | addConstraint _ constraint => constraint.reference?.toList
  | _ => []

end Operation

namespace Schema

def applyCreate (schema : Schema) (table : Table) : Except SchemaError Schema :=
  let draft := schema.toDraft
  if draft.hasTable table.name then .error (.validation table.name .tableExists)
  else (draft.addTable { table.toDraft with ordinal := some draft.nextOrdinal }).build

def applyDrop (schema : Schema) (rules : ApplyRules) (name : String) : Except SchemaError Schema :=
  let blocking := if rules.dropTableDropsIndexes then none
    else (schema.table? name).bind (·.indexes.head?)
  match blocking, schema.toDraft.removeTable? name with
  | some index, _ => .error (.validation name (.indexInTheWay index.name))
  | none, some draft => draft.build
  | none, none => .error (.validation name .tableMissing)

def applyChange (schema : Schema) (operation : Operation) : Except SchemaError Schema :=
  match schema.toDraft.table? operation.table with
  | none => .error (.validation operation.table .tableMissing)
  | some table => match operation.change? table with
    | none => .error (.validation operation.table (.inapplicable operation.text))
    | some changed => (schema.toDraft.setTable operation.table changed).build

def isKeyed (schema : Schema) (reference : Reference) : Bool :=
  (schema.table? reference.table).any (·.hasKey reference.columns)

def checkKeys (schema : Schema) (operation : Operation) : Except SchemaError Unit :=
  match operation.newReferences.find? (!schema.isKeyed ·) with
  | some reference =>
    .error (.validation operation.table (.unkeyedReference reference.table reference.columns))
  | none => .ok ()

def applyOne (schema : Schema) (rules : ApplyRules) (operation : Operation) :
    Except SchemaError Schema := do
  let changed ← match operation with
    | .createTable table => schema.applyCreate table
    | .dropTable name => schema.applyDrop rules name
    | _ => schema.applyChange operation
  changed.checkKeys operation
  .ok changed

def apply (schema : Schema) (rules : ApplyRules) : List Operation → Except SchemaError Schema
  | [] => .ok schema
  | operation :: operations => do (← schema.applyOne rules operation).apply rules operations

end Schema

end SchemaDrift
