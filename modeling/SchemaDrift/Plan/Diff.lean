import SchemaDrift.Dialect.Canonical
import SchemaDrift.Plan.Basic
import SchemaDrift.Plan.Error
import SchemaDrift.Plan.Order
/-!
The difference of two schemas as a plan that turns the one into the other.
-/

set_option autoImplicit false

namespace SchemaDrift

structure Stages where
  foreignKeyDrops : List Operation := []
  drops : List Operation := []
  tableDrops : List Operation := []
  columnChanges : List Operation := []
  additions : List Operation := []
  creations : List Operation := []
  foreignKeyAdditions : List Operation := []
deriving DecidableEq, Repr

namespace Stages

def append (a b : Stages) : Stages where
  foreignKeyDrops := a.foreignKeyDrops ++ b.foreignKeyDrops
  drops := a.drops ++ b.drops
  tableDrops := a.tableDrops ++ b.tableDrops
  columnChanges := a.columnChanges ++ b.columnChanges
  additions := a.additions ++ b.additions
  creations := a.creations ++ b.creations
  foreignKeyAdditions := a.foreignKeyAdditions ++ b.foreignKeyAdditions

instance : Append Stages := ⟨append⟩

def concat (stages : List Stages) : Stages := stages.foldr append {}

-- Keys of existing tables are added before new tables are created, whose foreign keys may point
-- at them.
def operations (stages : Stages) : List Operation :=
  stages.foreignKeyDrops ++ stages.drops ++ stages.tableDrops ++ stages.columnChanges
    ++ stages.additions ++ stages.creations ++ stages.foreignKeyAdditions

end Stages

-- The members of each list without a partner in the other; a member has at most one partner.
def unmatched {α : Type} (same : α → α → Bool) : List α → List α → List α × List α
  | [], new => ([], new)
  | a :: old, new => match eraseFirst? (same a) new with
    | some rest => unmatched same old rest
    | none =>
      let (removed, added) := unmatched same old new
      (a :: removed, added)

namespace Diff

def columnDrops (current desired : Table) : List Operation :=
  (current.columns.filter (!desired.hasColumn ·.name)).map (.dropColumn desired.name ·.name)

def columnAdditions (current desired : Table) : List Operation :=
  (desired.columns.filter (!current.hasColumn ·.name)).map (.addColumn desired.name)

def columnChange (dialect : Dialect) (current : Table) (table : String) (column : Column) :
    Except MigrationError (List Operation) :=
  match current.column? column.name with
  | none => .ok []
  | some old =>
    if old.sameDefinition column then .ok []
    else if old.type ≠ column.type && !dialect.supportsTypeChange old.type column.type then
      .error (.typeChange dialect table column.name (dialect.typeName old.type)
        (dialect.typeName column.type))
    else .ok [.alterColumnType table old column]

def columnStage (dialect : Dialect) (current desired : Table) :
    Except MigrationError (List Operation) := do
  let changes ← desired.columns.mapM (columnChange dialect current desired.name)
  .ok (columnDrops current desired ++ changes.flatten ++ columnAdditions current desired)

def keyStages (dialect : Dialect) (current desired : Table) : Except MigrationError Stages :=
  if current.primaryKeyColumns = desired.primaryKeyColumns then .ok {}
  else if dialect.supportsPrimaryKeyChange then .ok
    { drops := current.primaryKey.toList.map (.dropConstraint desired.name)
      additions := desired.primaryKey.toList.map (.addConstraint desired.name) }
  else .error
    (.keyChange dialect desired.name current.primaryKeyColumns desired.primaryKeyColumns)

def constraintStages (current desired : Table) : Stages :=
  let (removed, added) :=
    unmatched Constraint.structurallyEq current.constraints desired.constraints
  let drop := Operation.dropConstraint desired.name
  let add := Operation.addConstraint desired.name
  { foreignKeyDrops := (removed.filter Constraint.isForeignKey).map drop
    drops := (removed.filter (!·.isForeignKey)).map drop
    additions := (added.filter (!·.isForeignKey)).map add
    foreignKeyAdditions := (added.filter Constraint.isForeignKey).map add }

def indexStages (current desired : Table) : Stages :=
  let (removed, added) := unmatched Index.structurallyEq current.indexes desired.indexes
  { drops := removed.map (.dropIndex desired.name)
    additions := added.map (.addIndex desired.name) }

def tableStages (dialect : Dialect) (current desired : Table) : Except MigrationError Stages := do
  let columnChanges ← columnStage dialect current desired
  let keys ← keyStages dialect current desired
  .ok ({ columnChanges } ++ keys ++ constraintStages current desired ++ indexStages current desired)

-- The stages that drop a table, of which `dropped` says whether it is dropped: foreign keys into
-- other dropped tables go first, and so do indexes where the dialect keeps them.
def dropStages (dialect : Dialect) (dropped : String → Bool) (table : Table) : Stages where
  foreignKeyDrops :=
    (table.foreignKeys.filter fun key =>
      key.reference?.any fun r => r.table ≠ table.name && dropped r.table).map
        (.dropConstraint table.name)
  drops :=
    if dialect.dropsIndexesWithTable then [] else table.indexes.map (.dropIndex table.name)
  tableDrops := [.dropTable table.name]

def creationStages (tables : List Table) : Stages :=
  let order := creationOrder tables
  { creations := order.tables.map .createTable, foreignKeyAdditions := order.deferred }

def commonStages (dialect : Dialect) (source destination : Schema) :
    Except MigrationError (List Stages) :=
  source.tables.mapM fun desired => match destination.table? desired.name with
    | some current => tableStages dialect current desired
    | none => .ok {}

def stages (dialect : Dialect) (source destination : Schema) : Except MigrationError Stages := do
  let dropped (name : String) := destination.hasTable name && !source.hasTable name
  let drops := (destination.tables.filter (dropped ·.name)).map (dropStages dialect dropped)
  let common ← commonStages dialect source destination
  let created := creationStages (source.tables.filter (!destination.hasTable ·.name))
  .ok (created ++ .concat drops ++ .concat common)

end Diff

/-- The plan that turns `destination` into `source`. Both are brought into canonical form first, so
that what the dialect cannot store makes no difference. -/
def diff (dialect : Dialect) (source destination : Schema) : Except MigrationError Plan := do
  let source ← (dialect.canonicalize source).mapError .schema
  let destination ← (dialect.canonicalize destination).mapError .schema
  .ok { operations := (← Diff.stages dialect source destination).operations }

end SchemaDrift
