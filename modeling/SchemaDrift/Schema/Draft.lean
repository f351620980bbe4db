import SchemaDrift.Error
import SchemaDrift.Schema.Table
/-!
Drafts of tables and schemas, which may break any rule, and the checks that turn them into tables
and schemas.
-/

set_option autoImplicit false

namespace SchemaDrift

structure TableDraft where
  name : String
  columns : List Column := []
  primaryKeys : List Constraint := []
  indexes : List Index := []
  constraints : List Constraint := []
  options : List (String × String) := []
  -- A fixed ordinal; otherwise the position in the schema counts.
  ordinal : Option Nat := none
deriving DecidableEq, Repr

def Table.toDraft (table : Table) : TableDraft where
  name := table.name
  columns := table.columns
  primaryKeys := table.primaryKey.toList
  indexes := table.indexes
  constraints := table.constraints
  options := table.options
  ordinal := some table.ordinal

namespace TableDraft

def addColumn (draft : TableDraft) (column : Column) : TableDraft :=
  { draft with columns := draft.columns ++ [column] }

def addConstraint (draft : TableDraft) (constraint : Constraint) : TableDraft :=
  if constraint.isPrimaryKey then { draft with primaryKeys := draft.primaryKeys ++ [constraint] }
  else { draft with constraints := draft.constraints ++ [constraint] }

def addConstraints (draft : TableDraft) (constraints : List Constraint) : TableDraft :=
  constraints.foldl addConstraint draft

def addIndex (draft : TableDraft) (index : Index) : TableDraft :=
  { draft with indexes := draft.indexes ++ [index] }

def addOption (draft : TableDraft) (key value : String) : TableDraft :=
  { draft with options := draft.options ++ [(key, value)] }

def hasColumn (draft : TableDraft) (name : String) : Bool := draft.columns.any (·.name = name)

def hasIndex (draft : TableDraft) (name : String) : Bool := draft.indexes.any (·.name = name)

def replaceFirst (column : Column) : List Column → List Column
  | [] => []
  | c :: columns =>
    if c.name = column.name then column :: columns else c :: replaceFirst column columns

def replaceColumn? (draft : TableDraft) (column : Column) : Option TableDraft :=
  if draft.hasColumn column.name then
    some { draft with columns := replaceFirst column draft.columns }
  else none

def removeColumn? (draft : TableDraft) (name : String) : Option TableDraft :=
  if draft.hasColumn name then
    some { draft with columns := draft.columns.filter (·.name ≠ name) }
  else none

def removeConstraint? (draft : TableDraft) (constraint : Constraint) : Option TableDraft :=
  let same (c : Constraint) := c.structurallyEq constraint
  if constraint.isPrimaryKey then
    (eraseFirst? same draft.primaryKeys).map fun keys => { draft with primaryKeys := keys }
  else
    (eraseFirst? same draft.constraints).map fun rest => { draft with constraints := rest }

def removeIndex? (draft : TableDraft) (name : String) : Option TableDraft :=
  if draft.hasIndex name then
    some { draft with indexes := draft.indexes.filter (·.name ≠ name) }
  else none

/-! ### What is wrong with a draft -/

def columnFault? (seen : List String) : List Column → Option Fault
  | [] => none
  | column :: columns =>
    if column.name = "" then some .emptyColumnName
    else if column.name ∈ seen then some (.duplicateColumn column.name)
    else columnFault? (column.name :: seen) columns

def memberFault? (columns : List Column) (owner : String) (seen : List String) :
    List String → Option Fault
  | [] => none
  | name :: names =>
    if !columns.any (·.name = name) then some (.unknownColumn owner name)
    else if name ∈ seen then some (.repeatedColumn owner name)
    else memberFault? columns owner (name :: seen) names

def listFault? (columns : List Column) (owner : String) (names : List String) : Option Fault :=
  if names = [] then some (.emptyColumnList owner) else memberFault? columns owner [] names

def constraintFault? (columns : List Column) (constraint : Constraint) : Option Fault :=
  let list := match constraint.kind with
    | .check _ =>
      if constraint.columns = [] then none
      else listFault? columns constraint.kind.name constraint.columns
    | kind => listFault? columns kind.name constraint.columns
  list.or <| constraint.reference?.bind fun reference =>
    if reference.columns.length = constraint.columns.length then none
    else some (.referenceArity constraint.columns reference.columns.length reference.table)

def indexFault? (columns : List Column) (seen : List String) : List Index → Option Fault
  | [] => none
  | index :: indexes =>
    if index.name ∈ seen then some (.duplicateIndex index.name)
    else (listFault? columns s!"index `{index.name}`" index.columnNames).or
      (indexFault? columns (index.name :: seen) indexes)

def primaryKeyFault? (columns : List Column) : List Constraint → Option Fault
  | [] => none
  | [key] => listFault? columns "primary key" key.columns
  | _ => some .severalPrimaryKeys

-- The first rule that the draft breaks. References to other tables are not looked at.
def fault? (draft : TableDraft) : Option Fault :=
  if draft.name = "" then some .emptyTableName
  else if draft.columns = [] then some .noColumns
  else (columnFault? [] draft.columns).or <|
    (primaryKeyFault? draft.columns draft.primaryKeys).or <|
    (draft.constraints.findSome? (constraintFault? draft.columns)).or <|
    indexFault? draft.columns [] draft.indexes

-- The table of a draft without faults: the columns of the primary key refuse NULL.
def toTable (draft : TableDraft) (position : Nat) : Table :=
  let key := draft.primaryKeys.head?
  let keyColumns := key.elim [] Constraint.columns
  { name := draft.name
    columns := draft.columns.map fun column =>
      if column.name ∈ keyColumns then { column with nullable := false } else column
    primaryKey := key
    indexes := draft.indexes
    constraints := draft.constraints
    options := draft.options
    ordinal := draft.ordinal.getD position }

def build (draft : TableDraft) (position : Nat) : Except SchemaError Table :=
  match draft.fault? with
  | some fault => .error (.validation draft.name fault)
  | none => .ok (draft.toTable position)

end TableDraft

structure SchemaDraft where
  tables : List TableDraft := []
deriving DecidableEq, Repr

def Schema.toDraft (schema : Schema) : SchemaDraft := { tables := schema.tables.map Table.toDraft }

namespace SchemaDraft

def addTable (draft : SchemaDraft) (table : TableDraft) : SchemaDraft :=
  { draft with tables := draft.tables ++ [table] }

def hasTable (draft : SchemaDraft) (name : String) : Bool := draft.tables.any (·.name = name)

def table? (draft : SchemaDraft) (name : String) : Option TableDraft :=
  draft.tables.find? (·.name = name)

def replaceFirst (name : String) (table : TableDraft) : List TableDraft → List TableDraft
  | [] => []
  | t :: tables => if t.name = name then table :: tables else t :: replaceFirst name table tables

def setTable (draft : SchemaDraft) (name : String) (table : TableDraft) : SchemaDraft :=
  { draft with tables := replaceFirst name table draft.tables }

def removeTable? (draft : SchemaDraft) (name : String) : Option SchemaDraft :=
  if draft.hasTable name then
    some { draft with tables := draft.tables.filter (·.name ≠ name) }
  else none

def ordinalBound (position : Nat) : List TableDraft → Nat
  | [] => 0
  | table :: tables =>
    max (table.ordinal.getD position + 1) (ordinalBound (position + 1) tables)

-- One more than the greatest ordinal, where a table without one counts by its position.
def nextOrdinal (draft : SchemaDraft) : Nat := ordinalBound 0 draft.tables

def buildTables (seen : List String) (position : Nat) :
    List TableDraft → Except SchemaError (List Table)
  | [] => .ok []
  | draft :: drafts =>
    if draft.name ∈ seen then .error (.validation draft.name .duplicateTable)
    else do
      let table ← draft.build position
      let tables ← buildTables (draft.name :: seen) (position + 1) drafts
      .ok (table :: tables)

def insertByOrdinal (table : Table) : List Table → List Table
  | [] => [table]
  | t :: tables =>
    if table.ordinal ≤ t.ordinal then table :: t :: tables else t :: insertByOrdinal table tables

def sortByOrdinal (tables : List Table) : List Table := tables.foldr insertByOrdinal []

def referenceFault? (tables : List Table) (reference : Reference) : Option Fault :=
  match tables.find? (·.name = reference.table) with
  | none => some (.unknownTarget reference.table)
  | some target =>
    (reference.columns.find? (!target.hasColumn ·)).map (.unknownTargetColumn reference.table)

def tableReferenceFault? (tables : List Table) (table : Table) : Option Fault :=
  (table.foreignKeys.filterMap Constraint.reference?).findSome? (referenceFault? tables)

def checkReferences (tables : List Table) : Except SchemaError Unit :=
  match tables.findSome? fun t => (tableReferenceFault? tables t).map (t.name, ·) with
  | some (name, fault) => .error (.validation name fault)
  | none => .ok ()

def build (draft : SchemaDraft) : Except SchemaError Schema := do
  let tables := sortByOrdinal (← buildTables [] 0 draft.tables)
  checkReferences tables
  .ok { tables }

end SchemaDraft

def Schema.mapColumns (schema : Schema) (f : Table → Column → Except SchemaError Column) :
    Except SchemaError Schema := do
  let tables ← schema.tables.mapM fun table => do
    let columns ← table.columns.mapM (f table)
    .ok { table.toDraft with columns }
  SchemaDraft.build { tables }

end SchemaDrift
