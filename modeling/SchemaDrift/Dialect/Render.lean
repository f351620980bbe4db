import SchemaDrift.Dialect.Canonical
import SchemaDrift.Dialect.Name
/-!
Statements: how operations and whole schemas are written in a dialect.
-/

set_option autoImplicit false

namespace SchemaDrift

def script (statements : List String) : String :=
  "\n".intercalate (statements.map (· ++ ";\n"))

namespace Schema

-- Creates the tables in their order. A foreign key into a table that comes later is left out of
-- its own table and added after the last one.
def creationsFrom (created : List String) : List Table → List Operation × List Operation
  | [] => ([], [])
  | table :: tables =>
    let created := table.name :: created
    let forward (constraint : Constraint) :=
      constraint.reference?.any fun reference => reference.table ∉ created
    let (creations, additions) := creationsFrom created tables
    (.createTable (table.retainConstraints (!forward ·)) :: creations,
      (table.foreignKeys.filter forward).map (.addConstraint table.name) ++ additions)

def creation (schema : Schema) : List Operation :=
  let (creations, additions) := creationsFrom [] schema.tables
  creations ++ additions

end Schema

namespace Dialect

def indexColumns (dialect : Dialect) (columns : List IndexColumn) : String :=
  ", ".intercalate <| columns.map fun column =>
    dialect.quote column.name ++ (if column.descending then " DESC" else "")

def actionSql (event : String) (action : Option ReferentialAction) : String :=
  match action with
  | some action => s!" ON {event} " ++ action.sql
  | none => ""

def constraintBody (dialect : Dialect) (constraint : Constraint) : String :=
  let columns := dialect.quoteList constraint.columns
  match constraint.kind with
  | .primaryKey => s!"PRIMARY KEY ({columns})"
  | .unique => s!"UNIQUE ({columns})"
  | .check expression => s!"CHECK ({expression})"
  | .foreignKey reference =>
    s!"FOREIGN KEY ({columns}) REFERENCES " ++ dialect.quote reference.table
      ++ " (" ++ dialect.quoteList reference.columns ++ ")"
      ++ actionSql "DELETE" reference.onDelete ++ actionSql "UPDATE" reference.onUpdate

-- The name a constraint is written with, so that it can be dropped by it. The name of a primary
-- key is kept by PostgreSQL only.
def writtenName? (dialect : Dialect) (table : String) (constraint : Constraint) : Option String :=
  if constraint.isPrimaryKey then
    if dialect = postgres then constraint.name else none
  else some (constraint.effectiveName table)

def tableConstraint (dialect : Dialect) (table : String) (constraint : Constraint) : String :=
  match dialect.writtenName? table constraint with
  | some name => "CONSTRAINT " ++ dialect.quote name ++ " " ++ dialect.constraintBody constraint
  | none => dialect.constraintBody constraint

def columnTypeSql (dialect : Dialect) (column : Column) : Except SchemaError String :=
  if dialect = postgres && column.autoIncrement then
    match Postgres.serial? column.type with
    | some serial => .ok serial
    | none => .error (dialect.generatedColumn column.type)
  else dialect.typeSql column.type

-- MySQL takes only literals without parentheses, and Spanner no default at all.
def defaultSql (dialect : Dialect) (expression : String) : String :=
  let bare := match dialect with
    | postgres => true
    | mysql => Default.isLiteral expression.toList
    | spanner => false
  if bare then expression else s!"({expression})"

def columnDefinition (dialect : Dialect) (column : Column) : Except SchemaError String := do
  let name := dialect.quote column.name
  match column.rawDefinition with
  | some raw => .ok (name ++ " " ++ raw)
  | none =>
    let type ← dialect.columnTypeSql column
    let default := match column.default with
      | some expression => " DEFAULT " ++ dialect.defaultSql expression
      | none => ""
    .ok <| name ++ " " ++ type ++ (if column.nullable then "" else " NOT NULL") ++ default
      ++ (if dialect = mysql && column.autoIncrement then " AUTO_INCREMENT" else "")

def createIndex (dialect : Dialect) (table : String) (index : Index) : String :=
  "CREATE " ++ (if index.unique then "UNIQUE " else "") ++ "INDEX " ++ dialect.quote index.name
    ++ " ON " ++ dialect.quote table ++ " (" ++ dialect.indexColumns index.columns ++ ")"

-- MySQL lists indexes that are not unique in the table itself.
def isInline (dialect : Dialect) (index : Index) : Bool := dialect = mysql && !index.unique

def inlineIndex (dialect : Dialect) (index : Index) : String :=
  "KEY " ++ dialect.quote index.name ++ " (" ++ dialect.indexColumns index.columns ++ ")"

def tableLines (dialect : Dialect) (table : Table) : Except SchemaError (List String) := do
  let columns ← table.columns.mapM dialect.columnDefinition
  let key := if dialect = spanner then [] else table.primaryKey.toList
  .ok <| columns ++ (key ++ table.constraints).map (dialect.tableConstraint table.name)
    ++ (table.indexes.filter dialect.isInline).map dialect.inlineIndex

def tableSuffix : Dialect → Table → String
  | postgres, _ => ""
  | mysql, table =>
    if table.options.isEmpty then " ENGINE=InnoDB DEFAULT CHARSET=utf8mb4"
    else " " ++ " ".intercalate (table.options.map fun (key, value) => key ++ "=" ++ value)
  | spanner, table => " PRIMARY KEY (" ++ spanner.quoteList table.primaryKeyColumns ++ ")"

def createTable (dialect : Dialect) (table : Table) : Except SchemaError (List String) := do
  let lines ← dialect.tableLines table
  let statement := "CREATE TABLE " ++ dialect.quote table.name ++ " (\n    "
    ++ ",\n    ".intercalate lines ++ "\n)" ++ dialect.tableSuffix table
  let indexes := table.indexes.filter (!dialect.isInline ·)
  .ok (statement :: indexes.map (dialect.createIndex table.name))

def alterActions (source target : Column) : Except SchemaError (List String) := do
  let column := "ALTER COLUMN " ++ postgres.quote target.name
  let type ← postgres.typeSql target.type
  let retype := if source.type = target.type then [] else
    [column ++ " TYPE " ++ type ++ " USING " ++ postgres.quote target.name ++ "::" ++ type]
  let nullable := if source.nullable = target.nullable then [] else
    [column ++ (if target.nullable then " DROP NOT NULL" else " SET NOT NULL")]
  let default := if source.default = target.default then [] else
    [match target.default with
      | some expression => column ++ " SET DEFAULT " ++ expression
      | none => column ++ " DROP DEFAULT"]
  let generated := if source.autoIncrement = target.autoIncrement then [] else
    [column ++ (if target.autoIncrement then " ADD GENERATED BY DEFAULT AS IDENTITY"
      else " DROP IDENTITY IF EXISTS")]
  .ok (retype ++ nullable ++ default ++ generated)

-- In Spanner a change of the default alone has a form of its own.
def changesDefaultOnly (source target : Column) : Bool :=
  source.type = target.type && source.nullable = target.nullable
    && source.rawDefinition = target.rawDefinition

def alterColumn (dialect : Dialect) (source target : Column) : Except SchemaError String := do
  match dialect with
  | postgres => .ok (", ".intercalate (← alterActions source target))
  | mysql => .ok ("MODIFY COLUMN " ++ (← mysql.columnDefinition target))
  | spanner =>
    if changesDefaultOnly source target then
      let column := "ALTER COLUMN " ++ spanner.quote target.name
      match target.default with
      | some expression => .ok (column ++ s!" SET DEFAULT ({expression})")
      | none => .ok (column ++ " DROP DEFAULT")
    else .ok ("ALTER COLUMN " ++ (← spanner.columnDefinition target))

def dropConstraint (dialect : Dialect) (table : String) (constraint : Constraint) : String :=
  let name := dialect.quote (constraint.effectiveName table)
  match dialect, constraint.kind with
  | mysql, .primaryKey => "DROP PRIMARY KEY"
  | mysql, .foreignKey _ => "DROP FOREIGN KEY " ++ name
  | mysql, .unique => "DROP INDEX " ++ name
  | mysql, .check _ => "DROP CHECK " ++ name
  | _, _ => "DROP CONSTRAINT " ++ name

def dropIndex (dialect : Dialect) (table : String) (index : Index) : String :=
  "DROP INDEX " ++ dialect.quote index.name
    ++ (if dialect = mysql then " ON " ++ dialect.quote table else "")

def render (dialect : Dialect) (operation : Operation) : Except SchemaError (List String) := do
  let alter (action : String) := ["ALTER TABLE " ++ dialect.quote operation.table ++ " " ++ action]
  match operation with
  | .createTable table => dialect.createTable table
  | .dropTable table => .ok ["DROP TABLE " ++ dialect.quote table]
  | .addColumn _ column => .ok (alter ("ADD COLUMN " ++ (← dialect.columnDefinition column)))
  | .dropColumn _ column => .ok (alter ("DROP COLUMN " ++ dialect.quote column))
  | .alterColumnType _ source target => .ok (alter (← dialect.alterColumn source target))
  | .addConstraint table constraint =>
    if dialect = spanner && constraint.isPrimaryKey then
      .error (.unsupported .spanner "adding a primary key")
    else .ok (alter ("ADD " ++ dialect.tableConstraint table constraint))
  | .dropConstraint table constraint =>
    if dialect = spanner && constraint.isPrimaryKey then
      .error (.unsupported .spanner "dropping a primary key")
    else .ok (alter (dialect.dropConstraint table constraint))
  | .addIndex table index => .ok [dialect.createIndex table index]
  | .dropIndex table index => .ok [dialect.dropIndex table index]

def renderAll (dialect : Dialect) (operations : List Operation) :
    Except SchemaError (List String) := do
  .ok (← operations.mapM dialect.render).flatten

def printSchema (dialect : Dialect) (schema : Schema) : Except SchemaError String := do
  let canonical ← dialect.canonicalize schema
  .ok (script (← dialect.renderAll canonical.creation))

end Dialect

end SchemaDrift
