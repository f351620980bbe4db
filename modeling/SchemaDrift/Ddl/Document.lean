import SchemaDrift.Ddl.Column
/-!
Reading schema definitions: whole documents, and single columns, indexes and constraints.
-/

set_option autoImplicit false

namespace SchemaDrift.Ddl

open Grammar (Rule Tree)

structure Reader where
  dialect : Dialect
  input : List Char

namespace Reader

def unsupported {α : Type} (reader : Reader) (construct : String) : Except SchemaError α :=
  .error (.unsupported reader.dialect construct)

def position (reader : Reader) (tree : Tree) : Nat := reader.input.length - tree.start.length

/-! ### Tables -/

def keyAfterColumns (reader : Reader) (table : TableDraft) (tree : Tree) :
    Except SchemaError TableDraft := do
  if reader.dialect ≠ .spanner then reader.unsupported "PRIMARY KEY after the column list"
  let columns ← (tree.all .indexColumn).mapM (keyColumn reader.dialect)
  if columns.isEmpty then .ok table else .ok (table.addConstraint (.primaryKey columns))

-- Only MySQL has table options. The next generated value is no part of the schema.
def tableOption (reader : Reader) (table : TableDraft) (tree : Tree) :
    Except SchemaError TableDraft := do
  let name := ((tree.first? .optionName).map upperText).getD ""
  let value := ((tree.first? .optionValue).map fun t => String.ofList t.text).getD ""
  if reader.dialect ≠ .mysql then reader.unsupported ("table option " ++ name)
  else if name = "AUTO_INCREMENT" then .ok table
  else .ok (table.addOption name value)

def tableClause (reader : Reader) (table : TableDraft) (tree : Tree) :
    Except SchemaError TableDraft :=
  match tree.rule with
  | .spannerPrimaryKey => reader.keyAfterColumns table tree
  | .interleaveClause => reader.unsupported "INTERLEAVE IN PARENT"
  | .rowDeletionPolicy => reader.unsupported "ROW DELETION POLICY"
  | .unsupportedTableClause =>
    let keyword := ((Text.words tree.text).head?.map Text.asciiUpper).getD ""
    reader.unsupported (keyword ++ " table clause")
  | .tableOption => reader.tableOption table tree
  | _ => .ok table

def tableElement (reader : Reader) (table : TableDraft) (tree : Tree) :
    Except SchemaError TableDraft := do
  match tree.rule with
  | .tableConstraint => .ok (table.addConstraint (← tableConstraint reader.dialect tree))
  | .indexDefinition => .ok (table.addIndex (← indexDefinition reader.dialect tree))
  | .columnDef =>
    let (column, constraints) ← columnDefinition reader.dialect tree
    .ok ((table.addColumn column).addConstraints constraints)
  | _ => .ok table

def createTable (reader : Reader) (schema : SchemaDraft) (tree : Tree) :
    Except SchemaError SchemaDraft := do
  let name := (← (tree.first? .qualifiedName).mapM (qualified reader.dialect)).getD ""
  let elements := (tree.all .tableElement).flatMap Tree.children
  let clauses := (tree.all .tableSuffix).flatMap Tree.children
  let table ← elements.foldlM reader.tableElement { name }
  let table ← clauses.foldlM reader.tableClause table
  if tree.has .ifNotExists ∧ schema.hasTable name then .ok schema
  else .ok (schema.addTable table)

/-! ### Statements about existing tables -/

def createIndex (reader : Reader) (schema : SchemaDraft) (tree : Tree) :
    Except SchemaError SchemaDraft := do
  let statement ← indexStatement reader.dialect tree
  match schema.table? statement.table with
  | none =>
    .error (.validation statement.table (.indexOnUnknownTable statement.index.name))
  | some table =>
    if statement.ifNotExists ∧ table.hasIndex statement.index.name then .ok schema
    else .ok (schema.setTable statement.table (table.addIndex statement.index))

-- The error for an action of `ALTER TABLE` that is none of those known. An action that starts
-- with `ADD` is read once more to find where it goes wrong. The owner of a table is ignored.
def otherAction (reader : Reader) (table : TableDraft) (tree : Tree) :
    Except SchemaError TableDraft :=
  let words := ((Text.words tree.text).take 2).map Text.asciiUpper
  let refused := reader.unsupported ("ALTER TABLE " ++ " ".intercalate words)
  match words.head? with
  | some "ADD" => match Grammar.parse .alterAddAction tree.text with
    | .error failure => .error (syntaxErrorIn reader.input (reader.position tree) failure)
    | .ok _ => refused
  | some "OWNER" => .ok table
  | _ => refused

def addColumn (reader : Reader) (table : TableDraft) (tree : Tree) :
    Except SchemaError TableDraft := do
  match tree.first? .columnDef with
  | none => .ok table
  | some definition =>
    let (column, constraints) ← columnDefinition reader.dialect definition
    if tree.has .ifNotExists ∧ table.hasColumn column.name then .ok table
    else .ok ((table.addColumn column).addConstraints constraints)

def alterAction (reader : Reader) (table : TableDraft) (tree : Tree) :
    Except SchemaError TableDraft :=
  match tree.rule with
  | .addConstraint | .addIndex => tree.children.foldlM reader.tableElement table
  | .addColumn => reader.addColumn table tree
  | .unsupportedAction => reader.otherAction table tree
  | _ => .ok table

def alterTable (reader : Reader) (schema : SchemaDraft) (tree : Tree) :
    Except SchemaError SchemaDraft := do
  let name := (← (tree.first? .qualifiedName).mapM (qualified reader.dialect)).getD ""
  match schema.table? name with
  | none => .error (.validation name .alterUnknownTable)
  | some table =>
    let actions := (tree.all .alterAction).flatMap Tree.children
    .ok (schema.setTable name (← actions.foldlM reader.alterAction table))

/-! ### Documents -/

def resembledRule? : List String → Option Rule
  | "CREATE" :: "TABLE" :: _ => some .createTableStatement
  | "CREATE" :: "INDEX" :: _ => some .createIndexStatement
  | ["CREATE", "UNIQUE", "INDEX"] | ["CREATE", "NULL_FILTERED", "INDEX"] =>
    some .createIndexStatement
  | "ALTER" :: "TABLE" :: _ => some .alterTableStatement
  | _ => none

-- The error for a statement that is none of those known. One that looks like a known statement
-- is read once more by itself to find where it goes wrong.
def otherStatement (reader : Reader) (tree : Tree) : SchemaError :=
  let words := Text.fields (fun c => Text.isBlank c || c = '(') tree.text
  let words := (words.take 3).map Text.asciiUpper
  let start := reader.position tree
  match resembledRule? words with
  | none => .unsupported reader.dialect (" ".intercalate (words.take 2) ++ " statement")
  | some rule => match Grammar.parse rule tree.text with
    | .error failure => syntaxErrorIn reader.input start failure
    | .ok _ =>
      syntaxErrorAt reader.input start (Text.byteLength tree.text) "unrecognized statement"

def statement (reader : Reader) (schema : SchemaDraft) (tree : Tree) :
    Except SchemaError SchemaDraft :=
  match tree.rule with
  | .createTable => reader.createTable schema tree
  | .createIndex => reader.createIndex schema tree
  | .alterTable => reader.alterTable schema tree
  | .otherStatement => .error (reader.otherStatement tree)
  | _ => .ok schema

def document (reader : Reader) : Except SchemaError SchemaDraft := do
  let tree ← parse .document reader.input
  ((tree.all .statement).flatMap Tree.children).foldlM reader.statement {}

end Reader

end Ddl

namespace Dialect

def checkSchema (dialect : Dialect) (schema : Schema) : Except SchemaError Unit :=
  schema.tables.forM fun table => do
    dialect.checkTable table
    table.columns.forM dialect.checkColumn

def parse (dialect : Dialect) (text : List Char) : Except SchemaError Schema := do
  let schema ← (← Ddl.Reader.document { dialect, input := text }).build
  dialect.checkSchema schema
  .ok schema

-- A column definition without its name; its constraints have no columns.
def parseColumn (dialect : Dialect) (text : List Char) : Except SchemaError ColumnFragment := do
  Ddl.columnBody dialect [] (← Ddl.parse .columnFragment text)

def parseIndex (dialect : Dialect) (text : List Char) : Except SchemaError (String × Index) := do
  let tree ← Ddl.parse .createIndexStatement text
  match tree.first? .createIndex with
  | some tree =>
    let statement ← Ddl.indexStatement dialect tree
    .ok (statement.table, statement.index)
  | none => .error (Ddl.syntaxErrorAt text 0 0 "empty input")

def parseConstraint (dialect : Dialect) (text : List Char) : Except SchemaError Constraint := do
  let tree ← Ddl.parse .constraintFragment text
  match tree.first? .tableConstraint with
  | some tree => Ddl.tableConstraint dialect tree
  | none => .error (Ddl.syntaxErrorAt text 0 0 "empty input")

end Dialect

end SchemaDrift
