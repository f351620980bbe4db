import SchemaDrift.Ddl.Document
import SchemaDrift.Code.Annotation
import SchemaDrift.Code.ColumnType
import SchemaDrift.Code.Item
import SchemaDrift.Text.Case
/-!
The tables that structs declare. A struct is a declaration if it has settings, or if one of its
fields has an annotation.
-/

set_option autoImplicit false

namespace SchemaDrift.Code

/-- A text with what is needed to read tables from it: the parser gives its items, or the offset at
which it stops. -/
structure Origin where
  dialect : Dialect
  keys : AnnotationKeys := {}
  text : List Char
  file : Option String := none
  parse : List Char → Except Nat File := File.parse

/-! ### Fields with their annotations -/

structure AnnotatedField where
  field : Field
  annotations : FieldAnnotations

namespace AnnotatedField

def name (field : AnnotatedField) : String := plainName field.field.name

def columnName (field : AnnotatedField) : String := field.annotations.column.getD field.name

end AnnotatedField

/-! ### Where the text starts -/

-- Drops a byte order mark, and a first line for the shell up to its end.
def content (text : List Char) : List Char :=
  let text := Text.dropOrderMark text
  match text with
  | '#' :: '!' :: rest => match Scan.skip rest.length rest with
    | '[' :: _ => text
    | _ => text.dropWhile (· ≠ '\n')
  | text => text

namespace Origin

variable (origin : Origin)

def location (position : Nat) : Location :=
  Text.advance { line := 1, column := 1, file := origin.file } ((content origin.text).take position)

/-! ### Errors -/

def error (declaration : String) (position : Nat) (fault : AnnotationFault) : SchemaError :=
  .declaration declaration (origin.location position) fault.message

def problem (declaration : String) (problem : Problem) : SchemaError :=
  origin.error declaration problem.position problem.fault

-- The error for a definition that the dialect refuses. One that it cannot read is a fault of the
-- annotation, other errors stay as they are.
def definitionError (declaration : String) (definition : Quoted) : SchemaError → SchemaError
  | .syntaxError _ _ _ message =>
    origin.error declaration definition.start (.invalidDefinition definition.value message)
  | .declaration _ _ message =>
    .declaration declaration (origin.location definition.start) message
  | e => e

def parseError (position : Nat) : SchemaError :=
  let location := origin.location position
  .syntaxError location (Text.offsetOf origin.text location.line location.column) 0
    "cannot read the declaration"

/-! ### Columns -/

def qualifiedName (declaration field : String) : String := declaration ++ "." ++ field

def definedColumn (declaration : String) (field : AnnotatedField) (definition : Quoted) :
    Except SchemaError Column := do
  let owner := qualifiedName declaration field.name
  let text := definition.value.toList
  let fragment ←
    (origin.dialect.parseColumn text).mapError (origin.definitionError owner definition)
  if fragment.constraints ≠ [] then
    .error (origin.error owner definition.start (.constraintInColumn origin.keys.ddl))
  else
    .ok { name := field.columnName
          type := fragment.type
          nullable := fragment.nullable
          default := fragment.default
          autoIncrement := fragment.autoIncrement
          annotations := field.annotations.texts
          rawDefinition := some (String.ofList (Text.trim text)) }

def column (declaration : String) (field : AnnotatedField) : Except SchemaError Column :=
  match field.annotations.definition with
  | some definition => origin.definedColumn declaration field definition
  | none => match field.field.type.column? with
    | some (type, nullable) =>
      .ok { name := field.columnName, type, nullable, annotations := field.annotations.texts }
    | none =>
      .error (origin.error (qualifiedName declaration field.name) field.field.start
        (.unknownType field.field.typeText origin.keys.ddl))

def columns (declaration : String) : List AnnotatedField →
    Except SchemaError (List Column × List String)
  | [] => .ok ([], [])
  | field :: fields =>
    if field.annotations.excluded then
      if field.annotations.inPrimaryKey then
        .error (origin.error (qualifiedName declaration field.name) field.field.start .excludedKey)
      else columns declaration fields
    else do
      let column ← origin.column declaration field
      let (columns, key) ← columns declaration fields
      .ok (column :: columns, if field.annotations.inPrimaryKey then column.name :: key else key)

/-! ### The primary key -/

def keyColumn (struct : Struct) (fields : List AnnotatedField) (name : String) :
    Except SchemaError String :=
  match fields.find? fun field => field.name = name && !field.annotations.excluded with
  | some field => .ok field.columnName
  | none => .error (origin.error (plainName struct.name) struct.start (.unknownKeyField name))

def primaryKey (struct : Struct) (fields : List AnnotatedField) (settings : TableSettings)
    (flagged : List String) : Except SchemaError (List String) :=
  match settings.primaryKey with
  | none => .ok flagged
  | some names =>
    if flagged ≠ [] then
      .error (origin.error (plainName struct.name) struct.start (.keyTwice origin.keys.primaryKey))
    else names.mapM (origin.keyColumn struct fields)

/-! ### Indexes and constraints -/

def addIndex (declaration : String) (draft : TableDraft) (statement : Quoted) :
    Except SchemaError TableDraft := do
  let (target, index) ← (origin.dialect.parseIndex statement.value.toList).mapError
    (origin.definitionError declaration statement)
  if target ≠ draft.name then
    .error (origin.error declaration statement.start (.indexElsewhere index.name target draft.name))
  else if draft.hasIndex index.name then
    .error (origin.error declaration statement.start (.duplicateIndex index.name))
  else .ok (draft.addIndex index)

def addConstraint (declaration : String) (draft : TableDraft) (fragment : Quoted) :
    Except SchemaError TableDraft := do
  let constraint ← (origin.dialect.parseConstraint fragment.value.toList).mapError
    (origin.definitionError declaration fragment)
  .ok (draft.addConstraint constraint)

/-! ### Tables -/

def tableName (struct : Struct) (settings : TableSettings) : String :=
  settings.table.getD (String.ofList (Text.snakeCase (plainName struct.name).toList))

def declaredTable (struct : Struct) (settings : TableSettings) (fields : List AnnotatedField) :
    Except SchemaError TableDraft := do
  let declaration := plainName struct.name
  let (columns, flagged) ← origin.columns declaration fields
  let key ← origin.primaryKey struct fields settings flagged
  let draft : TableDraft := { name := tableName struct settings, columns }
  let draft :=
    if key = [] then draft else draft.addConstraint { columns := key, kind := .primaryKey }
  let draft ← settings.indexes.foldlM (origin.addIndex declaration) draft
  settings.constraints.foldlM (origin.addConstraint declaration) draft

def annotatedField (declaration : String) (field : Field) : Except SchemaError AnnotatedField := do
  let annotations ← (FieldAnnotations.ofAttributes origin.keys field.attributes).mapError
    (origin.problem (qualifiedName declaration (plainName field.name)))
  .ok { field, annotations }

def table? (struct : Struct) : Except SchemaError (Option TableDraft) := do
  let declaration := plainName struct.name
  let settings ← (TableSettings.ofAttributes origin.keys struct.attributes).mapError
    (origin.problem declaration)
  match struct.fields? with
  | none =>
    if settings.isSome then .error (origin.error declaration struct.start .unnamedFields)
    else .ok none
  | some fields =>
    let fields ← fields.mapM (origin.annotatedField declaration)
    if settings.isNone && !fields.any (·.annotations.annotated) then .ok none
    else some <$> origin.declaredTable struct (settings.getD {}) fields

mutual

def itemTables : Item → Except SchemaError (List TableDraft)
  | .struct declaration => Option.toList <$> origin.table? declaration
  | .module items => tables items
  | .other => .ok []

def tables : List Item → Except SchemaError (List TableDraft)
  | [] => .ok []
  | item :: items => do
    let first ← itemTables item
    let rest ← tables items
    .ok (first ++ rest)

end

def read : Except SchemaError (List TableDraft) := do
  let file ← (origin.parse (content origin.text)).mapError origin.parseError
  origin.tables file.items

end Origin

def schemaOf (tables : List TableDraft) : Except SchemaError Schema := do
  let draft ← tables.foldlM addOnce {}
  draft.build
where
  addOnce (draft : SchemaDraft) (table : TableDraft) : Except SchemaError SchemaDraft :=
    if draft.hasTable table.name then .error (.validation table.name .declaredTwice)
    else .ok (draft.addTable table)

end SchemaDrift.Code
