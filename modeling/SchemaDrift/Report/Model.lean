import SchemaDrift.Plan.Basic
import SchemaDrift.Report.Json
/-!
The model as JSON. Members that say nothing are left out.
-/

set_option autoImplicit false

namespace SchemaDrift

def BaseType.key : BaseType → String
  | smallInt => "small_int"
  | bigInt => "big_int"
  | timestampTz => "timestamp_tz"
  | base => base.name

namespace Json

def option {α : Type} (name : String) (f : α → Json) (value : Option α) : List (String × Json) :=
  (value.map fun v => (name, f v)).toList

def flag (name : String) (value : Bool) : List (String × Json) :=
  if value then [(name, .bool true)] else []

def list {α : Type} (name : String) (f : α → Json) (values : List α) : List (String × Json) :=
  if values.isEmpty then [] else [(name, .array (values.map f))]

def ofLength : Length → Json
  | .fixed n => .object [("fixed", .number n)]
  | .max => .string "max"

def ofType (type : ColumnType) : Json :=
  .object <| [("base", .string type.base.key)] ++ option "length" ofLength type.length
    ++ option "precision" .number type.precision ++ option "scale" .number type.scale
    ++ flag "array" type.array

def ofAnnotations (annotations : List (String × String)) : List (String × Json) :=
  if annotations.isEmpty then []
  else [("annotations", .object (annotations.map fun (key, text) => (key, .string text)))]

def ofColumn (column : Column) : Json :=
  .object <| [("name", .string column.name), ("ty", ofType column.type),
      ("nullable", .bool column.nullable)]
    ++ option "default" .string column.default ++ flag "auto_increment" column.autoIncrement
    ++ ofAnnotations column.annotations ++ option "raw_definition" .string column.rawDefinition

def ofIndexColumn (column : IndexColumn) : Json :=
  .object <| ("name", .string column.name) :: flag "descending" column.descending

def ofIndex (index : Index) : Json :=
  .object [("name", .string index.name), ("columns", .array (index.columns.map ofIndexColumn)),
    ("unique", .bool index.unique)]

def ofAction (action : ReferentialAction) : Json := .string action.name

def ofReference (reference : Reference) : Json :=
  .object <| [("table", .string reference.table), ("columns", strings reference.columns)]
    ++ option "on_delete" ofAction reference.onDelete
    ++ option "on_update" ofAction reference.onUpdate

def ofKind : ConstraintKind → Json
  | .primaryKey => .object [("kind", .string "primary_key")]
  | .unique => .object [("kind", .string "unique")]
  | .check expression => .object [("kind", .string "check"), ("detail", .string expression)]
  | .foreignKey reference =>
    .object [("kind", .string "foreign_key"), ("detail", ofReference reference)]

def ofConstraint (constraint : Constraint) : Json :=
  .object <| option "name" .string constraint.name
    ++ [("columns", strings constraint.columns), ("kind", ofKind constraint.kind)]

def ofOption (pair : String × String) : Json := strings [pair.1, pair.2]

def tableMembers (table : Table) : List (String × Json) :=
  [("name", .string table.name), ("ordinal", .number table.ordinal)]
    ++ option "primary_key" ofConstraint table.primaryKey
    ++ list "indexes" ofIndex table.indexes ++ list "constraints" ofConstraint table.constraints
    ++ list "options" ofOption table.options

def columnsByName (table : Table) : Json :=
  .object (table.columns.map fun column => (column.name, ofColumn column))

def ofOperation (operation : Operation) : Json :=
  let table := ("table", Json.string operation.table)
  .object <| ("op", .string operation.kind.name) :: match operation with
    | .createTable t => ("columns", columnsByName t) :: tableMembers t
    | .dropTable _ => [table]
    | .addColumn _ column => [table, ("column", ofColumn column)]
    | .dropColumn _ column => [table, ("column", .string column)]
    | .alterColumnType _ source target =>
      [table, ("from", ofColumn source), ("to", ofColumn target)]
    | .addConstraint _ constraint | .dropConstraint _ constraint =>
      [table, ("constraint", ofConstraint constraint)]
    | .addIndex _ index | .dropIndex _ index => [table, ("index", ofIndex index)]

end Json

end SchemaDrift
