import SchemaDrift.Schema.Draft
/-!
Operations, the units of change of a schema, and their effect.
-/

set_option autoImplicit false

namespace SchemaDrift

inductive OperationKind where
  | createTable | dropTable | addColumn | dropColumn | alterColumnType
  | addConstraint | dropConstraint | addIndex | dropIndex
deriving DecidableEq, Repr

namespace OperationKind

def all : List OperationKind :=
  [createTable, dropTable, addColumn, dropColumn, alterColumnType, addConstraint, dropConstraint,
    addIndex, dropIndex]

def name : OperationKind → String
  | createTable => "create_table"
  | dropTable => "drop_table"
  | addColumn => "add_column"
  | dropColumn => "drop_column"
  | alterColumnType => "alter_column_type"
  | addConstraint => "add_constraint"
  | dropConstraint => "drop_constraint"
  | addIndex => "add_index"
  | dropIndex => "drop_index"

def verb : OperationKind → String
  | createTable => "Create"
  | dropTable | dropColumn | dropConstraint | dropIndex => "Drop"
  | addColumn | addConstraint | addIndex => "Add"
  | alterColumnType => "Alter"

def noun : OperationKind → String × String
  | createTable | dropTable => ("table", "tables")
  | addColumn | dropColumn | alterColumnType => ("column", "columns")
  | addConstraint | dropConstraint => ("constraint", "constraints")
  | addIndex | dropIndex => ("index", "indexes")

def describe (kind : OperationKind) (count : Nat) : String :=
  let noun := if count = 1 then kind.noun.1 else kind.noun.2
  kind.verb ++ s!" {count} {noun}"

end OperationKind

inductive Operation where
  | createTable (table : Table)
  | dropTable (table : String)
  | addColumn (table : String) (column : Column)
  | dropColumn (table column : String)
  | alterColumnType (table : String) (source target : Column)
  | addConstraint (table : String) (constraint : Constraint)
  | dropConstraint (table : String) (constraint : Constraint)
  | addIndex (table : String) (index : Index)
  | dropIndex (table : String) (index : Index)
deriving DecidableEq, Repr

namespace Operation

def kind : Operation → OperationKind
  | createTable _ => .createTable
  | dropTable _ => .dropTable
  | addColumn .. => .addColumn
  | dropColumn .. => .dropColumn
  | alterColumnType .. => .alterColumnType
  | addConstraint .. => .addConstraint
  | dropConstraint .. => .dropConstraint
  | addIndex .. => .addIndex
  | dropIndex .. => .dropIndex

def table : Operation → String
  | createTable table => table.name
  | dropTable table | addColumn table _ | dropColumn table _ | alterColumnType table _ _
  | addConstraint table _ | dropConstraint table _ | addIndex table _ | dropIndex table _ => table

def foreignKey? : Operation → Option Constraint
  | addConstraint _ constraint | dropConstraint _ constraint =>
    if constraint.isForeignKey then some constraint else none
  | _ => none

def text : Operation → String
  | createTable table => s!"create table {table.name}"
  | dropTable table => s!"drop table {table}"
  | addColumn table column => s!"add column {table}.{column.name} " ++ column.type.text
  | dropColumn table column => s!"drop column {table}.{column}"
  | alterColumnType table source target =>
    let side (column : Column) := column.type.text ++ (if column.nullable then " null" else "")
    s!"alter column {table}.{target.name} " ++ side source ++ " -> " ++ side target
  | addConstraint table constraint => "add " ++ constraint.text ++ s!" on {table}"
  | dropConstraint table constraint => "drop " ++ constraint.text ++ s!" on {table}"
  | addIndex table index => s!"add index {index.name} on {table}"
  | dropIndex table index => s!"drop index {index.name} on {table}"

end Operation

end SchemaDrift
