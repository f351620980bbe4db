import SchemaDrift.Type.Basic
/-!
Columns and indexes of a table.
-/

set_option autoImplicit false

namespace SchemaDrift

structure Column where
  name : String
  type : ColumnType
  nullable : Bool := false
  default : Option String := none
  autoIncrement : Bool := false
  annotations : List (String × String) := []
  -- A definition to print as it stands, in place of the one made from the other fields.
  rawDefinition : Option String := none
deriving DecidableEq, Repr

-- Equality of all that ends up in the database: annotations and raw definitions do not count.
def Column.sameDefinition (a b : Column) : Bool :=
  a.name = b.name && a.type = b.type && a.nullable = b.nullable && a.default = b.default
    && a.autoIncrement = b.autoIncrement

structure IndexColumn where
  name : String
  descending : Bool := false
deriving DecidableEq, Repr

structure Index where
  name : String
  columns : List IndexColumn
  unique : Bool := false
deriving DecidableEq, Repr

namespace Index

def columnNames (index : Index) : List String := index.columns.map IndexColumn.name

def ascending (name : String) (columns : List String) : Index :=
  { name, columns := columns.map fun column => { name := column } }

def structurallyEq (a b : Index) : Bool := a.unique = b.unique && a.columns = b.columns

end Index

end SchemaDrift
