import SchemaDrift.Schema.Column
import SchemaDrift.Schema.Constraint
import SchemaDrift.Schema.Multiset
/-!
Tables and schemas as values. They come from drafts, which are checked when they are built.
-/

set_option autoImplicit false

namespace SchemaDrift

structure Table where
  name : String
  columns : List Column
  primaryKey : Option Constraint := none
  indexes : List Index := []
  constraints : List Constraint := []
  options : List (String × String) := []
  ordinal : Nat
deriving DecidableEq, Repr

namespace Table

def column? (table : Table) (name : String) : Option Column :=
  table.columns.find? (·.name = name)

def hasColumn (table : Table) (name : String) : Bool := table.columns.any (·.name = name)

def primaryKeyColumns (table : Table) : List String :=
  match table.primaryKey with
  | some key => key.columns
  | none => []

def foreignKeys (table : Table) : List Constraint :=
  table.constraints.filter Constraint.isForeignKey

def keys (table : Table) : List (List String) :=
  table.primaryKey.toList.map Constraint.columns
    ++ (table.constraints.filter (·.kind = .unique)).map Constraint.columns
    ++ (table.indexes.filter Index.unique).map Index.columnNames

def hasKey (table : Table) (columns : List String) : Bool :=
  table.keys.any fun key => sameMembers key columns

def retainConstraints (table : Table) (keep : Constraint → Bool) : Table :=
  { table with constraints := table.constraints.filter keep }

def sameUpToOrder (a b : Table) : Bool :=
  { a with columns := [] } = { b with columns := [] } && a.columns.length = b.columns.length
    && a.columns.all fun column => b.column? column.name = some column

-- Equality but for the order of columns and the names and order of constraints and indexes.
def equivalent (a b : Table) : Bool :=
  a.name = b.name && a.columns.length = b.columns.length
    && a.columns.all (fun column => (b.column? column.name).any column.sameDefinition)
    && a.primaryKeyColumns = b.primaryKeyColumns
    && sameMultiset Constraint.structurallyEq a.constraints b.constraints
    && sameMultiset Index.structurallyEq a.indexes b.indexes

end Table

structure Schema where
  tables : List Table := []
deriving DecidableEq, Repr

namespace Schema

def empty : Schema := {}

def table? (schema : Schema) (name : String) : Option Table :=
  schema.tables.find? (·.name = name)

def hasTable (schema : Schema) (name : String) : Bool := schema.tables.any (·.name = name)

def tableNames (schema : Schema) : List String := schema.tables.map Table.name

def sameUpToOrder (a b : Schema) : Bool :=
  a.tables.length = b.tables.length
    && a.tables.all fun table => (b.table? table.name).any table.sameUpToOrder

def equivalent (a b : Schema) : Bool :=
  a.tables.length = b.tables.length
    && a.tables.all fun table => (b.table? table.name).any table.equivalent

end Schema

end SchemaDrift
