import SchemaDrift.Dialect.Basic
import SchemaDrift.Text.Position
/-!
What can go wrong with a schema, its text or its settings, and how each problem reads.
-/

set_option autoImplicit false

namespace SchemaDrift

inductive Fault where
  | emptyTableName
  | noColumns
  | emptyColumnName
  | duplicateColumn (column : String)
  | severalPrimaryKeys
  | emptyColumnList (owner : String)
  | unknownColumn (owner column : String)
  | repeatedColumn (owner column : String)
  | referenceArity (columns : List String) (count : Nat) (target : String)
  | duplicateIndex (index : String)
  | duplicateTable
  | declaredTwice
  | unknownTarget (target : String)
  | unknownTargetColumn (target column : String)
  | unkeyedReference (target : String) (columns : List String)
  | tableExists
  | tableMissing
  | indexInTheWay (index : String)
  | inapplicable (operation : String)
  | indexOnUnknownTable (index : String)
  | alterUnknownTable
  | indexOfAnotherTable (index table : String)
  | rejected (reason : String)
deriving DecidableEq, Repr

def Fault.message : Fault → String
  | emptyTableName => "table name is empty"
  | noColumns => "table has no columns"
  | emptyColumnName => "column name is empty"
  | duplicateColumn column => s!"duplicate column `{column}`"
  | severalPrimaryKeys => "multiple primary keys defined"
  | emptyColumnList owner => s!"{owner} has no columns"
  | unknownColumn owner column => s!"{owner} references unknown column `{column}`"
  | repeatedColumn owner column => s!"{owner} lists column `{column}` twice"
  | referenceArity columns count target =>
    "foreign key (" ++ ", ".intercalate columns ++ s!") references {count} column(s) of `{target}`"
  | duplicateIndex index => s!"duplicate index `{index}`"
  | duplicateTable => "duplicate table"
  | declaredTwice => "table is declared more than once"
  | unknownTarget target => s!"foreign key references unknown table `{target}`"
  | unknownTargetColumn target column =>
    s!"foreign key references unknown column `{target}.{column}`"
  | unkeyedReference target columns =>
    s!"foreign key references `{target}` (" ++ ", ".intercalate columns
      ++ "), which is not a primary key or unique key"
  | tableExists => "table already exists"
  | tableMissing => "table does not exist"
  | indexInTheWay index => s!"cannot drop the table while index `{index}` exists"
  | inapplicable operation => s!"cannot {operation}"
  | indexOnUnknownTable index => s!"index `{index}` on unknown table"
  | alterUnknownTable => "ALTER TABLE on unknown table"
  | indexOfAnotherTable index table => s!"index `{index}` targets table `{table}`"
  | rejected reason => reason

inductive ErrorKind where
  | parse | unsupportedFeature | validation | io | config
deriving DecidableEq, Repr

inductive SchemaError where
  | unreadable (path : String)
  -- The text does not follow the grammar; the span starts at a byte offset.
  | syntaxError (location : Location) (offset length : Nat) (message : String)
  | declaration (name : String) (location : Location) (message : String)
  | unsupported (dialect : Dialect) (construct : String)
  | validation (table : String) (fault : Fault)
  | config (message : String)
  | toml
deriving DecidableEq, Repr

namespace SchemaError

def kind : SchemaError → ErrorKind
  | syntaxError .. | declaration .. => .parse
  | unsupported .. => .unsupportedFeature
  | validation .. => .validation
  | unreadable _ => .io
  | config _ | toml => .config

def message : SchemaError → String
  | unreadable path => s!"failed to read file: {path}"
  | syntaxError location _ _ message => "syntax error at " ++ location.text ++ ": " ++ message
  | declaration name location message =>
    s!"invalid annotation on `{name}` at " ++ location.text ++ ": " ++ message
  | unsupported dialect construct => s!"unsupported {dialect.name} feature: {construct}"
  | validation table fault => s!"invalid table `{table}`: " ++ fault.message
  | config message => s!"configuration error: {message}"
  | toml => "failed to parse TOML"

end SchemaError

end SchemaDrift
