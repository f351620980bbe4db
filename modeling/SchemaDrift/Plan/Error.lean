import SchemaDrift.Error
/-!
What can go wrong when a migration is planned or written.
-/

set_option autoImplicit false

namespace SchemaDrift

inductive MigrationError where
  | schema (error : SchemaError)
  | typeChange (dialect : Dialect) (table column source target : String)
  | keyChange (dialect : Dialect) (table : String) (source target : List String)
  | unwritable (path : String)
  | overwrite (path : String)
deriving DecidableEq, Repr

namespace MigrationError

def keyText : List String → String
  | [] => "none"
  | columns => "(" ++ ", ".intercalate columns ++ ")"

def message : MigrationError → String
  | schema error => error.message
  | typeChange dialect table column source target =>
    s!"cannot migrate `{table}.{column}`: " ++ dialect.name
      ++ s!" cannot change the type from {source} to {target} with a single ALTER"
  | keyChange dialect table source target =>
    s!"cannot migrate `{table}`: " ++ dialect.name
      ++ " cannot change the primary key of an existing table from " ++ keyText source
      ++ " to " ++ keyText target
  | unwritable path => s!"failed to write {path}"
  | overwrite path => s!"output error: refusing to overwrite the destination schema `{path}`"

end MigrationError

end SchemaDrift
