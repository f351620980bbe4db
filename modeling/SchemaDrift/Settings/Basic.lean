import SchemaDrift.Settings.Keys
import SchemaDrift.Toml.Document
/-!
Settings, and reading them from a configuration file.
-/

set_option autoImplicit false

namespace SchemaDrift

structure Settings where
  dialect : Dialect := .postgres
  keys : AnnotationKeys := {}
  autoApprove : Bool := false
deriving DecidableEq, Repr

namespace Settings

open Toml (Value)

/-! ### Members of the configuration -/

-- A dialect by its name, which may also be the only key of a table with nothing under it.
def dialectOf? : Value → Option Dialect
  | .text name => Dialect.ofName? name
  | .table _ [(name, .table _ [])] | .table _ [(name, .list [])] => Dialect.ofName? name
  | _ => none

def addKey? (keys : AnnotationKeys) : String × Value → Option AnnotationKeys
  | ("column", .text column) => some { keys with column }
  | ("ddl", .text ddl) => some { keys with ddl }
  | ("primary_key", .text primaryKey) => some { keys with primaryKey }
  | _ => none

def keysOf? : Value → Option AnnotationKeys
  | .table _ members => members.foldlM addKey? {}
  | .list values => (["column", "ddl", "primary_key"].zip values).foldlM addKey? {}
  | _ => none

def addMigration? : Bool → String × Value → Option Bool
  | _, ("auto_approve", .flag value) => some value
  | _, _ => none

def migrationOf? : Value → Option Bool
  | .table _ members => members.foldlM addMigration? false
  | .list values => (["auto_approve"].zip values).foldlM addMigration? false
  | _ => none

def addMember? (settings : Settings) : String × Value → Option Settings
  | ("dialect", value) => (dialectOf? value).map fun dialect => { settings with dialect }
  | ("annotations", value) => (keysOf? value).map fun keys => { settings with keys }
  | ("migrate", value) => (migrationOf? value).map fun autoApprove => { settings with autoApprove }
  | _ => none

def ofToml (text : String) : Except SchemaError Settings := do
  match (Toml.document? text.toList).bind fun table => table.members.foldlM addMember? {} with
  | none => .error .toml
  | some settings =>
    settings.keys.validate
    .ok settings

end Settings

end SchemaDrift
