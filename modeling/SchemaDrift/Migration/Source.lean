import SchemaDrift.Code.Table
import SchemaDrift.Settings.Basic
import SchemaDrift.Workspace.Basic
/-!
Where schemas come from: structs of Rust or definitions in a dialect, given as texts or as paths.
-/

set_option autoImplicit false

namespace SchemaDrift

inductive Source where
  | rust (path : String)
  | rustText (text : String)
  | ddl (path : String)
  | ddlText (text : String)
deriving DecidableEq, Repr

namespace Source

def ofPath (workspace : Workspace) (path : String) : Except SchemaError Source :=
  if workspace.isDirectory path then .ok (rust path)
  else match (Path.extension? path).map fun extension => Text.asciiLower extension.toList with
    | some "rs" => .ok (rust path)
    | some "sql" | some "ddl" => .ok (ddl path)
    | _ => .error (.config (s!"cannot tell what `{path}` contains; expected a .rs file, "
        ++ "a directory, or a .sql/.ddl file"))

def path? : Source → Option String
  | rust path | ddl path => some path
  | rustText _ | ddlText _ => none

def describe : Source → String
  | rust path | ddl path => path
  | rustText _ => "<rust source>"
  | ddlText _ => "<ddl>"

def read (workspace : Workspace) (path : String) : Except SchemaError String :=
  match workspace.read? path with
  | some text => .ok text
  | none => .error (.unreadable path)

def fileTables (settings : Settings) (workspace : Workspace) (path : String) :
    Except SchemaError (List TableDraft) := do
  let text ← read workspace path
  Code.Origin.read
    { dialect := settings.dialect, keys := settings.keys, text := text.toList, file := some path }

def load (settings : Settings) (workspace : Workspace) : Source → Except SchemaError Schema
  | rust path => do
    let files := if workspace.isDirectory path then workspace.filesBelow path "rs" else [path]
    let tables ← files.mapM (fileTables settings workspace)
    Code.schemaOf tables.flatten
  | rustText text => do
    let origin : Code.Origin :=
      { dialect := settings.dialect, keys := settings.keys, text := text.toList }
    Code.schemaOf (← origin.read)
  | ddl path => do
    let text ← read workspace path
    settings.dialect.parse text.toList
  | ddlText text => settings.dialect.parse text.toList

end Source

end SchemaDrift
