import SchemaDrift.Migration.Source
import SchemaDrift.Plan.Diff
import SchemaDrift.Plan.Emit
/-!
Migrations from one source to another: they are planned, shown, and written.
-/

set_option autoImplicit false

namespace SchemaDrift

def Sink.overwrites? (sink : Sink) (workspace : Workspace) (source : Source) : Option String :=
  match sink.path?, source.path? with
  | some output, some path => if workspace.same output path then some path else none
  | _, _ => none

namespace Settings

variable (settings : Settings)

def check : Except SchemaError Settings := do
  settings.keys.validate
  .ok settings

def diff (workspace : Workspace) (source destination : Source) : Except MigrationError Plan := do
  let desired ← (source.load settings workspace).mapError .schema
  let current ← (destination.load settings workspace).mapError .schema
  SchemaDrift.diff settings.dialect desired current

def generate (workspace : Workspace) (source : Source) : Except SchemaError String := do
  settings.dialect.printSchema (← source.load settings workspace)

def preview (workspace : Workspace) (source destination : Source) :
    Except MigrationError Outcome := do
  (← settings.diff workspace source destination).preview settings.dialect

def migrate (source destination : Source) (sink : Sink) (answer : Plan → Plan.Answer)
    (session : Session) : Except MigrationError Outcome × Session :=
  match sink.overwrites? session.workspace destination with
  | some path => (.error (.overwrite path), session)
  | none => match settings.diff session.workspace source destination with
    | .error e => (.error e, session)
    | .ok plan =>
      plan.apply settings.dialect { automatic := settings.autoApprove, answer } sink session

end Settings

end SchemaDrift
