import SchemaDrift.CommandLine.Help
import SchemaDrift.Migration.Basic
import SchemaDrift.Report.Model
import SchemaDrift.Text.Case
/-!
Running the program: settings are put together, the command does its work on the workspace, and
the exit code tells how it went.
-/

set_option autoImplicit false

namespace SchemaDrift.CommandLine

structure Invocation where
  arguments : List String
  environment : List (String × String) := []
  workspace : Workspace := {}

structure Result where
  exitCode : Nat := 0
  session : Session
  notices : List String := []

def programVersion : String := "0.1.0"

def defaultConfiguration : String := "ddlsync.toml"

def approves (reply : String) : Bool :=
  let word := String.ofList (Text.lower (Text.trim reply.toList))
  word = "y" || word = "yes"

namespace Request

variable (environment : List (String × String)) (request : Request)

-- The settings of the configuration file. One that is named has to exist.
def configuration (workspace : Workspace) : Except SchemaError Settings :=
  match request.value? environment "config" with
  | some path => do Settings.ofToml (← Source.read workspace path)
  | none =>
    if workspace.isFile defaultConfiguration then do
      Settings.ofToml (← Source.read workspace defaultConfiguration)
    else .ok {}

-- Options win over the configuration file.
def settings (workspace : Workspace) : Except SchemaError Settings := do
  let file ← request.configuration environment workspace
  let dialect ← match request.value? environment "dialect" with
    | some name => Dialect.ofText name
    | none => .ok file.dialect
  let key (name : String) (default : String) := (request.value? environment name).getD default
  Settings.check
    { dialect
      keys :=
        { column := key "column-key" file.keys.column
          ddl := key "ddl-key" file.keys.ddl
          primaryKey := key "pk-key" file.keys.primaryKey }
      autoApprove := file.autoApprove || request.flag environment "auto-approve" }

def sink : Sink :=
  match request.value? environment "output" with
  | some path => .file path
  | none => .stream

end Request

def planReport (dialect : Dialect) (plan : Plan) (statements : List String) : Json :=
  .object [("dialect", .string dialect.name), ("summary", .string plan.summary),
    ("operations", .array (plan.operations.map .ofOperation)),
    ("statements", .strings statements)]

structure Product where
  text : String
  sink : Sink := .stream
  notices : List String := []

def generated (settings : Settings) (workspace : Workspace) (source : Source) (sink : Sink) :
    Except MigrationError Product := do
  let text ← (settings.generate workspace source).mapError .schema
  let notices := match sink with
    | .stream => []
    | .file path => ["Wrote " ++ settings.dialect.name ++ " schema to " ++ path]
  .ok { text, sink, notices }

def shown (settings : Settings) (workspace : Workspace) (source destination : Source)
    (format : Option String) : Except MigrationError Product := do
  let plan ← settings.diff workspace source destination
  let statements ← plan.render settings.dialect
  if format = some "json" then
    .ok { text := (planReport settings.dialect plan statements).text ++ "\n" }
  else if plan.isEmpty then .ok { text := "No changes\n" }
  else .ok { text := script statements, notices := [plan.summary] }

def Product.write (session : Session) (product : Product) :
    Except MigrationError (List String) × Session :=
  match session.write product.sink product.text with
  | .ok session => (.ok product.notices, session)
  | .error error => (.error error, session)

def outcomeNotices : Outcome → List String
  | .noChanges => ["No changes"]
  | .declined _ => ["Migration declined; nothing was written"]
  | .applied statements (some path) =>
    [s!"Wrote {statements.length} statement(s) to {path}"]
  | .applied _ none | .planned _ => []

namespace Request

variable (environment : List (String × String)) (request : Request)

/-- Does what the command is for. Settings come before sources, and the kinds of all sources are
known before one of them is read. -/
def run (reply : String) (session : Session) : Except MigrationError (List String) × Session :=
  let workspace := session.workspace
  let classify (path : String) : Except MigrationError Source :=
    (Source.ofPath workspace path).mapError .schema
  let settings := (request.settings environment workspace).mapError MigrationError.schema
  let write (product : Except MigrationError Product) :=
    match product with
    | .ok product => product.write session
    | .error error => (.error error, session)
  match request.command, request.inner.paths with
  | .generate, [source] => write do
    let settings ← settings
    generated settings workspace (← classify source) (request.sink environment)
  | .print, [path] => write do generated (← settings) workspace (.ddl path) .stream
  | .diff, [source, destination] => write do
    let settings ← settings
    shown settings workspace (← classify source) (← classify destination)
      (request.value? environment "format")
  | .apply, [source, destination] =>
    let prepared := do
      let settings ← settings
      let source ← classify source
      .ok (settings, source, ← classify destination)
    match prepared with
    | .error error => (.error error, session)
    | .ok (settings, source, destination) =>
      let (outcome, session) := settings.migrate source destination (request.sink environment)
        (fun _ => approves reply) session
      (outcome.map outcomeNotices, session)
  | _, _ => write (.ok
      { text := programName ++ " " ++ programVersion ++ "\n"
        notices := ["Dialects: " ++ ", ".intercalate (Dialect.all.map (·.name))] })

end Request

def Halt.text (environment : List (String × String)) : Halt → String
  | usage => ""
  | help topic long => topic.text environment long
  | version command =>
    let names := programName :: (command.map Command.name).toList
    "-".intercalate names ++ " " ++ programVersion ++ "\n"

namespace Invocation

def run (invocation : Invocation) (reply : String) : Result :=
  let start : Session := { workspace := invocation.workspace }
  match Request.ofArguments invocation.environment invocation.arguments with
  | .error .usage =>
    { exitCode := 2
      session := start
      notices := [Topic.program.text invocation.environment false] }
  | .error halt => { session := { start with stream := halt.text invocation.environment } }
  | .ok request => match request.run invocation.environment reply start with
    | (.ok notices, session) => { session, notices }
    | (.error error, session) =>
      { exitCode := 1, session := { session with stream := "" }, notices := [error.message] }

end Invocation

def question (plan : Plan) : String :=
  "Planned migration: " ++ plan.summary ++ "\n"
    ++ String.join (plan.operations.map fun operation => "  " ++ operation.text ++ "\n")
    ++ "Apply these changes? [y/N] "

end SchemaDrift.CommandLine
