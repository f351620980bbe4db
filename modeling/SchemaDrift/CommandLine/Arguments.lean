import SchemaDrift.Settings.Keys
/-!
The arguments of the program: options that every command takes, a command, its own options, and the
paths it works on. Options may also be given by variables of the environment.
-/

set_option autoImplicit false

namespace SchemaDrift.CommandLine

inductive Command where
  | generate
  | print
  | diff
  | apply
  | version
deriving DecidableEq, Repr

inductive OptionKind where
  | flag
  | text
  | path
  | dialect
  | format
deriving DecidableEq, Repr

structure OptionSpec where
  name : String
  letter : Option Char := none
  kind : OptionKind
  -- The variable of the environment that stands in for the option.
  variableName : Option String := none
  about : String
deriving DecidableEq, Repr

def formats : List (String × String) :=
  [("sql", "Rendered DDL statements"), ("json", "Operations and statements as JSON")]

def OptionKind.accepts : OptionKind → String → Bool
  | flag, value => value = "true" || value = "false"
  | text, _ => true
  | path, value => value ≠ ""
  | dialect, value => (Dialect.ofText value).isOk
  | format, value => formats.any (·.1 = value)

def sharedOptions : List OptionSpec :=
  [{ name := "dialect", kind := .dialect, variableName := some "DDLSYNC_DIALECT"
     about := "SQL dialect: postgres, mysql or spanner" },
    { name := "column-key", kind := .text, variableName := some "DDLSYNC_COLUMN_KEY"
      about := "Field attribute that renames a column" },
    { name := "ddl-key", kind := .text, variableName := some "DDLSYNC_DDL_KEY"
      about := "Attribute that carries raw DDL and table settings" },
    { name := "pk-key", kind := .text, variableName := some "DDLSYNC_PK_KEY"
      about := "Field attribute that marks primary key columns" },
    { name := "config", kind := .path, variableName := some "DDLSYNC_CONFIG"
      about := "Path to the config file (defaults to ./ddlsync.toml when present)" },
    { name := "debug", kind := .flag, variableName := some "DDLSYNC_DEBUG"
      about := "Log debug output to stderr" },
    { name := "trace", kind := .flag, variableName := some "DDLSYNC_TRACE"
      about := "Log trace output to stderr" }]

def outputOption (about : String) : OptionSpec :=
  { name := "output", letter := some 'o', kind := .path, about }

namespace Command

def all : List Command := [generate, print, diff, apply, version]

def about : Command → String
  | generate => "Generate DDL for the schema described by Rust sources"
  | print => "Parse a DDL file and print it in canonical form"
  | diff => "Show the migration from DESTINATION to SOURCE without writing it"
  | apply => "Write the migration from DESTINATION to SOURCE after confirmation"
  | version => "Display version information"

def name : Command → String
  | generate => "generate"
  | print => "show"
  | diff => "diff"
  | apply => "apply"
  | version => "version"

def ofName? (name : String) : Option Command := all.find? (·.name = name)

def paths : Command → List (String × String)
  | generate => [("SOURCE", "Rust file or directory of annotated structs (or a .sql/.ddl file)")]
  | print => [("DDL", "DDL file to parse")]
  | diff | apply =>
    [("SOURCE", "Desired schema: Rust file or directory, or a .sql/.ddl file"),
      ("DESTINATION", "Current schema: .sql/.ddl file, or Rust file or directory")]
  | version => []

def arity (command : Command) : Nat := command.paths.length

def ownOptions : Command → List OptionSpec
  | generate => [outputOption "Write the DDL to this file instead of stdout"]
  | diff => [{ name := "format", kind := .format, about := "Output format" }]
  | apply =>
    [outputOption "Write the migration to this file instead of stdout",
      { name := "auto-approve", letter := some 'y', kind := .flag
        variableName := some "DDLSYNC_AUTO_APPROVE", about := "Skip the confirmation prompt" }]
  | print | version => []

def options (command : Command) : List OptionSpec := sharedOptions ++ command.ownOptions

end Command

inductive Topic where
  | program
  | command (command : Command)
  | help
deriving DecidableEq, Repr

inductive Halt where
  | usage
  | help (topic : Topic) (long : Bool)
  | version (command : Option Command)
deriving DecidableEq, Repr

/-! ### Reading options -/

structure Level where
  values : List (String × String) := []
  paths : List String := []
  pending : Option OptionSpec := none
  plain : Bool := false
deriving DecidableEq, Repr

namespace Level

def value? (level : Level) (name : String) : Option String := level.values.lookup name

def record (level : Level) (option : OptionSpec) (value : String) : Except Halt Level :=
  if (level.value? option.name).isSome || !option.kind.accepts value then .error .usage
  else .ok { level with values := level.values ++ [(option.name, value)], pending := none }

end Level

-- Arguments with a dash in front are options, except for the dash alone.
def isOption (argument : String) : Bool := argument.startsWith "-" && argument ≠ "-"

structure Place where
  options : List OptionSpec
  command : Option Command := none

namespace Place

variable (place : Place)

def topic : Topic :=
  match place.command with
  | some command => .command command
  | none => .program

def long (level : Level) (argument : List Char) : Except Halt Level :=
  let name := String.ofList (argument.takeWhile (· ≠ '='))
  let value := match argument.dropWhile (· ≠ '=') with
    | '=' :: value => some (String.ofList value)
    | _ => none
  match place.options.find? (·.name = name), value with
  | some option, some value =>
    if option.kind = .flag then .error .usage else level.record option value
  | some option, none =>
    if option.kind = .flag then level.record option "true"
    else .ok { level with pending := some option }
  | none, some _ => .error .usage
  | none, none =>
    if name = "version" then .error (.version place.command)
    else if name = "help" then .error (.help place.topic true)
    else .error .usage

-- Options by their letters. The last one may have its value right behind it.
def letters (level : Level) : List Char → Except Halt Level
  | [] => .ok level
  | c :: rest => match place.options.find? (·.letter = some c) with
    | some option =>
      if option.kind = .flag then do letters (← level.record option "true") rest
      else match rest with
        | [] => .ok { level with pending := some option }
        | '=' :: value => level.record option (String.ofList value)
        | value => level.record option (String.ofList value)
    | none =>
      if c = 'V' then .error (.version place.command)
      else if c = 'h' then .error (.help place.topic false)
      else .error .usage

def option (level : Level) (argument : String) : Except Halt Level :=
  match level.pending with
  | some pending =>
    if isOption argument then .error .usage else level.record pending argument
  | none => match argument.toList with
    | '-' :: '-' :: name => place.long level name
    | '-' :: rest => place.letters level rest
    | _ => .error .usage

end Place

def commandLevel (command : Command) : Level → List String → Except Halt Level
  | level, [] =>
    if level.pending.isSome || level.paths.length ≠ command.arity then .error .usage else .ok level
  | level, argument :: arguments =>
    let place : Place := { options := command.options, command := some command }
    if level.plain || (level.pending.isNone && !isOption argument) then
      if argument = "" || command.arity ≤ level.paths.length then .error .usage
      else commandLevel command { level with paths := level.paths ++ [argument] } arguments
    else if argument = "--" && level.pending.isNone then
      commandLevel command { level with plain := true } arguments
    else do commandLevel command (← place.option level argument) arguments

structure Request where
  command : Command
  outer : Level
  inner : Level
deriving DecidableEq, Repr

def helpHalt : List String → Halt
  | [] => .help .program true
  | [name] => match Command.ofName? name with
    | some command => .help (.command command) true
    | none => if name = "help" then .help .help true else .usage
  | _ => .usage

def readArguments : Level → List String → Except Halt Request
  | _, [] => .error .usage
  | outer, argument :: arguments =>
    if outer.pending.isNone && !isOption argument then
      match Command.ofName? argument with
      | some command => (commandLevel command {} arguments).map ({ command, outer, inner := · })
      | none => .error (if argument = "help" then helpHalt arguments else .usage)
    else do
      let place : Place := { options := sharedOptions }
      readArguments (← place.option outer argument) arguments

/-! ### The environment -/

-- Does the variable for the option hold a value that the option refuses? Only options given on
-- the level do not look at their variables.
def refuses (environment : List (String × String)) (level : Level) (option : OptionSpec) : Bool :=
  match option.variableName.bind fun name => environment.lookup name with
  | some value => (level.value? option.name).isNone && !option.kind.accepts value
  | none => false

namespace Request

def ofArguments (environment : List (String × String)) (arguments : List String) :
    Except Halt Request := do
  let request ← readArguments {} arguments
  if sharedOptions.any (refuses environment request.outer)
      || request.command.options.any (refuses environment request.inner) then .error .usage
  else .ok request

-- The value of an option: from behind the command, from in front of it, or from the
-- environment.
def value? (environment : List (String × String)) (request : Request) (name : String) :
    Option String :=
  (request.inner.value? name).or <| (request.outer.value? name).or do
    let option ← request.command.options.find? (·.name = name)
    environment.lookup (← option.variableName)

def flag (environment : List (String × String)) (request : Request) (name : String) : Bool :=
  request.value? environment name = some "true"

end Request

end SchemaDrift.CommandLine
