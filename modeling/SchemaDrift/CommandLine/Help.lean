import SchemaDrift.CommandLine.Arguments
/-!
Help pages: what the program and its commands are for, and the arguments they take. In the short
form an argument and its description share a line; in the long form the description follows it.
-/

set_option autoImplicit false

namespace SchemaDrift.CommandLine

def programName : String := "ddlsync"

structure Entry where
  lead : String := ""
  name : String
  about : String
  notes : List String := []
  values : List (String × String) := []

structure Page where
  about : String
  usage : List String
  commands : List Entry := []
  paths : List Entry := []
  options : List Entry := []

def spaces (count : Nat) : String := String.ofList (List.replicate count ' ')

def padded (width : Nat) (text : String) : String := text ++ spaces (width - text.length)

def widest (texts : List String) : Nat := (texts.map String.length).foldl max 0

namespace Entry

def valueNote (entry : Entry) : List String :=
  if entry.values.isEmpty then []
  else ["[possible values: " ++ ", ".intercalate (entry.values.map (·.1)) ++ "]"]

def short (width : Nat) (entry : Entry) : String :=
  "  " ++ entry.lead ++ padded (width + 2) entry.name
    ++ " ".intercalate (entry.about :: (entry.notes ++ entry.valueNote))

def margin : String := spaces 10

def valueLine (width : Nat) (value : String × String) : String :=
  "\n" ++ margin ++ "- " ++ padded (width + 2) (value.1 ++ ":") ++ value.2

def long (entry : Entry) : String :=
  let newLine := "\n" ++ margin
  let notes := if entry.notes.isEmpty then ""
    else newLine ++ newLine ++ newLine.intercalate entry.notes
  let values := if entry.values.isEmpty then ""
    else "\n" ++ newLine ++ "Possible values:"
      ++ String.join (entry.values.map (valueLine (widest (entry.values.map (·.1)))))
  "  " ++ entry.lead ++ entry.name ++ newLine ++ entry.about ++ notes ++ values

def block (long : Bool) (heading : String) (entries : List Entry) : List String :=
  if entries.isEmpty then []
  else
    let lines := if long then entries.map Entry.long
      else entries.map (Entry.short (widest (entries.map (·.name))))
    [heading ++ ":\n" ++ (if long then "\n\n" else "\n").intercalate lines]

end Entry

namespace Page

def text (long : Bool) (page : Page) : String :=
  "\n\n".intercalate ([page.about, "Usage: " ++ " ".intercalate (programName :: page.usage)]
    ++ Entry.block false "Commands" page.commands ++ Entry.block long "Arguments" page.paths
    ++ Entry.block long "Options" page.options) ++ "\n"

end Page

namespace OptionSpec

def placeholder (spec : OptionSpec) : String :=
  "<" ++ String.ofList (spec.name.toList.map fun c => if c = '-' then '_' else c.toUpper) ++ ">"

def variableNote (environment : List (String × String)) (spec : OptionSpec) : List String :=
  (spec.variableName.map fun name =>
    "[env: " ++ name ++ "=" ++ (environment.lookup name).getD "" ++ "]").toList

def entry (environment : List (String × String)) (spec : OptionSpec) : Entry where
  lead := match spec.letter with
    | some c => "-" ++ c.toString ++ ", "
    | none => spaces 4
  name := "--" ++ spec.name ++ if spec.kind = .flag then "" else " " ++ spec.placeholder
  about := spec.about
  notes := spec.variableNote environment ++ if spec.kind = .format then ["[default: sql]"] else []
  values := if spec.kind = .format then formats else []

-- Options of one rank are listed by their letters or, without a letter, their names.
def sortKey (spec : OptionSpec) : String :=
  match spec.letter with
  | some c => c.toString
  | none => spec.name

end OptionSpec

def mergeRanks : List OptionSpec → List OptionSpec → List OptionSpec
  | a :: as, b :: bs =>
    (if a.sortKey ≤ b.sortKey then [a, b] else [b, a]) ++ mergeRanks as bs
  | [], bs => bs
  | as, [] => as

def askingEntries (detail : String) : List Entry :=
  [{ lead := "-h, ", name := "--help", about := "Print help" ++ detail },
    { lead := "-V, ", name := "--version", about := "Print version" }]

namespace Topic

def helpEntry : Entry :=
  { name := "help", about := "Print this message or the help of the given subcommand(s)" }

-- Values with descriptions are told about in the long form only.
def hasLongForm : Topic → Bool
  | command c => c.options.any (·.kind = .format)
  | program | help => false

def detail (topic : Topic) (long : Bool) : String :=
  if topic.hasLongForm then
    if long then " (see a summary with '-h')" else " (see more with '--help')"
  else ""

def page (environment : List (String × String)) (long : Bool) : Topic → Page
  | program =>
    { about := programName ++ " - keep SQL DDL in sync with annotated Rust structs"
      usage := ["[OPTIONS]", "<COMMAND>"]
      commands := (Command.all.map fun c => { name := c.name, about := c.about }) ++ [helpEntry]
      options := sharedOptions.map (·.entry environment) ++ askingEntries "" }
  | command c =>
    { about := c.about
      usage := c.name :: "[OPTIONS]" :: c.paths.map fun (name, _) => "<" ++ name ++ ">"
      paths := c.paths.map fun (name, about) => { name := "<" ++ name ++ ">", about }
      options := (mergeRanks sharedOptions c.ownOptions).map (·.entry environment)
        ++ askingEntries ((command c).detail long) }
  | help =>
    { about := helpEntry.about
      usage := ["help", "[COMMAND]..."]
      paths := [{ name := "[COMMAND]...", about := "Print help for the subcommand(s)" }] }

def text (environment : List (String × String)) (long : Bool) (topic : Topic) : String :=
  (topic.page environment long).text (long && topic.hasLongForm)

end Topic

end SchemaDrift.CommandLine
