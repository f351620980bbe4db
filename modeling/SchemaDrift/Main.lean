import SchemaDrift.CommandLine.Run
/-!
The program: it works on the files below the working directory.
-/

set_option autoImplicit false

namespace SchemaDrift.CommandLine

partial def textsBelow (before : List String) (entry : IO.FS.DirEntry) :
    IO (List (List String × String)) := do
  let components := before ++ [entry.fileName]
  try
    if ← entry.path.isDir then
      let entries ← entry.path.readDir
      return (← entries.toList.mapM (textsBelow components)).flatten
    else
      return [(components, ← IO.FS.readFile entry.path)]
  catch _ => return []

def readWorkspace : IO Workspace := do
  let entries ← (← IO.currentDir).readDir
  return { files := (← entries.toList.mapM (textsBelow [])).flatten }

def readEnvironment : IO (List (String × String)) := do
  let names := (Command.all.flatMap Command.options).filterMap (·.variableName)
  names.eraseDups.filterMapM fun name => do
    return (← IO.getEnv name).map (name, ·)

def writeChanges (before after : Workspace) : IO Unit :=
  for (path, text) in after.files do
    if before.text? path ≠ some text then IO.FS.writeFile ("/".intercalate path) text

end SchemaDrift.CommandLine

open SchemaDrift.CommandLine in
def main (arguments : List String) : IO UInt32 := do
  let workspace ← readWorkspace
  let invocation : Invocation := { arguments, environment := ← readEnvironment, workspace }
  let asked := (invocation.run "").session.asked
  let reply ← if asked.isEmpty then pure "" else do
    asked.forM fun plan => IO.eprint (question plan)
    (← IO.getStdin).getLine
  let result := invocation.run reply
  IO.print result.session.stream
  writeChanges workspace result.session.workspace
  result.notices.forM fun notice => IO.eprintln notice
  return result.exitCode.toUInt32
