import SchemaDrift.Workspace.Path
/-!
The files below the working directory, as far as commands read and write them.
-/

set_option autoImplicit false

namespace SchemaDrift

/-- Texts by path. The components of a path lead from the working directory to the file, and there
is no file whose path continues another one. -/
structure Workspace where
  files : List (List String × String) := []
deriving DecidableEq, Repr

namespace Workspace

def ofFiles (files : List (String × String)) : Workspace :=
  { files := files.map fun (path, text) => ((Path.splitSlash path).filter (· ≠ ""), text) }

def text? (workspace : Workspace) (path : List String) : Option String :=
  (workspace.files.find? (·.1 = path)).map (·.2)

def hasDirectory (workspace : Workspace) (path : List String) : Bool :=
  path.isEmpty || workspace.files.any fun (file, _) => path.isPrefixOf file && path ≠ file

-- Follows the parts of a path from a directory on. Only the last part may lead to a file.
def follow? (workspace : Workspace) (way : List String) : List String → Option (List String)
  | [] => some way.reverse
  | part :: parts =>
    if workspace.hasDirectory way.reverse then workspace.follow? (Path.enter way part) parts
    else none

def resolve? (workspace : Workspace) (path : String) : Option (List String) :=
  if path = "" ∨ path.startsWith "/" then none
  else workspace.follow? [] (Path.splitSlash path)

def isDirectory (workspace : Workspace) (path : String) : Bool :=
  (workspace.resolve? path).any workspace.hasDirectory

def read? (workspace : Workspace) (path : String) : Option String :=
  (workspace.resolve? path).bind workspace.text?

def isFile (workspace : Workspace) (path : String) : Bool := (workspace.read? path).isSome

def same (workspace : Workspace) (a b : String) : Bool :=
  match workspace.resolve? a, workspace.resolve? b with
  | some found, some other =>
    found = other && (workspace.hasDirectory found || (workspace.text? found).isSome)
  | _, _ => false

def put (path : List String) (text : String) :
    List (List String × String) → List (List String × String)
  | [] => [(path, text)]
  | file :: files => if file.1 = path then (path, text) :: files else file :: put path text files

def target? (workspace : Workspace) (path : String) : Option (List String × String) := do
  let parts := Path.splitSlash path
  let name ← parts.getLast?
  if name = "" ∨ name = "." ∨ name = ".." ∨ path.startsWith "/" then none
  else some (← workspace.follow? [] parts.dropLast, name)

def write? (workspace : Workspace) (path text : String) : Option Workspace := do
  let (directory, name) ← workspace.target? path
  let file := directory ++ [name]
  if workspace.hasDirectory directory && !workspace.hasDirectory file then
    some { files := put file text workspace.files }
  else none

def insertSorted (path : List String) : List (List String) → List (List String)
  | [] => [path]
  | p :: paths => if path ≤ p then path :: p :: paths else p :: insertSorted path paths

def sortPaths (paths : List (List String)) : List (List String) := paths.foldr insertSorted []

def filesBelow (workspace : Workspace) (directory extension : String) : List String :=
  let root := (workspace.resolve? directory).getD []
  let below := workspace.files.filterMap fun (file, _) =>
    if root.isPrefixOf file then some (file.drop root.length) else none
  (sortPaths below).filterMap fun relative =>
    let path := Path.join directory ("/".intercalate relative)
    if Path.extension? path = some extension then some path else none

end Workspace

end SchemaDrift
