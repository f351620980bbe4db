import SchemaDrift.Text.Blank
/-!
Paths as text: components, extensions and joining.
-/

set_option autoImplicit false

namespace SchemaDrift.Path

def splitSlash (path : String) : List String := path.splitOn "/"

-- The way to a directory, last name first, after one more part of a path; `..` takes a name
-- back.
def enter (way : List String) (part : String) : List String :=
  if part = "" ∨ part = "." then way
  else if part = ".." then way.tail
  else part :: way

-- The components as they are compared: `.` counts at the start only.
def components (path : String) : List String :=
  let parts := splitSlash path
  let rest := parts.filter fun part => part ≠ "" ∧ part ≠ "."
  if parts.head? = some "." then "." :: rest else rest

def fileName? (path : String) : Option String :=
  match (components path).getLast? with
  | some name => if name = ".." ∨ name = "." then none else some name
  | none => none

-- What follows the last dot of the file name. A dot in front starts no extension.
def extension? (path : String) : Option String := do
  let name ← fileName? path
  let reversed := name.toList.reverse
  let stem := reversed.dropWhile (· ≠ '.')
  if stem.length ≤ 1 then none
  else some (String.ofList (reversed.takeWhile (· ≠ '.')).reverse)

def join (directory name : String) : String :=
  if directory = "" ∨ directory.endsWith "/" then directory ++ name else directory ++ "/" ++ name

end SchemaDrift.Path
