/-!
Positions in a text: byte offsets in UTF-8, and lines and columns counted from one.
-/

set_option autoImplicit false

namespace SchemaDrift

-- A line and a column, both counted from one, columns in characters.
structure Location where
  line : Nat
  column : Nat
  file : Option String := none
deriving DecidableEq, Repr

def Location.text (location : Location) : String :=
  match location.file with
  | some file => s!"{file}:{location.line}:{location.column}"
  | none => s!"line {location.line}, column {location.column}"

namespace Text

def byteLength (s : List Char) : Nat := s.foldr (fun c n => c.utf8Size + n) 0

def advance (location : Location) : List Char → Location
  | [] => location
  | c :: s =>
    if c = '\n' then advance { location with line := location.line + 1, column := 1 } s
    else advance { location with column := location.column + 1 } s

def takeBytes : Nat → List Char → List Char
  | _, [] => []
  | n, c :: s => if n = 0 then [] else c :: takeBytes (n - c.utf8Size) s

-- The location of a byte offset; an offset past the end counts as the end.
def locationAt (text : List Char) (offset : Nat) : Location :=
  advance { line := 1, column := 1 } (takeBytes offset text)

def dropLines : Nat → List Char → List Char
  | 0, s => s
  | _, [] => []
  | count + 1, c :: s => if c = '\n' then dropLines count s else dropLines (count + 1) s

def offsetOf (text : List Char) (line column : Nat) : Nat :=
  let rest := dropLines (line - 1) text
  byteLength text - byteLength rest + byteLength (rest.take (column - 1))

end Text

end SchemaDrift
