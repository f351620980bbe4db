import SchemaDrift.Text.Blank
/-!
Check expressions are compared without the white space outside string literals and without
parentheses around the whole.
-/

set_option autoImplicit false

namespace SchemaDrift.Check

-- Drops the white space outside single quotes; `quoted` says whether the text starts inside.
def dropBlanks (quoted : Bool) : List Char → List Char
  | [] => []
  | c :: s =>
    let inside := if c = '\'' then !quoted else quoted
    if inside || !Text.isBlank c then c :: dropBlanks inside s else dropBlanks inside s

def balancedFrom (depth : Nat) : List Char → Bool
  | [] => depth = 0
  | '(' :: s => balancedFrom (depth + 1) s
  | ')' :: s => match depth with
    | 0 => false
    | depth + 1 => balancedFrom depth s
  | _ :: s => balancedFrom depth s

def balanced (s : List Char) : Bool := balancedFrom 0 s

def unwrap? : List Char → Option (List Char)
  | '(' :: s =>
    if s.getLast? = some ')' ∧ balanced s.dropLast then some s.dropLast else none
  | _ => none

theorem unwrap?_length {s inner : List Char} (h : unwrap? s = some inner) :
    inner.length < s.length := by
  unfold unwrap? at h
  split at h
  · split at h
    · cases h
      simp only [List.length_dropLast, List.length_cons]
      omega
    · cases h
  · cases h

def stripParens (s : List Char) : List Char :=
  match _h : unwrap? s with
  | some inner => stripParens inner
  | none => s
termination_by s.length
decreasing_by exact unwrap?_length _h

def squeeze (expression : String) : List Char :=
  stripParens (dropBlanks false expression.toList)

end SchemaDrift.Check
