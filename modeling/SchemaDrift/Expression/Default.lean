import SchemaDrift.Text.Blank
import SchemaDrift.Text.Case
/-!
Default expressions are kept as text in a normal form: white space collapsed, lower case outside
string literals, and no parentheses around the whole.
-/

set_option autoImplicit false

namespace SchemaDrift.Default

/-- Lower case and single spaces outside single quotes. `last` is the character written last and
`pending` says that white space was read since. -/
def collapse (quoted pending : Bool) (last : Option Char) : List Char → List Char
  | [] => []
  | c :: s =>
    if quoted then c :: collapse (c ≠ '\'') pending (some c) s
    else if Text.isBlank c then collapse false true last s
    else
      let space := if pending && last.any (· ≠ '(') && c ≠ ')' && c ≠ ',' then [' '] else []
      let lower := Text.lowerChar c
      space ++ lower ++ collapse (c = '\'') false (lower.getLast?.or last) s

def squeeze (expression : List Char) : List Char :=
  collapse false false none (Text.trim expression)

/-- Does the parenthesis that opens the text close at its last character and not before?
Parentheses in single quotes do not count. -/
def wrapsFrom (quoted : Bool) (depth : Nat) : List Char → Bool
  | [] => depth = 0
  | c :: s =>
    if c = '\'' then wrapsFrom (!quoted) depth s
    else if c = '(' ∧ !quoted then wrapsFrom quoted (depth + 1) s
    else if c = ')' ∧ !quoted then
      if depth - 1 = 0 ∧ s ≠ [] then false else wrapsFrom quoted (depth - 1) s
    else wrapsFrom quoted depth s

def unwrap? : List Char → Option (List Char)
  | '(' :: s =>
    if s.getLast? = some ')' ∧ wrapsFrom false 0 ('(' :: s) then some (Text.trim s.dropLast)
    else none
  | _ => none

theorem length_dropWhile_le (p : Char → Bool) (s : List Char) :
    (s.dropWhile p).length ≤ s.length := (List.dropWhile_sublist p).length_le

theorem length_trim_le (s : List Char) : (Text.trim s).length ≤ s.length := by
  unfold Text.trim Text.trimEnd Text.trimStart
  rw [List.length_reverse]
  refine Nat.le_trans (length_dropWhile_le _ _) ?_
  rw [List.length_reverse]
  exact length_dropWhile_le _ _

theorem unwrap?_length {s inner : List Char} (h : unwrap? s = some inner) :
    inner.length < s.length := by
  unfold unwrap? at h
  split at h
  · split at h
    · cases h
      refine Nat.lt_of_le_of_lt (length_trim_le _) ?_
      simp only [List.length_dropLast, List.length_cons]
      omega
    · cases h
  · cases h

def stripWrapped (s : List Char) : List Char :=
  match _h : unwrap? s with
  | some inner => stripWrapped inner
  | none => s
termination_by s.length
decreasing_by exact unwrap?_length _h

def stripParens (s : List Char) : List Char := stripWrapped (Text.trim s)

-- The normal form of a default; `none` when the text is empty or `NULL`.
def normalize (expression : List Char) : Option (List Char) :=
  let normal := stripParens (squeeze expression)
  if normal = [] ∨ normal = "null".toList then none else some normal

def isNumber (s : List Char) : Bool :=
  let unsigned := match s with
    | '-' :: t | '+' :: t => t
    | t => t
  let whole := unsigned.takeWhile (· ≠ '.')
  !whole.isEmpty && whole.all Char.isDigit
    && match unsigned.dropWhile (· ≠ '.') with
      | [] => true
      | _ :: fraction => !fraction.isEmpty && fraction.all Char.isDigit

-- A text between single quotes; what stands between them is not looked at.
def isQuoted (s : List Char) : Bool :=
  2 ≤ s.length && s.head? = some '\'' && s.getLast? = some '\''

def splitCast (quoted : Bool) : List Char → Option (List Char × List Char)
  | [] => none
  | c :: s =>
    if c = '\'' then (splitCast (!quoted) s).map fun (a, b) => (c :: a, b)
    else match quoted, c, s with
      | false, ':', ':' :: t => some ([], t)
      | _, _, _ => (splitCast quoted s).map fun (a, b) => (c :: a, b)

def isTypeChar (c : Char) : Bool :=
  c.isAlphanum || c = '_' || c = ' ' || c = '(' || c = ')' || c = ',' || c = '[' || c = ']'

-- Drops the cast from a literal: `'active'::text` becomes `'active'`.
def stripLiteralCast (s : List Char) : List Char :=
  match splitCast false s with
  | some (literal, type) =>
    if type.all isTypeChar ∧ (isNumber literal ∨ isQuoted literal) then literal else s
  | none => s

def keywords : List String :=
  ["true", "false", "null", "current_timestamp", "current_date", "current_time"]

def isLiteral (s : List Char) : Bool :=
  isNumber s || isQuoted s || keywords.contains (String.ofList s)

end SchemaDrift.Default
