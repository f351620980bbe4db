import SchemaDrift.Code.Literal
import SchemaDrift.Text.Blank
/-!
From the text to token trees. A text is refused where no token starts, at a closing bracket that
does not match, or at an opening bracket that is never closed.
-/

set_option autoImplicit false

namespace SchemaDrift.Code.Scan

/-! ### What separates tokens -/

def isSpace (c : Char) : Bool := Text.isBlank c || c = '\u200e' || c = '\u200f'

def line : List Char → List Char × List Char
  | [] => ([], [])
  | '\n' :: s => ([], '\n' :: s)
  | '\r' :: '\n' :: s => ([], '\n' :: s)
  | c :: s =>
    let (text, rest) := line s
    (c :: text, rest)

-- The rest of a comment inside `depth` others, without the end of the outermost one, and what
-- follows.
def blockRest? (depth : Nat) : List Char → Option (List Char × List Char)
  | [] => none
  | '/' :: '*' :: s =>
    (blockRest? (depth + 1) s).map fun (text, rest) => ('/' :: '*' :: text, rest)
  | '*' :: '/' :: s =>
    if depth = 0 then some ([], s)
    else (blockRest? (depth - 1) s).map fun (text, rest) => ('*' :: '/' :: text, rest)
  | c :: s => (blockRest? depth s).map fun (text, rest) => (c :: text, rest)

-- What follows the comment at the start of a text. Comments of documentation are none.
def afterComment? : List Char → Option (List Char)
  | '/' :: '/' :: s => match s with
    | '!' :: _ => none
    | '/' :: '/' :: _ => some (line s).2
    | '/' :: _ => none
    | s => some (line s).2
  | '/' :: '*' :: s => match s with
    | '*' :: '/' :: rest => some rest
    | '!' :: _ => none
    | '*' :: '*' :: _ => (blockRest? 0 s).map (·.2)
    | '*' :: _ => none
    | s => (blockRest? 0 s).map (·.2)
  | _ => none

def skip : Nat → List Char → List Char
  | 0, s => s
  | rounds + 1, s =>
    let s := s.dropWhile isSpace
    match afterComment? s with
    | some rest => skip rounds rest
    | none => s

-- A carriage return in documentation stands at the end of a line.
def hasLoneReturn : List Char → Bool
  | [] => false
  | c :: s => (c = '\r' && s.head? ≠ some '\n') || hasLoneReturn s

def documentation? (s : List Char) : Option (String × Bool × List Char) :=
  let found := match s with
    | '/' :: '/' :: '!' :: s =>
      let (text, rest) := line s
      some (text, true, rest)
    | '/' :: '*' :: '!' :: s => (blockRest? 0 s).map fun (text, rest) => (text, true, rest)
    | '/' :: '/' :: '/' :: '/' :: _ => none
    | '/' :: '/' :: '/' :: s =>
      let (text, rest) := line s
      some (text, false, rest)
    | '/' :: '*' :: '*' :: '*' :: _ | '/' :: '*' :: '*' :: '/' :: _ => none
    | '/' :: '*' :: '*' :: s => (blockRest? 0 s).map fun (text, rest) => (text, false, rest)
    | _ => none
  match found with
  | some (text, inner, rest) =>
    if hasLoneReturn text then none else some (String.ofList text, inner, rest)
  | none => none

/-! ### Tokens -/

def isMark (c : Char) : Bool := "~!@#$%^&*-=+|;:,<.>/?'".toList.contains c

def atMark : List Char → Bool
  | '/' :: '/' :: _ | '/' :: '*' :: _ => false
  | c :: _ => isMark c
  | [] => false

-- Raw identifiers cannot stand for the words that lead through modules.
def rawExcluded : List String := ["_", "super", "self", "Self", "crate"]

def anyWord? (s : List Char) : Option (String × List Char) :=
  match s with
  | 'r' :: '#' :: rest => match Literal.word? rest with
    | some (name, rest) =>
      let name := String.ofList name
      if name ∈ rawExcluded then none else some ("r#" ++ name, rest)
    | none => none
  | s => (Literal.word? s).map fun (name, rest) => (String.ofList name, rest)

def literalStarts : List String :=
  ["r\"", "r#\"", "r##", "b\"", "b'", "br\"", "br#", "c\"", "cr\"", "cr#"]

def plainWord? (s : List Char) : Option (String × List Char) :=
  if literalStarts.any (·.toList.isPrefixOf s) then none else anyWord? s

-- A lifetime, behind its quote. No quote or `#` may follow it.
def lifetime? (s : List Char) : Option (String × List Char) :=
  match anyWord? s with
  | some (name, rest) => match rest with
    | '\'' :: _ => none
    | '#' :: _ => if ['r', '#'].isPrefixOf s then some (name, rest) else none
    | _ => some (name, rest)
  | none => none

def token? (s : List Char) : Option (Token × List Char) :=
  match Literal.read? s with
  | some (kind, rest) =>
    some (.literal kind (String.ofList (s.take (s.length - rest.length))), rest)
  | none => match s with
    | '\'' :: s => (lifetime? s).map fun (name, rest) => (.lifetime name, rest)
    | c :: rest =>
      if atMark s then some (.mark c (atMark rest), rest)
      else (plainWord? s).map fun (name, rest) => (.word name, rest)
    | [] => none

/-! ### Trees -/

-- A bracket that is open: where it stands, and what was read before it, last tree first.
structure Frame where
  start : Nat
  delimiter : Delimiter
  before : List TokenTree

def opening? : Char → Option Delimiter
  | '(' => some .paren
  | '[' => some .bracket
  | '\x7b' => some .brace
  | _ => none

def closing? : Char → Option Delimiter
  | ')' => some .paren
  | ']' => some .bracket
  | '\x7d' => some .brace
  | _ => none

-- A comment of documentation is the attribute `#[doc = "..."]`, all of it where the comment
-- starts. The trees come last one first.
def documentationTrees (start : Nat) (text : String) (inner : Bool) : List TokenTree :=
  let value := .literal (.text text) ("\"" ++ text ++ "\"")
  let content := [.token start (.word "doc"), .token start (.mark '=' false), .token start value]
  let pound := TokenTree.token start (.mark '#' false)
  let bang := TokenTree.token start (.mark '!' false)
  .group start start .bracket content :: (if inner then [bang, pound] else [pound])

-- Reads the rest `s` of a text of `total` characters; each of the rounds reads a part of it.
-- An error is a position.
def trees (total : Nat) : Nat → List Frame → List TokenTree → List Char →
    Except Nat (List TokenTree)
  | 0, _, _, s => .error (total - s.length)
  | rounds + 1, frames, before, s =>
    let s := skip s.length s
    let start := total - s.length
    match documentation? s with
    | some (text, inner, rest) =>
      trees total rounds frames (documentationTrees start text inner ++ before) rest
    | none => match s with
      | [] => match frames with
        | [] => .ok before.reverse
        | frame :: _ => .error frame.start
      | c :: rest => match opening? c with
        | some delimiter => trees total rounds ({ start, delimiter, before } :: frames) [] rest
        | none => match closing? c with
          | some delimiter => match frames with
            | frame :: frames =>
              if frame.delimiter = delimiter then
                let group := .group frame.start start delimiter before.reverse
                trees total rounds frames (group :: frame.before) rest
              else .error start
            | [] => .error start
          | none => match token? s with
            | some (token, rest) =>
              trees total rounds frames (.token start token :: before) rest
            | none => .error start

end Scan

/-- The token trees of a text, or the position at which it is refused. A byte order mark in front
is no token, but counts for positions. -/
def tokenTrees (text : List Char) : Except Nat (List TokenTree) :=
  Scan.trees text.length (text.length + 1) [] [] (Text.dropOrderMark text)

end SchemaDrift.Code
