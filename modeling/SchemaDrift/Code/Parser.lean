import SchemaDrift.Code.File
/-!
Parsing of token trees. A parser looks a few trees ahead, never back; it fails at the tree that
nothing can be made of, or at the end of the group that is too short.
-/

set_option autoImplicit false

namespace SchemaDrift.Code

structure Cursor where
  rest : List TokenTree
  -- Where the trees end: at the closing bracket, or at zero for the whole text.
  finish : Nat
  -- The first tree that was left over in a group.
  leftover : Option Nat := none

-- An error is a position.
abbrev Parser (α : Type) := StateT Cursor (Except Nat) α

abbrev Look := List TokenTree → Bool

namespace Look

def finish : Look := List.isEmpty

def word (text : String) : Look
  | .token _ (.word t) :: _ => t = text
  | _ => false

def anyWord : Look
  | .token _ (.word _) :: _ => true
  | _ => false

def reserved : List String :=
  ["_", "abstract", "as", "async", "await", "become", "box", "break", "const", "continue", "crate",
    "do", "dyn", "else", "enum", "extern", "false", "final", "fn", "for", "if", "impl", "in", "let",
    "loop", "macro", "match", "mod", "move", "mut", "override", "priv", "pub", "ref", "return",
    "Self", "self", "static", "struct", "super", "trait", "true", "try", "type", "typeof",
    "unsafe", "unsized", "use", "virtual", "where", "while", "yield"]

def identifier : Look
  | .token _ (.word text) :: _ => !reserved.contains text
  | _ => false

def lifetime : Look
  | .token _ (.lifetime _) :: _ => true
  | _ => false

-- What follows the punctuation, all of whose characters but the last are joint to the next.
def dropMarks? : List Char → List TokenTree → Option (List TokenTree)
  | [], trees => some trees
  | [c], .token _ (.mark d _) :: trees => if c = d then some trees else none
  | c :: cs, .token _ (.mark d true) :: trees => if c = d then dropMarks? cs trees else none
  | _, _ => none

def mark (text : String) : Look := fun trees => (dropMarks? text.toList trees).isSome

def group (delimiter : Delimiter) : Look
  | .group _ _ d _ :: _ => d = delimiter
  | _ => false

def anyGroup : Look
  | .group .. :: _ => true
  | _ => false

def integer : Look
  | .token _ (.literal .integer _) :: _ => true
  | _ => false

def text : Look
  | .token _ (.literal (.text _) _) :: _ => true
  | _ => false

def literal : Look
  | .token _ (.literal ..) :: _ => true
  | .token _ (.word text) :: _ => text = "true" || text = "false"
  | .token _ (.mark '-' _) :: .token _ (.literal kind _) :: _ => kind = .integer || kind = .float
  | _ => false

def after (count : Nat) (look : Look) : Look := fun trees => look (trees.drop count)

def or (a b : Look) : Look := fun trees => a trees || b trees

def and (a b : Look) : Look := fun trees => a trees && b trees

def not (a : Look) : Look := fun trees => !a trees

instance : OrOp Look := ⟨Look.or⟩

instance : AndOp Look := ⟨Look.and⟩

def words (texts : List String) : Look
  | .token _ (.word text) :: _ => texts.contains text
  | _ => false

def marks (texts : List String) : Look := fun trees => texts.any (mark · trees)

end Look

def Cursor.position (cursor : Cursor) : Nat :=
  match cursor.rest with
  | tree :: _ => tree.start
  | [] => cursor.finish

namespace Parser

def fail {α : Type} : Parser α := fun cursor => .error cursor.position

def failAt {α : Type} (position : Nat) : Parser α := fun _ => .error position

def position : Parser Nat := return (← get).position

def sees (look : Look) : Parser Bool := return look (← get).rest

def atEnd : Parser Bool := sees .finish

def drop (count : Nat) : Parser Unit :=
  modify fun cursor => { cursor with rest := cursor.rest.drop count }

def expect (look : Look) : Parser Unit := do
  if ← sees look then drop 1 else fail

def keyword (text : String) : Parser Unit := expect (.word text)

def anyWord : Parser String := do
  match (← get).rest with
  | .token _ (.word text) :: _ => drop 1; return text
  | _ => fail

def identifier : Parser String := do
  if ← sees .identifier then anyWord else fail

def mark (text : String) : Parser Unit := do
  match Look.dropMarks? text.toList (← get).rest with
  | some rest => modify fun cursor => { cursor with rest }
  | none => fail

def keyword? (text : String) : Parser Bool := do
  if ← sees (.word text) then drop 1; return true else return false

def mark? (text : String) : Parser Bool := do
  if ← sees (.mark text) then mark text; return true else return false

def lifetime? : Parser Bool := do
  if ← sees .lifetime then drop 1; return true else return false

def literal : Parser Unit := do
  if ← sees .literal then drop (if ← sees (.mark "-") then 2 else 1) else fail

-- Reads a group; what its parser leaves over is remembered.
def inside {α : Type} (delimiter : Delimiter) (content : Parser α) : Parser α := fun cursor =>
  match cursor.rest with
  | .group start finish d inner :: rest =>
    if d = delimiter then do
      let (a, last) ← content { rest := inner, finish, leftover := cursor.leftover }
      let left := if last.rest.isEmpty then none else some last.position
      return (a, { cursor with rest, leftover := last.leftover.or left })
    else .error start
  | _ => .error cursor.position

def attempt {α : Type} (parser : Parser α) : Parser (Option α) := fun cursor =>
  match parser cursor with
  | .ok (a, cursor) => .ok (some a, cursor)
  | .error _ => .ok (none, cursor)

def withTrees {α : Type} (parser : Parser α) : Parser (α × List TokenTree) := do
  let before := (← get).rest
  let a ← parser
  let after := (← get).rest
  return (a, before.take (before.length - after.length))

/-! ### Repetition -/

def rounds {α : Type} (step : Parser (Option α × Bool)) : Nat → Parser (List α)
  | 0 => pure []
  | count + 1 => do
    let (found, more) ← step
    if more then return found.toList ++ (← rounds step count) else return found.toList

-- Enough rounds for steps that read at least one tree unless they are the last.
def repeated {α : Type} (step : Parser (Option α × Bool)) : Parser (List α) := do
  rounds step ((← get).rest.length + 1)

def manyWhile {α : Type} (look : Look) (parser : Parser α) : Parser (List α) :=
  repeated do
    if ← sees look then return (some (← parser), true) else return (none, false)

def untilEnd {α : Type} (parser : Parser α) : Parser (List α) := manyWhile (.not .finish) parser

-- Copies with a separator between them up to a place where the look holds, which may also be
-- right behind a separator.
def separatedUntil {α : Type} (stop : Look) (separator : String) (parser : Parser α) :
    Parser (List α) :=
  repeated do
    if ← sees stop then return (none, false)
    let a ← parser
    if ← sees stop then return (some a, false)
    mark separator
    return (some a, true)

def commaSeparated {α : Type} (parser : Parser α) : Parser (List α) :=
  separatedUntil .finish "," parser

-- Copies with a separator between them, as long as a separator follows; none at a place where the
-- look holds.
def separatedWhile {α : Type} (stop : Look) (separator : String) (parser : Parser α) :
    Parser (List α) :=
  repeated do
    if ← sees stop then return (none, false)
    let a ← parser
    return (some a, ← mark? separator)

end Parser

structure Nested where
  -- A type; with `plus` it may be a sum of bounds.
  type (plus : Bool) : Parser FieldType
  bound : Parser Unit
  -- A pattern; without `choice` it has no alternatives.
  pattern (choice : Bool) : Parser Unit
  -- An expression; with `braces` a struct may be built in it.
  expression (braces : Bool) : Parser Unit
  -- The end of a range, which is no range or assignment.
  rangeEnd (braces : Bool) : Parser Unit
  statements : Parser Unit
  arms : Parser Unit
  item : Parser Item

end SchemaDrift.Code
