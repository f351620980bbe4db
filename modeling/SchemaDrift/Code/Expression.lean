import SchemaDrift.Code.Pattern
/-!
Parsers of expressions, statements and blocks. Nothing of them is kept: an expression counts as a
row of operands with operators in between.
-/

set_option autoImplicit false

namespace SchemaDrift.Code

open SchemaDrift.Code.Parser

namespace Look

def comparison : Look := marks ["==", "!=", "<=", ">="] ||| ((mark "<" ||| mark ">")
  &&& not (marks ["<<", ">>"]))

def assignment : Look :=
  marks ["+=", "-=", "*=", "/=", "%=", "^=", "&=", "|=", "<<=", ">>="]
    ||| (mark "=" &&& not (marks ["=>", "=="]))

def shortCircuit : Look := marks ["&&", "||"]

def arithmetic : Look := marks ["<<", ">>", "+", "-", "*", "/", "%", "^", "&", "|"]

def point : Look := mark "." &&& not range

def expressionStart : Look :=
  anyWord ||| anyGroup ||| literal ||| lifetime ||| range ||| marks ["::", "#"]
    ||| (mark "!" &&& not (mark "!="))
    ||| (mark "-" &&& not (marks ["-=", "->"]))
    ||| (mark "*" &&& not (mark "*="))
    ||| (mark "|" &&& not (mark "|="))
    ||| (mark "&" &&& not (mark "&="))
    ||| (mark "<" &&& not (marks ["<=", "<<="]))

def closure : Look :=
  mark "|" ||| words ["move", "static"]
    ||| (word "for" &&& after 1 (mark "<"))
    ||| (word "const" &&& not (after 1 (group .brace)))
    ||| (word "async" &&& after 1 (mark "|" ||| word "move"))

def asyncBlock : Look :=
  word "async" &&& after 1 (group .brace ||| (word "move" &&& after 1 (group .brace)))

def blockLike : Look :=
  words ["if", "while", "loop", "match", "unsafe"] ||| group .brace ||| lifetime
    ||| (word "for" &&& not (after 1 (mark "<")))
    ||| (words ["try", "const"] &&& after 1 (group .brace))

def itemStart : Look :=
  words ["pub", "extern", "use", "fn", "mod", "type", "struct", "enum", "trait", "impl", "macro"]
    ||| (word "crate" &&& not (after 1 (mark "::")))
    ||| (word "static" &&& after 1 (word "mut" ||| identifier))
    ||| (word "const" &&& not (after 1 (group .brace ||| words ["static", "move"] ||| mark "|"))
      &&& not (after 1 (word "async") &&& not (after 2 (words ["unsafe", "extern", "fn"]))))
    ||| (word "unsafe" &&& not (after 1 (group .brace)))
    ||| (word "async" &&& after 1 (words ["unsafe", "extern", "fn"]))
    ||| (word "union" &&& after 1 identifier)
    ||| (word "auto" &&& after 1 (word "trait"))
    ||| (word "default" &&& after 1 (words ["unsafe", "impl"]))

end Look

namespace Parser

def macroRest? : Parser (Option (List TokenTree)) := do
  let cursor ← get
  let found ← attempt modulePath
  let rest := (← get).rest
  set cursor
  return if found.isSome && Look.mark "!" rest then some rest else none

end Parser

namespace Nested

variable (nested : Nested)

/-! ### Operands -/

def attributedBlock : Parser Unit :=
  inside .brace do
    nested.innerAttributes
    nested.statements

def ifRest : Nat → Parser Unit
  | 0 => fail
  | count + 1 => do
    nested.expression false
    nested.block
    if ← keyword? "else" then
      if ← keyword? "if" then ifRest count else nested.block

def keywordBlock : Parser Bool := do
  if ← keyword? "if" then
    nested.ifRest ((← get).rest.length + 1)
    return true
  if ← keyword? "while" then
    nested.expression false
    nested.attributedBlock
    return true
  if ← keyword? "for" then
    nested.pattern true
    keyword "in"
    nested.expression false
    nested.attributedBlock
    return true
  if ← keyword? "match" then
    nested.expression false
    inside .brace nested.arms
    return true
  if ← sees (.words ["loop", "unsafe", "try", "const"]) then
    drop 1
    nested.attributedBlock
    return true
  return false

def labelled : Parser Unit := do
  expect .lifetime
  mark ":"
  if ← sees (.words ["while", "for", "loop"]) then discard nested.keywordBlock
  else nested.attributedBlock

def structFields : Parser Unit := do
  let _ ← repeated do
    if ← atEnd then return (none, false)
    if ← mark? ".." then
      if !(← atEnd) then nested.expression true
      return (none, false)
    let _ ← nested.attributes
    let numbered ← sees .integer
    expect .member
    if ← sees .colon then
      mark ":"
      nested.expression true
    else if numbered then fail
    if ← atEnd then return (some (), false)
    mark ","
    return (some (), true)

def pathOperand (braces : Bool) : Parser Unit := do
  let path ← nested.path true
  if path.isPlain && (← sees (.mark "!" &&& .not (.mark "!="))) then
    mark "!"
    anyGroup
  else if braces && (← sees (.group .brace)) then inside .brace nested.structFields

def array : Parser Unit := do
  if ← atEnd then return
  nested.expression true
  if ← mark? ";" then nested.expression true
  else if ← mark? "," then discard <| commaSeparated (nested.expression true)
  else if !(← atEnd) then fail

def closureParameter : Parser Unit := do
  let _ ← nested.attributes
  nested.pattern false
  if ← mark? ":" then discard <| nested.type true

def closure (braces : Bool) : Parser Unit := do
  let _ ← nested.quantifier?
  for text in ["const", "static", "async", "move"] do
    let _ ← keyword? text
  mark "|"
  let _ ← separatedUntil (.mark "|") "," nested.closureParameter
  mark "|"
  if ← mark? "->" then
    let _ ← nested.type true
    nested.block
  else nested.expression braces

def result (braces : Bool) : Parser Unit := do
  if ← sees (.expressionStart &&& .not (fun trees => !braces && Look.group .brace trees)) then
    nested.expression braces

def memberAccess : Parser Unit := do
  match (← get).rest with
  | .token _ (.literal .float text) :: _ =>
    if text.toList.all fun c => c.isDigit || c = '.' then drop 1 else fail
  | _ =>
    if ← keyword? "await" then return
    if ← sees .integer then drop 1
    else
      let _ ← identifier
      if ← mark? "::" then discard nested.typeArguments

def trailers : Parser Unit :=
  discard <| repeated do
    if ← sees (.group .paren) then
      let _ ← inside .paren (commaSeparated (nested.expression true))
      return (some (), true)
    if ← sees (.group .bracket) then
      inside .bracket (nested.expression true)
      return (some (), true)
    if ← sees .point then
      mark "."
      nested.memberAccess
      return (some (), true)
    return (none, ← mark? "?")

def jump (braces : Bool) : Parser Unit := do
  if ← keyword? "break" then
    let _ ← lifetime?
    nested.result braces
  else if ← keyword? "continue" then discard lifetime?
  else
    expect (.words ["return", "yield", "become"])
    nested.result braces

def rangeTail (braces : Bool) : Parser Unit := do
  let closed ← mark? "..="
  if !closed then mark ".."
  let open_ : Look := .not .expressionStart ||| .word "as"
    ||| fun trees => !braces && Look.group .brace trees
  if closed || (← sees (.not open_)) then nested.rangeEnd braces

def atom (braces : Bool) : Parser Unit := do
  if ← sees .literal then literal
  else if ← sees .asyncBlock then
    drop 1
    let _ ← keyword? "move"
    nested.block
  else if ← sees .blockLike then
    if ← sees .lifetime then nested.labelled
    else if !(← nested.keywordBlock) then nested.attributedBlock
  else if ← sees .closure then nested.closure braces
  else if ← sees (.pathWord ||| .marks ["::", "<"] ||| .word "try") then nested.pathOperand braces
  else if ← sees (.group .paren) then
    discard <| inside .paren (commaSeparated (nested.expression true))
  else if ← sees (.group .bracket) then inside .bracket nested.array
  else if ← sees .range then nested.rangeTail braces
  else if ← keyword? "_" then return
  else nested.jump braces

def prefixes : Parser Unit :=
  discard <| repeated do
    let _ ← nested.attributes
    if ← mark? "&" then
      if ← sees (.word "raw" &&& .after 1 (.words ["mut", "const"])) then drop 2
      else discard <| keyword? "mut"
      return (some (), true)
    if ← sees (.marks ["*", "!", "-"]) then
      drop 1
      return (some (), true)
    if ← keyword? "let" then
      nested.pattern true
      mark "="
      return (some (), true)
    return (none, false)

def operand (braces : Bool) : Parser Unit := do
  nested.prefixes
  nested.atom braces
  nested.trailers

-- Operators and operands behind an operand. A comparison takes no other comparison as its
-- operand; `compared` tells whether the operand on the left is one.
def operators (braces ranged : Bool) : Nat → Bool → Parser Unit
  | 0, _ => pure ()
  | count + 1, compared => do
    if ranged && (← sees (.assignment ||| .range)) then return
    else if ← sees .assignment then
      for text in ["<<=", ">>=", "+=", "-=", "*=", "/=", "%=", "^=", "&=", "|=", "="] do
        if ← mark? text then break
      nested.operand braces
      operators braces ranged count false
    else if ← sees .shortCircuit then
      drop 2
      nested.operand braces
      operators braces ranged count false
    else if ← sees .arithmetic then
      if !((← mark? "<<") || (← mark? ">>")) then drop 1
      nested.operand braces
      operators braces ranged count compared
    else if ← sees .comparison then
      if compared then fail
      if ← sees (.marks ["==", "!=", "<=", ">="]) then drop 2 else drop 1
      nested.operand braces
      operators braces ranged count true
    else if ← sees .range then nested.rangeTail braces
    else if ← keyword? "as" then
      let _ ← nested.type false
      if ← sees (.point ||| .mark "?" ||| .group .bracket ||| .group .paren) then fail
      operators braces ranged count compared
    else return

-- A range without a start is no operand of anything.
def expressionBody (braces ranged : Bool) : Parser Unit := do
  let whole ← sees .range
  nested.operand braces
  if !whole then nested.operators braces ranged ((← get).rest.length + 1) false

/-! ### Statements -/

-- An expression that ends with the block it starts with, unless a field or method of that is
-- asked for. Is it more than a block, so that a separator has to follow?
def boundedExpression : Parser Bool := do
  let _ ← nested.attributes
  if ← sees .blockLike then
    if ← sees .lifetime then nested.labelled
    else if !(← nested.keywordBlock) then nested.attributedBlock
    if ← sees (.point ||| .mark "?") then
      nested.trailers
      nested.operators true false ((← get).rest.length + 1) false
      return true
    return false
  else
    nested.expression true
    return true

def armsBody : Parser Unit := do
  nested.innerAttributes
  let _ ← untilEnd do
    let _ ← nested.attributes
    nested.pattern true
    if ← keyword? "if" then nested.expression true
    mark "=>"
    let separated ← nested.boundedExpression
    if separated && !(← atEnd) then mark "," else discard <| mark? ","

def binding : Parser Unit := do
  keyword "let"
  nested.pattern false
  if ← mark? ":" then discard <| nested.type true
  if ← mark? "=" then
    nested.expression true
    if ← keyword? "else" then nested.block
  mark ";"

def statement : Parser Bool := do
  let _ ← nested.attributes
  let found ← macroRest?
  let named := found.any (Look.after 1 (.identifier ||| .word "try"))
  let braced := found.any
    (Look.after 1 (.group .brace) &&& .not (.after 2 (.point ||| .mark "?")))
  if !named && braced then
    let _ ← modulePath
    mark "!"
    anyGroup
    let _ ← mark? ";"
    return false
  if ← sees (.word "let") then
    nested.binding
    return false
  if named || (← sees .itemStart) then
    let _ ← nested.item
    return false
  let separated ← nested.boundedExpression
  return !(← mark? ";") && separated

def statementsBody : Parser Unit :=
  discard <| repeated do
    let _ ← manyWhile (.mark ";") (mark ";")
    if ← atEnd then return (none, false)
    let separated ← nested.statement
    if separated && !(← atEnd) then fail
    return (some (), true)

end Nested

end SchemaDrift.Code
