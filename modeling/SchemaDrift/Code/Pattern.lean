import SchemaDrift.Code.Type
/-!
Parsers of patterns. Nothing of a pattern is kept.
-/

set_option autoImplicit false

namespace SchemaDrift.Code

open SchemaDrift.Code.Parser

namespace Look

def range : Look := mark ".."

def patternPath : Look :=
  (identifier &&& after 1 (marks ["::", "!", ".."] ||| group .brace ||| group .paren))
    ||| (word "self" &&& after 1 (mark "::"))
    ||| marks ["::", "<"] ||| words ["Self", "super", "crate"]

def member : Look := identifier ||| integer

end Look

namespace Nested

variable (nested : Nested)

def rangeEnd? : Parser Bool := do
  let stop : Look := .finish ||| .colon ||| .marks ["|", "=", ",", ";"] ||| .word "if"
  if ← sees stop then return false
  if ← sees .literal then literal
  else if ← keyword? "const" then nested.block
  else discard <| nested.path true
  return true

def rangeRest : Parser Unit := do
  let closed := (← mark? "..=") || (← mark? "...")
  if !closed then mark ".."
  if !(← nested.rangeEnd?) && closed then fail

def fieldPattern : Parser Unit := do
  let boxed ← keyword? "box"
  let byReference ← keyword? "ref"
  let mutable ← keyword? "mut"
  if boxed || byReference || mutable then discard identifier
  else if ← sees (.member &&& .after 1 .colon) then
    drop 1
    mark ":"
    nested.pattern true
  else if ← sees .integer then
    drop 1
    fail
  else discard identifier

def structPattern : Parser Unit := do
  let _ ← repeated do
    if ← atEnd then return (none, false)
    let _ ← nested.attributes
    if ← mark? ".." then return (none, false)
    nested.fieldPattern
    if ← atEnd then return (some (), false)
    mark ","
    return (some (), true)

def pathPattern : Parser Unit := do
  let path ← nested.path true
  if path.isPlain && (← sees (.mark "!" &&& .not (.mark "!="))) then
    mark "!"
    anyGroup
  else if ← sees (.group .brace) then inside .brace nested.structPattern
  else if ← sees (.group .paren) then
    discard <| inside .paren (commaSeparated (nested.pattern true))
  else if ← sees .range then nested.rangeRest

def literalPattern : Parser Unit := do
  if ← keyword? "const" then nested.block else literal
  if ← sees .range then nested.rangeRest

def namePattern : Parser Unit := do
  let _ ← keyword? "ref"
  let _ ← keyword? "mut"
  if !(← keyword? "self") then discard identifier
  if ← mark? "@" then nested.pattern false

def singlePattern : Parser Unit := do
  if ← sees .patternPath then nested.pathPattern
  else if ← keyword? "_" then return
  else if ← keyword? "box" then nested.pattern false
  else if ← sees (.literal ||| .mark "-" ||| .word "const") then nested.literalPattern
  else if ← sees (.identifier ||| .words ["ref", "mut", "self"]) then nested.namePattern
  else if ← mark? "&" then
    let _ ← keyword? "mut"
    nested.pattern false
  else if ← sees (.group .paren) then
    discard <| inside .paren (commaSeparated (nested.pattern true))
  else if ← sees (.group .bracket) then
    discard <| inside .bracket (commaSeparated (nested.pattern true))
  else if ← sees .range then nested.rangeRest
  else fail

def alternative : Look := .mark "|" &&& .not (.marks ["||", "|="])

-- With `choice`, alternatives with bars between them and perhaps one in front.
def patternBody (choice : Bool) : Parser Unit := do
  if choice then
    if ← sees alternative then mark "|"
  nested.singlePattern
  if choice then
    discard <| manyWhile alternative do
      mark "|"
      nested.singlePattern

end Nested

end SchemaDrift.Code
