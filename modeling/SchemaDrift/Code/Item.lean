import SchemaDrift.Code.Expression
import SchemaDrift.Code.Scan
/-!
Parsers of items. Structs and modules are kept, other items are read to their end.
-/

set_option autoImplicit false

namespace SchemaDrift.Code

open SchemaDrift.Code.Parser

namespace Look

def macroStart : Look := identifier ||| words ["self", "super", "crate"] ||| mark "::"

-- Is `<` the start of parameters, and not of a type in angle brackets?
def parameters : Look :=
  mark "<" &&& (after 1 (marks [">", "#"] ||| word "const")
    ||| (after 1 (lifetime ||| identifier) &&& after 2 (marks [">", ",", "="] ||| colon)))

end Look

/-! ### Visibility -/

namespace Parser

def scope : Parser Unit := do
  if ← keyword? "in" then discard modulePath
  else
    expect (.words ["crate", "self", "super"])
    if !(← atEnd) then fail

-- Parentheses behind `pub` may also be the type of a field.
def visibility : Parser Bool := do
  if ← keyword? "pub" then
    let _ ← attempt (inside .paren scope)
    return true
  else return false

-- Is a function next, behind the keywords that can stand in front of it? Nothing is read.
def seesFunction : Parser Bool := do
  let cursor ← get
  for text in ["const", "async", "unsafe"] do
    let _ ← keyword? text
  let _ ← attempt convention
  let found ← sees (.word "fn")
  set cursor
  return found

def useName : Parser Unit := do
  if ← keyword? "as" then expect (.identifier ||| .word "_")

def externCrate : Parser Unit := do
  keyword "extern"
  keyword "crate"
  expect (.identifier ||| .word "self")
  useName
  mark ";"

def macroBody : Parser Unit := do
  let braced ← sees (.group .brace)
  anyGroup
  if !braced then mark ";"

def macroCall : Parser Unit := do
  let _ ← modulePath
  mark "!"
  if ← sees (.identifier ||| .word "try") then drop 1
  macroBody

def macroDeclaration : Parser Unit := do
  keyword "macro"
  let _ ← identifier
  if ← sees (.group .paren) then drop 1
  expect (.group .brace)

-- What is used of a module; the depth of braces is limited by `count`.
def useTree : Nat → Parser Unit
  | 0 => fail
  | count + 1 => do
    if ← sees (.identifier ||| .words ["self", "super", "crate", "try"]) then
      drop 1
      if ← mark? "::" then useTree count else useName
    else if ← mark? "*" then return
    else if ← sees (.group .brace) then
      discard <| inside .brace <| commaSeparated do
        let _ ← mark? "::"
        useTree count
    else fail

def useItem : Parser Unit := do
  let _ ← visibility
  keyword "use"
  let _ ← mark? "::"
  useTree ((← get).rest.length + 1)
  mark ";"

end Parser

namespace Nested

variable (nested : Nested)

/-! ### Functions -/

def receiver : Parser Unit := do
  let byReference ← mark? "&"
  if byReference then discard lifetime?
  let _ ← keyword? "mut"
  keyword "self"
  if !byReference then
    if ← mark? ":" then discard <| nested.type true

-- A parameter, and whether it ends the list of them. Only the first one can be the receiver.
def parameter (first : Bool) : Parser Bool := do
  let _ ← nested.attributes
  if ← mark? "..." then return true
  let start ← get
  if (← attempt nested.receiver).isSome then
    if first then return false
    set start
    fail
  if ← sees (.identifier &&& .after 1 (.mark "<")) then
    let _ ← nested.type true
    return false
  nested.pattern false
  mark ":"
  if ← mark? "..." then return true
  let _ ← nested.type true
  return false

def parameters : Parser Unit := do
  let whole := (← get).rest.length
  discard <| repeated do
    if ← atEnd then return (none, false)
    let first := (← get).rest.length = whole
    let last ← nested.parameter first
    if ← atEnd then return (some (), false)
    mark ","
    return (some (), !last)

def signature : Parser Unit := do
  for text in ["const", "async", "unsafe"] do
    let _ ← keyword? text
  if ← sees (.word "extern") then convention
  keyword "fn"
  let _ ← identifier
  nested.generics
  inside .paren nested.parameters
  let _ ← nested.returnType true
  nested.whereClause

def function : Parser Unit := do
  let _ ← visibility
  nested.signature
  if !(← mark? ";") then nested.attributedBlock

/-! ### Structs and enumerations -/

def namedField : Parser Field := do
  let attributes ← nested.attributes
  let _ ← visibility
  let start ← position
  let name ← if ← keyword? "_" then pure "_" else identifier
  mark ":"
  let (type, trees) ← withTrees (nested.type true)
  let text := (TokenTree.listText trees).toList.filter (· ≠ ' ')
  return { attributes, name, start, type, typeText := String.ofList text }

def namedFields : Parser (List Field) := inside .brace (commaSeparated nested.namedField)

def unnamedField : Parser Unit := do
  let _ ← nested.attributes
  let _ ← visibility
  discard <| nested.type true

def unnamedFields : Parser Unit := discard <| inside .paren (commaSeparated nested.unnamedField)

def structBody : Parser (Option (List Field)) := do
  let restricted ← sees (.word "where")
  nested.whereClause
  if !restricted && (← sees (.group .paren)) then
    nested.unnamedFields
    nested.whereClause
    mark ";"
    return none
  else if ← mark? ";" then return none
  else return some (← nested.namedFields)

def struct (attributes : List Attribute) : Parser Struct := do
  let _ ← visibility
  keyword "struct"
  let start ← position
  let name ← identifier
  nested.generics
  return { attributes, name, start, fields? := ← nested.structBody }

def variant : Parser Unit := do
  let _ ← nested.attributes
  let _ ← visibility
  let _ ← identifier
  if ← sees (.group .brace) then discard nested.namedFields
  else if ← sees (.group .paren) then nested.unnamedFields
  if ← mark? "=" then nested.expression true

def enumeration : Parser Unit := do
  let _ ← visibility
  keyword "enum"
  let _ ← identifier
  nested.generics
  nested.whereClause
  discard <| inside .brace (commaSeparated nested.variant)

def union : Parser Unit := do
  let _ ← visibility
  keyword "union"
  let _ ← identifier
  nested.generics
  nested.whereClause
  discard nested.namedFields

/-! ### Constants, statics and types -/

def value? : Parser Unit := do
  if ← mark? "=" then nested.expression true

def static : Parser Unit := do
  let _ ← visibility
  keyword "static"
  let _ ← keyword? "mut"
  let _ ← identifier
  if ← mark? ":" then discard <| nested.type true
  else if !(← sees (.mark "=")) then fail
  nested.value?
  mark ";"

def constantItem : Parser Unit := do
  let _ ← visibility
  keyword "const"
  expect (.identifier ||| .word "_")
  nested.generics
  if ← mark? ":" then discard <| nested.type true
  else if !(← sees (.mark "=")) then fail
  nested.value?
  nested.whereClause
  mark ";"

def typeAlias : Parser Unit := do
  let _ ← visibility
  let _ ← keyword? "default"
  keyword "type"
  let _ ← identifier
  nested.generics
  if ← mark? ":" then nested.boundsUntil (.word "where" ||| .marks ["=", ";"])
  nested.whereClause
  if ← mark? "=" then discard <| nested.type true
  nested.whereClause
  mark ";"

/-! ### Traits, implementations and foreign modules -/

def associatedItem : Parser Unit := do
  let _ ← nested.attributes
  let start ← get
  let visible ← visibility
  let defaulted ← if ← sees (.word "default" &&& .not (.after 1 (.mark "!"))) then keyword? "default"
    else pure false
  if ← seesFunction then nested.function
  else if ← sees (.word "const") then nested.constantItem
  else if ← sees (.word "static") then nested.static
  else if ← sees (.word "type") then nested.typeAlias
  else if !visible && !defaulted && (← sees .macroStart) then
    set start
    macroCall
  else fail

def foreignItem : Parser Unit := do
  let start ← get
  let _ ← nested.attributes
  let _ ← visibility
  if ← sees (.words ["safe", "unsafe"] &&& .after 1 (.word "static")) then
    drop 1
    nested.static
  else if ← sees (.word "safe" &&& .after 1 (.words ["extern", "fn"])) then
    drop 1
    nested.function
  else
    set start
    nested.associatedItem

def itemsInside (item : Parser Unit) : Parser Unit :=
  inside .brace do
    nested.innerAttributes
    discard <| untilEnd item

def trait : Parser Unit := do
  let _ ← visibility
  let _ ← keyword? "unsafe"
  let _ ← keyword? "auto"
  keyword "trait"
  let _ ← identifier
  nested.generics
  if ← mark? "=" then
    nested.boundsUntil (.word "where" ||| .mark ";")
    nested.whereClause
    mark ";"
  else
    if ← mark? ":" then nested.boundsUntil (.word "where" ||| .group .brace)
    nested.whereClause
    nested.itemsInside nested.associatedItem

def implementation : Parser Unit := do
  let _ ← visibility
  let _ ← keyword? "default"
  let _ ← keyword? "unsafe"
  keyword "impl"
  if ← sees .parameters then nested.generics
  if ← sees (.word "const" ||| (.mark "?" &&& .after 1 (.word "const"))) then
    let _ ← mark? "?"
    keyword "const"
  if ← sees (.mark "!" &&& .not (.after 1 (.group .brace))) then mark "!"
  let _ ← nested.type true
  if ← keyword? "for" then discard <| nested.type true
  nested.whereClause
  nested.itemsInside nested.associatedItem

def foreignModule : Parser Unit := do
  let _ ← visibility
  let _ ← keyword? "unsafe"
  convention
  nested.itemsInside nested.foreignItem

/-! ### Items -/

def module : Parser Item := do
  let _ ← visibility
  let _ ← keyword? "unsafe"
  keyword "mod"
  if !(← keyword? "try") then discard identifier
  if ← mark? ";" then return .other
  let items ← inside .brace do
    nested.innerAttributes
    untilEnd nested.item
  return .module items

def externItem : Parser Unit := do
  let start ← get
  let _ ← visibility
  keyword "extern"
  if ← sees (.word "crate") then
    set start
    let _ ← visibility
    externCrate
  else if ← sees (.group .brace ||| (.text &&& .after 1 (.group .brace))) then
    set start
    nested.foreignModule
  else
    if ← sees .text then drop 1
    fail

def unsafeItem : Parser Item := do
  let start ← get
  let _ ← visibility
  keyword "unsafe"
  let next := (← get).rest
  if Look.word "trait" next || (Look.word "auto" &&& Look.after 1 (.word "trait")) next then
    set start
    nested.trait
    return .other
  else if Look.word "impl" next then
    set start
    nested.implementation
    return .other
  else if Look.word "extern" next then
    set start
    nested.foreignModule
    return .other
  else if Look.word "mod" next then
    set start
    nested.module
  else fail

def itemBody : Parser Item := do
  let attributes ← nested.attributes
  let start ← get
  let visible ← visibility
  let next := (← get).rest
  let isFunction ← seesFunction
  let rewound (parser : Parser Unit) : Parser Item := do
    set start
    parser
    return .other
  if isFunction then rewound nested.function
  else if Look.word "extern" next then rewound nested.externItem
  else if Look.word "use" next then rewound useItem
  else if Look.word "static" next then rewound nested.static
  else if Look.word "const" next then rewound nested.constantItem
  else if Look.word "unsafe" next then
    set start
    nested.unsafeItem
  else if Look.word "mod" next then
    set start
    nested.module
  else if Look.word "type" next then rewound nested.typeAlias
  else if Look.word "struct" next then
    set start
    return .struct (← nested.struct attributes)
  else if Look.word "enum" next then rewound nested.enumeration
  else if (Look.word "union" &&& Look.after 1 .identifier) next then rewound nested.union
  else if Look.word "trait" next then rewound nested.trait
  else if (Look.word "auto" &&& Look.after 1 (.word "trait")) next then rewound nested.trait
  else if Look.word "impl" next then rewound nested.implementation
  else if (Look.word "default" &&& .not (.after 1 (.mark "!"))) next then
    rewound nested.implementation
  else if Look.word "macro" next then
    macroDeclaration
    return .other
  else if !visible && Look.macroStart next then
    macroCall
    return .other
  else fail

end Nested

/-! ### Files -/

-- The parsers of what nests at most `depth` levels deep.
def nested : Nat → Nested
  | 0 =>
    { type := fun _ => fail, bound := fail, pattern := fun _ => fail, expression := fun _ => fail
      rangeEnd := fun _ => fail, statements := fail, arms := fail, item := fail }
  | depth + 1 =>
    { type := fun plus cursor => (nested depth).typeBody plus cursor
      bound := fun cursor => (nested depth).singleBound cursor
      pattern := fun choice cursor => (nested depth).patternBody choice cursor
      expression := fun braces cursor => (nested depth).expressionBody braces false cursor
      rangeEnd := fun braces cursor => (nested depth).expressionBody braces true cursor
      statements := fun cursor => (nested depth).statementsBody cursor
      arms := fun cursor => (nested depth).armsBody cursor
      item := fun cursor => (nested depth).itemBody cursor }

def fileBody (depth : Nat) : Parser File := do
  (nested depth).innerAttributes
  return { items := ← untilEnd (nested depth).item }

def File.ofTrees (depth : Nat) (trees : List TokenTree) : Except Nat File :=
  match fileBody depth { rest := trees, finish := 0 } with
  | .ok (file, cursor) => match cursor.leftover with
    | none => .ok file
    | some position => .error position
  | .error position => .error position

-- Every level of nesting reads at least one of a few trees, so their number bounds the depth.
def File.parse (text : List Char) : Except Nat File := do
  File.ofTrees (4 * text.length + 4) (← tokenTrees text)

end SchemaDrift.Code
