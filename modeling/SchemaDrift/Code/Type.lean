import SchemaDrift.Code.Parser
/-!
Parsers of paths, types, bounds and type parameters.
-/

set_option autoImplicit false

namespace SchemaDrift.Code

namespace Look

def pathWord : Look := identifier ||| words ["super", "self", "Self", "crate"]

def colon : Look := mark ":" &&& not (mark "::")

def boundStart : Look :=
  anyWord ||| marks ["::", "?", "~"] ||| lifetime ||| group .paren ||| group .bracket

end Look

namespace Parser

def modulePath : Parser (Bool × List String) := do
  let rooted ← mark? "::"
  let names ← repeated do
    if ← sees .pathWord then
      let name ← anyWord
      return (some name, ← mark? "::")
    else fail
  return (rooted, names)

def anyGroup : Parser Unit := expect .anyGroup

def convention : Parser Unit := do
  keyword "extern"
  if ← sees .text then drop 1

def capture : Parser Unit := do
  keyword "use"
  mark "<"
  let _ ← separatedUntil (.mark ">") "," (expect (.lifetime ||| .identifier ||| .word "Self"))
  mark ">"

end Parser

open SchemaDrift.Code.Parser

namespace Nested

variable (nested : Nested)

def block : Parser Unit := inside .brace nested.statements

/-! ### Paths -/

def constant : Parser Unit := do
  if ← sees .literal then literal
  else if ← sees .identifier then drop 1
  else nested.block

def boundsUntil (stop : Look) : Parser Unit := discard <| separatedWhile stop "+" nested.bound

def typeArgument : Parser TypeArgument := do
  if ← sees (.lifetime &&& .not (.after 1 (.mark "+"))) then
    drop 1
    return .other
  if ← sees (.literal ||| .group .brace) then
    nested.constant
    return .other
  let argument ← nested.type true
  match argument with
  | .path false false [_] =>
    if ← mark? "=" then
      if ← sees (.literal ||| .group .brace) then nested.constant
      else discard <| nested.type true
      return .other
    if ← mark? ":" then
      nested.boundsUntil (.marks [",", ">"])
      return .other
    return .type argument
  | _ => return .type argument

def typeArguments : Parser (List TypeArgument) := do
  mark "<"
  let arguments ← separatedUntil (.mark ">") "," nested.typeArgument
  mark ">"
  return arguments

-- A name in a path with its arguments. In expressions `::` stands in front of those.
def segment (inExpression : Bool) : Parser Segment := do
  if ← sees (.words ["super", "self", "crate", "try"]) then return .mk (← anyWord) none
  let name ← if ← sees (.word "Self") then anyWord else identifier
  let direct ← sees (.mark "<" &&& .not (.mark "<="))
  if (direct && !inExpression) || (← sees (.mark "::" &&& .after 2 (.mark "<"))) then
    let _ ← mark? "::"
    return .mk name (some (← nested.typeArguments))
  else return .mk name none

def moreSegments (inExpression : Bool) : Parser (List Segment) :=
  manyWhile (.mark "::" &&& .not (.after 2 (.group .paren))) do
    mark "::"
    nested.segment inExpression

structure Path where
  qualified : Bool
  rooted : Bool
  segments : List Segment

def path (inExpression : Bool) : Parser Path := do
  if ← mark? "<" then
    let _ ← nested.type true
    let mut segments := []
    if ← keyword? "as" then
      let _ ← mark? "::"
      segments := (← nested.segment false) :: (← nested.moreSegments false)
    mark ">"
    let more ← repeated do
      mark "::"
      let segment ← nested.segment inExpression
      return (some segment, ← sees (.mark "::"))
    return { qualified := true, rooted := false, segments := segments ++ more }
  else
    let rooted ← mark? "::"
    let first ← nested.segment inExpression
    let more ← nested.moreSegments inExpression
    return { qualified := false, rooted, segments := first :: more }

def Path.isPlain (path : Path) : Bool :=
  !path.qualified && path.segments.all fun (.mk _ arguments) => arguments.isNone

def returnType (plus : Bool) : Parser (Option FieldType) := do
  if ← mark? "->" then return some (← nested.type plus) else return none

-- Arguments in parentheses behind the last segment, as functions have them. More segments may
-- follow if the type they yield is not given or in parentheses.
def callArguments : Nat → List Segment → Parser (List Segment)
  | 0, segments => pure segments
  | count + 1, segments => do
    match segments.getLast? with
    | some (.mk name none) =>
      if ← sees (.group .paren ||| (.mark "::" &&& .after 2 (.group .paren))) then
        let _ ← mark? "::"
        let _ ← inside .paren (commaSeparated (nested.type true))
        let called := segments.dropLast ++ [.mk name (some [])]
        match ← nested.returnType false with
        | none | some (.paren _) => callArguments count (called ++ (← nested.moreSegments false))
        | some _ => return called
      else return segments
    | _ => return segments

def typePath : Parser Path := do
  let path ← nested.path false
  return { path with segments := ← nested.callArguments (← get).rest.length path.segments }

/-! ### Attributes -/

def attributeValue : Parser AttributeBody := do
  match (← get).rest with
  | [.token start (.literal (.text value) _)] =>
    drop 1
    return .text { start, value }
  | [.token _ (.word "true")] =>
    drop 1
    return .flag true
  | [.token _ (.word "false")] =>
    drop 1
    return .flag false
  | _ =>
    if ← sees (.mark "#" &&& .after 1 (.group .bracket)) then fail
    nested.expression true
    return .value

def attributeContent (start : Nat) : Parser Attribute := do
  let name? ← if ← keyword? "unsafe" then pure (some "unsafe") else
    match ← modulePath with
    | (false, [name]) => pure (some name)
    | _ => pure none
  match (← get).rest with
  | .group _ finish _ inner :: _ =>
    drop 1
    return { start, name?, body := .list finish inner }
  | _ =>
    if ← mark? "=" then return { start, name?, body := ← nested.attributeValue }
    else return { start, name?, body := .none }

def attributes : Parser (List Attribute) :=
  manyWhile (.mark "#") do
    let start ← position
    mark "#"
    inside .bracket (nested.attributeContent start)

def innerAttributes : Parser Unit :=
  discard <| manyWhile (.mark "#" &&& .after 1 (.mark "!")) do
    let start ← position
    mark "#"
    mark "!"
    inside .bracket (nested.attributeContent start)

/-! ### Parameters and bounds -/

def typeParameter : Parser Unit := do
  let _ ← nested.attributes
  if ← lifetime? then
    if ← mark? ":" then
      discard <| separatedWhile (.finish ||| .marks [",", ">"]) "+" (expect .lifetime)
  else if ← keyword? "const" then
    let _ ← identifier
    mark ":"
    let _ ← nested.type true
    if ← mark? "=" then nested.constant
  else
    if !(← keyword? "_") then discard identifier
    if ← mark? ":" then nested.boundsUntil (.finish ||| .marks [",", ">", "="])
    if ← mark? "=" then discard <| nested.type true

def parameterList : Parser Unit := do
  mark "<"
  let _ ← separatedUntil (.mark ">") "," nested.typeParameter
  mark ">"

def generics : Parser Unit := do
  if ← sees (.mark "<") then nested.parameterList

def quantifier? : Parser Bool := do
  if ← keyword? "for" then
    nested.parameterList
    return true
  else return false

def conditionEnd : Look :=
  Look.finish ||| .group .brace ||| .marks [",", ";", "="] ||| .colon

def condition : Parser Unit := do
  if ← sees (.lifetime &&& .after 1 (.mark ":")) then
    drop 1
    mark ":"
    let stop := Look.finish ||| .group .brace ||| .marks [",", ";", ":", "="]
    discard <| separatedWhile stop "+" (expect .lifetime)
  else
    let _ ← nested.quantifier?
    let _ ← nested.type true
    mark ":"
    nested.boundsUntil conditionEnd

def whereClause : Parser Unit := do
  if ← keyword? "where" then discard <| separatedWhile conditionEnd "," nested.condition

def traitBound : Parser Unit := do
  let quantified ← nested.quantifier?
  if ← sees (.group .bracket) then inside .bracket (keyword "const")
  let _ ← mark? "~"
  let _ ← keyword? "const"
  if (← mark? "?") && !quantified then discard nested.quantifier?
  let _ ← mark? "::"
  let segments := (← nested.segment false) :: (← nested.moreSegments false)
  discard <| nested.callArguments 1 segments

def singleBound : Parser Unit := do
  if ← sees .lifetime then drop 1
  else if ← sees (.word "use") then capture
  else if ← sees (.group .paren) then inside .paren nested.traitBound
  else nested.traitBound

-- Bounds that stand for a type. One of them has to be more than a lifetime; otherwise they are
-- refused at `start`.
def boundSum (plus : Bool) (start : Nat) : Parser Unit := do
  let traits ← repeated do
    let isTrait ← sees (.not .lifetime)
    nested.bound
    let found := if isTrait then some () else none
    if plus && (← mark? "+") then return (found, ← sees .boundStart) else return (found, false)
  if traits.isEmpty then failAt start

/-! ### Types -/

def parenContent : Parser FieldType := do
  if ← atEnd then return .other
  if ← sees .lifetime then
    nested.boundSum true (← position)
    return .paren .other
  if ← sees (.mark "?") then
    nested.traitBound
    return .other
  let first ← nested.type true
  if ← mark? "," then
    let _ ← commaSeparated (nested.type true)
    return .other
  return .paren first

def parenType (plus : Bool) : Parser FieldType := do
  let inner ← inside .paren nested.parenContent
  match inner with
  | .paren (.path false ..) =>
    if plus && (← sees (.mark "+")) then
      let _ ← manyWhile (.mark "+") do
        mark "+"
        nested.bound
      return .other
    return inner
  | _ => return inner

def functionArgument : Parser Unit := do
  let _ ← nested.attributes
  if ← mark? "..." then return
  let named : Look := (.identifier ||| .words ["_", "self"]) &&& .after 1 .colon
  if ← sees named then
    drop 1
    mark ":"
    if ← mark? "..." then return
  discard <| nested.type true

def functionType : Parser Unit := do
  let _ ← keyword? "unsafe"
  if ← sees (.word "extern") then convention
  keyword "fn"
  let _ ← inside .paren (commaSeparated nested.functionArgument)
  discard <| nested.returnType false

-- A type that starts with a path. After a quantifier it is a sum of bounds.
def namedType (plus quantified : Bool) : Parser FieldType := do
  let path ← nested.typePath
  if path.isPlain && (← sees (.mark "!" &&& .not (.mark "!="))) then
    mark "!"
    anyGroup
    return .other
  if !path.qualified && (quantified || (plus && (← sees (.mark "+")))) then
    if plus then
      let _ ← repeated do
        if ← mark? "+" then
          if ← sees .boundStart then
            nested.bound
            return (some (), true)
        return (none, false)
    return .other
  return .path path.qualified path.rooted path.segments

def pathStart : Look := .pathWord ||| .marks ["::", "<"]

def functionStart : Look := .words ["fn", "unsafe", "extern"]

def unquantifiedType (plus : Bool) : Parser FieldType := do
  let start ← position
  if ← sees (.group .paren) then nested.parenType plus
  else if ← sees functionStart then
    nested.functionType
    return .other
  else if ← sees pathStart then nested.namedType plus false
  else if ← keyword? "dyn" then
    let _ ← mark? "*"
    nested.boundSum plus start
    return .other
  else if ← sees (.group .bracket) then
    inside .bracket do
      let element ← nested.type true
      if ← mark? ";" then
        nested.expression true
        return .other
      else return .slice element
  else if ← mark? "*" then
    expect (.words ["const", "mut"])
    let _ ← nested.type false
    return .other
  else if ← mark? "&" then
    let _ ← lifetime?
    let _ ← keyword? "mut"
    return .reference (← nested.type false)
  else if ← mark? "!" then return .other
  else if ← keyword? "impl" then
    nested.boundSum plus start
    return .other
  else if ← keyword? "_" then return .other
  else if ← sees .lifetime then
    nested.boundSum true start
    return .other
  else fail

def typeBody (plus : Bool) : Parser FieldType := do
  if ← nested.quantifier? then
    if ← sees functionStart then
      nested.functionType
      return .other
    else if ← sees .pathWord then nested.namedType plus true
    else fail
  else nested.unquantifiedType plus

end Nested

end SchemaDrift.Code
