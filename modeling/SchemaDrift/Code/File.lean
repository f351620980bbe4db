import SchemaDrift.Code.Token
/-!
Files of Rust as far as tables are declared in them: structs with their attributes and fields, and
the modules around them. Positions are numbers of characters from the start of the text.
-/

set_option autoImplicit false

namespace SchemaDrift.Code

mutual

-- The type of a field, as far as a column type can follow from it.
inductive FieldType where
  | path (qualified rooted : Bool) (segments : List Segment)
  | reference (target : FieldType)
  | slice (element : FieldType)
  | paren (inner : FieldType)
  | other

-- A name in a path. Arguments in parentheses count as an empty list.
inductive Segment where
  | mk (name : String) (arguments : Option (List TypeArgument))

inductive TypeArgument where
  | type (argument : FieldType)
  | other

end

structure Quoted where
  start : Nat
  value : String
deriving DecidableEq, Repr

inductive AttributeBody where
  | none
  -- Trees in brackets, of which the closing one is at `finish`.
  | list (finish : Nat) (inner : List TokenTree)
  | text (value : Quoted)
  | flag (value : Bool)
  | value

structure Attribute where
  start : Nat
  name? : Option String
  body : AttributeBody

structure Field where
  attributes : List Attribute
  name : String
  start : Nat
  type : FieldType
  typeText : String

structure Struct where
  attributes : List Attribute
  name : String
  start : Nat
  fields? : Option (List Field)

inductive Item where
  | struct (declaration : Struct)
  | module (items : List Item)
  | other

structure File where
  items : List Item

end SchemaDrift.Code
