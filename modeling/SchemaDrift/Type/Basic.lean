/-!
Column types: a base type with an optional length, precision and scale, or an array of such a type.
-/

set_option autoImplicit false

namespace SchemaDrift

inductive BaseType where
  | smallInt | integer | bigInt
  | real | double
  | decimal
  | boolean
  | char | varchar | text
  | bytes
  | date | time | timestamp | timestampTz
  | json | jsonb
  | uuid
deriving DecidableEq, Repr

inductive TypeFamily where
  | integer | float | decimal | boolean | string | bytes | temporal | json | uuid
deriving DecidableEq, Repr

namespace BaseType

def name : BaseType → String
  | smallInt => "smallint"
  | integer => "integer"
  | bigInt => "bigint"
  | real => "real"
  | double => "double"
  | decimal => "decimal"
  | boolean => "boolean"
  | char => "char"
  | varchar => "varchar"
  | text => "text"
  | bytes => "bytes"
  | date => "date"
  | time => "time"
  | timestamp => "timestamp"
  | timestampTz => "timestamptz"
  | json => "json"
  | jsonb => "jsonb"
  | uuid => "uuid"

def family : BaseType → TypeFamily
  | smallInt | integer | bigInt => .integer
  | real | double => .float
  | decimal => .decimal
  | boolean => .boolean
  | char | varchar | text => .string
  | bytes => .bytes
  | date | time | timestamp | timestampTz => .temporal
  | json | jsonb => .json
  | uuid => .uuid

def hasLength : BaseType → Bool
  | char | varchar | bytes => true
  | _ => false

def isString (base : BaseType) : Bool := base.family = .string

-- Rank by width within the integers and within the floats; the other types have none.
def width : BaseType → Nat
  | smallInt => 1
  | integer => 2
  | bigInt => 3
  | real => 1
  | double => 2
  | _ => 0

end BaseType

inductive Length where
  | fixed (n : Nat)
  | max
deriving DecidableEq, Repr

namespace Length

def compare : Length → Length → Ordering
  | fixed a, fixed b => Ord.compare a b
  | fixed _, max => .lt
  | max, fixed _ => .gt
  | max, max => .eq

def text : Length → String
  | fixed n => toString n
  | max => "max"

end Length

-- A base type with its arguments. Arguments that make no sense for the base are kept, not
-- refused.
structure ColumnType where
  base : BaseType
  length : Option Length := none
  precision : Option Nat := none
  scale : Option Nat := none
  array : Bool := false
deriving DecidableEq, Repr

namespace ColumnType

def varchar (n : Nat) : ColumnType := { base := .varchar, length := some (.fixed n) }

def decimal (precision scale : Nat) : ColumnType :=
  { base := .decimal, precision := some precision, scale := some scale }

def element (ty : ColumnType) : ColumnType := { ty with array := false }

-- The greatest number of characters or bytes; `none` when there is no bound.
def capacity (ty : ColumnType) : Option Nat :=
  match ty.base, ty.length with
  | .text, _ => none
  | _, some (.fixed n) => some n
  | _, _ => none

def isUnboundedString (ty : ColumnType) : Bool :=
  !ty.array && ty.base.isString && ty.capacity.isNone

def arguments (ty : ColumnType) : String :=
  match ty.precision, ty.scale with
  | some p, some s => s!"({p},{s})"
  | some p, none => s!"({p})"
  | none, _ => ""

def text (ty : ColumnType) : String :=
  let length := match ty.length with
    | some l => "(" ++ l.text ++ ")"
    | none => ""
  ty.base.name ++ length ++ ty.arguments ++ (if ty.array then "[]" else "")

end ColumnType

end SchemaDrift
