import SchemaDrift.Type.Basic
/-!
How the values of one column type fit into another.
-/

set_option autoImplicit false

namespace SchemaDrift

inductive TypeChange where
  | identical
  | widening
  | narrowing
  | incompatible
deriving DecidableEq, Repr

def TypeChange.name : TypeChange → String
  | identical => "Identical"
  | widening => "Widening"
  | narrowing => "Narrowing"
  | incompatible => "Incompatible"

-- Compares two bounds, of which a missing one is the greatest.
def compareBound : Option Nat → Option Nat → Ordering
  | some a, some b => compare a b
  | some _, none => .lt
  | none, some _ => .gt
  | none, none => .eq

def TypeChange.ofOrdering : Ordering → TypeChange
  | .lt => widening
  | .eq => identical
  | .gt => narrowing

namespace ColumnType

-- A decimal fits when neither its precision, its scale nor its integer digits shrink.
def decimalChange (source target : ColumnType) : TypeChange :=
  let sourceScale := source.scale.getD 0
  let targetScale := target.scale.getD 0
  let sourceDigits := source.precision.map (· - sourceScale)
  let targetDigits := target.precision.map (· - targetScale)
  if compareBound source.precision target.precision ≠ .gt ∧ sourceScale ≤ targetScale
      ∧ compareBound sourceDigits targetDigits ≠ .gt then .widening
  else .narrowing

def stringChange (source target : ColumnType) : TypeChange :=
  let order := compareBound source.capacity target.capacity
  if source.base = .char ∧ target.base = .char then .ofOrdering order
  else match order with
    | .gt => .narrowing
    | _ => .widening

def temporalChange : BaseType → BaseType → TypeChange
  | .date, .timestamp | .date, .timestampTz | .timestamp, .timestampTz => .widening
  | .timestamp, _ | .timestampTz, _ => .narrowing
  | _, _ => .incompatible

def classifyChange (source target : ColumnType) : TypeChange :=
  if source = target then .identical
  else if source.array ≠ target.array then .incompatible
  else match source.base.family, target.base.family with
    | .integer, .integer | .float, .float =>
      .ofOrdering (compare source.base.width target.base.width)
    | .integer, .decimal => if target.precision.isNone then .widening else .incompatible
    | .decimal, .decimal =>
      if target.precision.isNone then .widening else decimalChange source target
    | .string, .string | .bytes, .bytes => stringChange source target
    | .temporal, .temporal => temporalChange source.base target.base
    | .json, .json => .widening
    | _, _ => .incompatible

def widensOrBecomesText (source target : ColumnType) : Bool :=
  source.classifyChange target = .identical || source.classifyChange target = .widening
    || (target.isUnboundedString && source.array = target.array)

end ColumnType

end SchemaDrift
