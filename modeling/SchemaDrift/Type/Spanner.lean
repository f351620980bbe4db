import SchemaDrift.Error
import SchemaDrift.Type.Change
import SchemaDrift.Type.Native
/-!
The types of Spanner: reading a native type, and the native type for a column type.
-/

set_option autoImplicit false

namespace SchemaDrift.Spanner

def plainBase? : String → Option BaseType
  | "BOOL" => some .boolean
  | "INT64" => some .bigInt
  | "FLOAT32" => some .real
  | "FLOAT64" => some .double
  | "NUMERIC" => some .decimal
  | "DATE" => some .date
  | "TIMESTAMP" => some .timestampTz
  | "JSON" => some .json
  | _ => none

def string? : List TypeArg → Option ColumnType
  | [.number n] => some (.varchar n)
  | [.max] => some { base := .text }
  | _ => none

def bytes? : List TypeArg → Option ColumnType
  | [arg] => arg.length?.map fun length => { base := .bytes, length := some length }
  | _ => none

def scalarType? (spelled : NativeType) : Option ColumnType :=
  match plainBase? spelled.name with
  | some base => if spelled.args = [] then some { base } else none
  | none => match spelled.name with
    | "STRING" => string? spelled.args
    | "BYTES" => bytes? spelled.args
    | _ => none

def columnType (spelled : NativeType) : Except SchemaError ColumnType :=
  if spelled.unsigned ∨ spelled.timeZone.isSome then
    .error (.unsupported .spanner ("type " ++ spelled.sql))
  else if 1 < spelled.arrayDepth then
    .error (.unsupported .spanner ("nested array type " ++ spelled.sql))
  else match scalarType? spelled with
    | none => .error (.unsupported .spanner ("type " ++ spelled.sql))
    | some type => .ok (if spelled.arrayDepth = 1 then { type with array := true } else type)

def unbounded (name : String) : NativeType := { name, args := [.max] }

-- There is no type for a time of day.
def scalarNative? (type : ColumnType) : Option NativeType :=
  match type.base with
  | .boolean => some (.plain "BOOL")
  | .smallInt | .integer | .bigInt => some (.plain "INT64")
  | .real => some (.plain "FLOAT32")
  | .double => some (.plain "FLOAT64")
  | .decimal => some (.plain "NUMERIC")
  | .char => match type.length with
    | some (.fixed n) => some (.sized "STRING" n)
    | some .max => some (unbounded "STRING")
    | none => some (.sized "STRING" 1)
  | .varchar => match type.length with
    | some (.fixed n) => some (.sized "STRING" n)
    | _ => some (unbounded "STRING")
  | .text => some (unbounded "STRING")
  | .bytes => match type.length with
    | some (.fixed n) => some (.sized "BYTES" n)
    | _ => some (unbounded "BYTES")
  | .date => some (.plain "DATE")
  | .time => none
  | .timestamp | .timestampTz => some (.plain "TIMESTAMP")
  | .json | .jsonb => some (.plain "JSON")
  | .uuid => some (.sized "STRING" 36)

def nativeType (type : ColumnType) : Except SchemaError NativeType :=
  match scalarNative? type with
  | none => .error (.unsupported .spanner "TIME type")
  | some spelled => .ok (if type.array then spelled.array else spelled)

def typeSql (spelled : NativeType) : String :=
  if 0 < spelled.arrayDepth then "ARRAY<" ++ spelled.scalarSql ++ ">" else spelled.scalarSql

def lengthBound (type : ColumnType) : Option Nat :=
  match type.length with
  | some (.fixed n) => some n
  | _ => none

def isText : TypeFamily → Bool
  | .string | .bytes => true
  | _ => false

-- Strings and bytes become each other, and the length of either only grows.
def supportsTypeChange (source target : ColumnType) : Bool :=
  if source = target then true
  else if source.array ≠ target.array then false
  else if source.base.family = target.base.family && isText source.base.family then
    compareBound (lengthBound source) (lengthBound target) ≠ .gt
  else isText source.base.family && isText target.base.family

end SchemaDrift.Spanner
