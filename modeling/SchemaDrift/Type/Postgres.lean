import SchemaDrift.Error
import SchemaDrift.Type.Native
/-!
The types of PostgreSQL: reading a native type, and the native type for a column type.
-/

set_option autoImplicit false

namespace SchemaDrift.Postgres

def plainBase? : String → Option BaseType
  | "SMALLINT" | "INT2" | "SMALLSERIAL" | "SERIAL2" => some .smallInt
  | "INTEGER" | "INT" | "INT4" | "SERIAL" | "SERIAL4" => some .integer
  | "BIGINT" | "INT8" | "BIGSERIAL" | "SERIAL8" => some .bigInt
  | "REAL" | "FLOAT4" => some .real
  | "DOUBLE PRECISION" | "FLOAT8" => some .double
  | "BOOLEAN" | "BOOL" => some .boolean
  | "TEXT" => some .text
  | "BYTEA" => some .bytes
  | "DATE" => some .date
  | "TIMESTAMPTZ" => some .timestampTz
  | "JSON" => some .json
  | "JSONB" => some .jsonb
  | "UUID" => some .uuid
  | _ => none

-- A float with up to 24 bits is a real.
def float? : List TypeArg → Option ColumnType
  | [] => some { base := .double }
  | [.number p] => some { base := if p ≤ 24 then .real else .double }
  | _ => none

def decimal? : List TypeArg → Option ColumnType
  | [] => some { base := .decimal }
  | [.number p] => some { base := .decimal, precision := some p }
  | [.number p, .number s] => some (.decimal p s)
  | _ => none

def varchar? : List TypeArg → Option ColumnType
  | [] => some { base := .varchar }
  | [.number n] => some (.varchar n)
  | _ => none

def scalarType? (spelled : NativeType) : Option ColumnType :=
  match plainBase? spelled.name with
  | some base =>
    if spelled.args = [] ∧ spelled.timeZone = none then some { base } else none
  | none => match spelled.name with
    | "FLOAT" => float? spelled.args
    | "NUMERIC" | "DECIMAL" => decimal? spelled.args
    | "CHAR" | "CHARACTER" | "BPCHAR" => charType? spelled.args
    | "VARCHAR" | "CHARACTER VARYING" => varchar? spelled.args
    | "TIME" =>
      if spelled.args = [] ∧ spelled.timeZone ≠ some true then some { base := .time } else none
    | "TIMESTAMP" =>
      if spelled.args ≠ [] then none
      else some { base := if spelled.timeZone = some true then .timestampTz else .timestamp }
    | _ => none

def columnType (spelled : NativeType) : Except SchemaError ColumnType :=
  if 1 < spelled.arrayDepth then
    .error (.unsupported .postgres ("multidimensional array " ++ spelled.sql))
  else match if spelled.unsigned then none else scalarType? spelled with
    | none => .error (.unsupported .postgres ("type " ++ spelled.sql))
    | some type => .ok (if spelled.arrayDepth = 1 then { type with array := true } else type)

def scalarNative (type : ColumnType) : NativeType :=
  match type.base with
  | .smallInt => .plain "SMALLINT"
  | .integer => .plain "INTEGER"
  | .bigInt => .plain "BIGINT"
  | .real => .plain "REAL"
  | .double => .plain "DOUBLE PRECISION"
  | .decimal => .decimal "NUMERIC" type.precision type.scale
  | .boolean => .plain "BOOLEAN"
  | .char => match type.length with
    | some (.fixed n) => .sized "CHAR" n
    | some .max => .plain "TEXT"
    | none => .sized "CHAR" 1
  | .varchar => match type.length with
    | some (.fixed n) => .sized "VARCHAR" n
    | _ => .plain "VARCHAR"
  | .text => .plain "TEXT"
  | .bytes => .plain "BYTEA"
  | .date => .plain "DATE"
  | .time => .plain "TIME"
  | .timestamp => .plain "TIMESTAMP"
  | .timestampTz => .plain "TIMESTAMPTZ"
  | .json => .plain "JSON"
  | .jsonb => .plain "JSONB"
  | .uuid => .plain "UUID"

def nativeType (type : ColumnType) : NativeType :=
  if type.array then (scalarNative type).array else scalarNative type

def serial? (type : ColumnType) : Option String :=
  match type.base, type.array with
  | .smallInt, false => some "SMALLSERIAL"
  | .integer, false => some "SERIAL"
  | .bigInt, false => some "BIGSERIAL"
  | _, _ => none

def mentions (word : List Char) : List Char → Bool
  | [] => word.isEmpty
  | c :: s => word.isPrefixOf (c :: s) || mentions word s

def isSerial (spelled : NativeType) : Bool := mentions "SERIAL".toList spelled.name.toList

end SchemaDrift.Postgres
