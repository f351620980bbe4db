import SchemaDrift.Error
import SchemaDrift.Type.Native
/-!
The types of MySQL: reading a native type, and the native type for a column type.
-/

set_option autoImplicit false

namespace SchemaDrift.MySql

def plainBase? : String → Option BaseType
  | "BOOL" | "BOOLEAN" => some .boolean
  | "DOUBLE" | "DOUBLE PRECISION" | "REAL" => some .double
  | "TEXT" => some .text
  | "BLOB" => some .bytes
  | "DATE" => some .date
  | "TIME" => some .time
  | "DATETIME" => some .timestamp
  | "TIMESTAMP" => some .timestampTz
  | "JSON" => some .json
  | _ => none

-- Integers take a display width, which has no meaning.
def integerBase? : String → Option BaseType
  | "SMALLINT" => some .smallInt
  | "INT" | "INTEGER" => some .integer
  | "BIGINT" => some .bigInt
  | _ => none

-- A float with up to 24 bits, or without a number of bits, is a real.
def float? : List TypeArg → Option ColumnType
  | [] => some { base := .real }
  | [.number p] => some { base := if p ≤ 24 then .real else .double }
  | _ => none

-- Precision 10 and scale 0 where none is given.
def decimal? : List TypeArg → Option ColumnType
  | [] => some (.decimal 10 0)
  | [.number p] => some (.decimal p 0)
  | [.number p, .number s] => some (.decimal p s)
  | _ => none

def sized? (base : BaseType) : List TypeArg → Option ColumnType
  | [.number n] => some { base, length := some (.fixed n) }
  | _ => none

def isWidth : List TypeArg → Bool
  | [] | [.number _] => true
  | _ => false

def scalarType? (spelled : NativeType) : Option ColumnType :=
  match plainBase? spelled.name, integerBase? spelled.name with
  | some base, _ => if spelled.args = [] then some { base } else none
  | none, some base => if isWidth spelled.args then some { base } else none
  | none, none => match spelled.name with
    | "TINYINT" => if spelled.args = [.number 1] then some { base := .boolean } else none
    | "FLOAT" => float? spelled.args
    | "DECIMAL" | "NUMERIC" | "DEC" | "FIXED" => decimal? spelled.args
    | "CHAR" => charType? spelled.args
    | "VARCHAR" => sized? .varchar spelled.args
    | "VARBINARY" => sized? .bytes spelled.args
    | _ => none

def columnType (spelled : NativeType) : Except SchemaError ColumnType :=
  if 0 < spelled.arrayDepth then .error (.unsupported .mysql ("array type " ++ spelled.sql))
  else if spelled.unsigned then .error (.unsupported .mysql ("unsigned type " ++ spelled.sql))
  else match scalarType? spelled with
    | none => .error (.unsupported .mysql ("type " ++ spelled.sql))
    | some type => .ok type

def scalarNative (type : ColumnType) : NativeType :=
  match type.base with
  | .boolean => .sized "TINYINT" 1
  | .smallInt => .plain "SMALLINT"
  | .integer => .plain "INT"
  | .bigInt => .plain "BIGINT"
  | .real => .plain "FLOAT"
  | .double => .plain "DOUBLE"
  | .decimal => .decimal "DECIMAL" type.precision type.scale
  | .char => match type.length with
    | some (.fixed n) => .sized "CHAR" n
    | some .max => .plain "TEXT"
    | none => .sized "CHAR" 1
  | .varchar => match type.length with
    | some (.fixed n) => .sized "VARCHAR" n
    | _ => .plain "TEXT"
  | .text => .plain "TEXT"
  | .bytes => match type.length with
    | some (.fixed n) => .sized "VARBINARY" n
    | _ => .plain "BLOB"
  | .date => .plain "DATE"
  | .time => .plain "TIME"
  | .timestamp => .plain "DATETIME"
  | .timestampTz => .plain "TIMESTAMP"
  | .json | .jsonb => .plain "JSON"
  | .uuid => .sized "CHAR" 36

def nativeType (type : ColumnType) : Except SchemaError NativeType :=
  if type.array then .error (.unsupported .mysql ("array type " ++ type.text))
  else .ok (scalarNative type)

end SchemaDrift.MySql
