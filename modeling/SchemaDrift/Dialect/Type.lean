import SchemaDrift.Type.MySql
import SchemaDrift.Type.Postgres
import SchemaDrift.Type.Spanner
/-!
The type table of each dialect.
-/

set_option autoImplicit false

namespace SchemaDrift.Dialect

def columnType : Dialect → NativeType → Except SchemaError ColumnType
  | postgres => Postgres.columnType
  | mysql => MySql.columnType
  | spanner => Spanner.columnType

def nativeType : Dialect → ColumnType → Except SchemaError NativeType
  | postgres, type => .ok (Postgres.nativeType type)
  | mysql, type => MySql.nativeType type
  | spanner, type => Spanner.nativeType type

def canonicalType (dialect : Dialect) (type : ColumnType) : Except SchemaError ColumnType := do
  dialect.columnType (← dialect.nativeType type)

def nativeSql : Dialect → NativeType → String
  | spanner, spelled => Spanner.typeSql spelled
  | _, spelled => spelled.sql

def typeSql (dialect : Dialect) (type : ColumnType) : Except SchemaError String :=
  (dialect.nativeType type).map dialect.nativeSql

def typeName (dialect : Dialect) (type : ColumnType) : String :=
  match dialect.typeSql type with
  | .ok sql => sql
  | .error _ => type.text

def impliesAutoIncrement : Dialect → NativeType → Bool
  | postgres, spelled => Postgres.isSerial spelled
  | _, _ => false

def supportsTypeChange : Dialect → ColumnType → ColumnType → Bool
  | spanner, source, target => Spanner.supportsTypeChange source target
  | _, source, target => source.widensOrBecomesText target

end SchemaDrift.Dialect
