import SchemaDrift.Dialect.Name
/-!
The names under which annotations are looked for.
-/

set_option autoImplicit false

namespace SchemaDrift

structure AnnotationKeys where
  column : String := "db"
  ddl : String := "ddl"
  primaryKey : String := "pk"
deriving DecidableEq, Repr

namespace AnnotationKeys

def has (keys : AnnotationKeys) (name : String) : Bool :=
  name = keys.column || name = keys.ddl || name = keys.primaryKey

def roles (keys : AnnotationKeys) : List (String × String) :=
  [("column", keys.column), ("ddl", keys.ddl), ("primary_key", keys.primaryKey)]

def validate (keys : AnnotationKeys) : Except SchemaError Unit :=
  match keys.roles.find? fun (_, key) => !isSimpleIdentifier key.toList with
  | some (role, key) =>
    .error (.config s!"annotation key for {role} must be an identifier, got `{key}`")
  | none =>
    if keys.column = keys.ddl ∨ keys.column = keys.primaryKey ∨ keys.ddl = keys.primaryKey then
      .error (.config ("annotation keys must be distinct (column = `" ++ keys.column
        ++ "`, ddl = `" ++ keys.ddl ++ "`, primary_key = `" ++ keys.primaryKey ++ "`)"))
    else .ok ()

end AnnotationKeys

def Dialect.ofText (text : String) : Except SchemaError Dialect :=
  let lower := Text.asciiLower text.toList
  match Dialect.ofName? lower with
  | some dialect => .ok dialect
  | none =>
    .error (.config s!"unknown dialect `{lower}` (expected postgres, mysql or spanner)")

end SchemaDrift
