/-!
The dialects and their names.
-/

set_option autoImplicit false

namespace SchemaDrift

inductive Dialect where
  | postgres
  | mysql
  | spanner
deriving DecidableEq, Repr

namespace Dialect

def all : List Dialect := [postgres, mysql, spanner]

def name : Dialect → String
  | postgres => "postgres"
  | mysql => "mysql"
  | spanner => "spanner"

def ofName? : String → Option Dialect
  | "postgres" | "postgresql" | "pg" => some postgres
  | "mysql" | "mariadb" => some mysql
  | "spanner" => some spanner
  | _ => none

end Dialect

end SchemaDrift
