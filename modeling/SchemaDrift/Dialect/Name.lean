import SchemaDrift.Error
import SchemaDrift.Text.Blank
import SchemaDrift.Text.Case
/-!
Identifiers: how each dialect folds, quotes and resolves them.
-/

set_option autoImplicit false

namespace SchemaDrift

structure NamePart where
  text : String
  quoted : Bool := false
deriving DecidableEq, Repr

def reservedWords : List String :=
  ["ALL", "AND", "ANY", "ARRAY", "AS", "ASC", "ASSERT_ROWS_MODIFIED", "AT", "BETWEEN", "BY",
    "CASE", "CAST", "COLLATE", "CONTAINS", "CREATE", "CROSS", "CUBE", "CURRENT", "DEFAULT",
    "DEFINE", "DESC", "DISTINCT", "ELSE", "END", "ENUM", "ESCAPE", "EXCEPT", "EXCLUDE", "EXISTS",
    "EXTRACT", "FALSE", "FETCH", "FOLLOWING", "FOR", "FROM", "FULL", "GROUP", "GROUPING", "GROUPS",
    "HASH", "HAVING", "IF", "IGNORE", "IN", "INNER", "INTERSECT", "INTERVAL", "INTO", "IS", "JOIN",
    "LATERAL", "LEFT", "LIKE", "LIMIT", "LOOKUP", "MERGE", "NATURAL", "NEW", "NO", "NOT", "NULL",
    "NULLS", "OF", "ON", "OR", "ORDER", "OUTER", "OVER", "PARTITION", "PRECEDING", "PROTO",
    "RANGE", "RECURSIVE", "RESPECT", "RIGHT", "ROLLUP", "ROWS", "SELECT", "SET", "SOME", "STRUCT",
    "TABLESAMPLE", "THEN", "TO", "TREAT", "TRUE", "UNBOUNDED", "UNION", "UNNEST", "USING", "WHEN",
    "WHERE", "WINDOW", "WITH", "WITHIN"]

def isSimpleIdentifier : List Char → Bool
  | [] => false
  | c :: s => (c.isAlpha || c = '_') && s.all fun d => d.isAlphanum || d = '_'

def quoteWith (quote : Char) (name : String) : String :=
  String.ofList (quote :: Text.double quote name.toList ++ [quote])

namespace Dialect

-- PostgreSQL writes unquoted identifiers in lower case.
def fold : Dialect → NamePart → String
  | postgres, part =>
    if part.quoted then part.text else String.ofList (Text.lower part.text.toList)
  | _, part => part.text

def quote : Dialect → String → String
  | postgres, name => quoteWith '"' name
  | mysql, name => quoteWith '\x60' name
  | spanner, name =>
    if isSimpleIdentifier name.toList && !reservedWords.contains (Text.asciiUpper name.toList) then
      name
    else quoteWith '\x60' name

-- The name of a table or index. A qualifier is refused, but for `public` in PostgreSQL.
def resolve (dialect : Dialect) (parts : List NamePart) : Except SchemaError String :=
  match dialect, parts with
  | _, [name] => .ok (dialect.fold name)
  | .postgres, [qualifier, name] =>
    if fold postgres qualifier = "public" then .ok (fold postgres name) else unresolved
  | _, _ => unresolved
where
  unresolved : Except SchemaError String :=
    let name := ".".intercalate (parts.map NamePart.text)
    .error (.unsupported dialect s!"qualified name `{name}`")

def quoteList (dialect : Dialect) (names : List String) : String :=
  ", ".intercalate (names.map dialect.quote)

end Dialect

end SchemaDrift
