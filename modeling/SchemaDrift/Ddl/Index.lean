import SchemaDrift.Ddl.Name
import SchemaDrift.Schema.Column
/-!
Reading indexes and the columns of keys.
-/

set_option autoImplicit false

namespace SchemaDrift.Ddl

open Grammar (Rule Tree)

def indexColumn (dialect : Dialect) (tree : Tree) : Except SchemaError IndexColumn :=
  if tree.has .prefixLength then .error (.unsupported dialect "index prefix length")
  else .ok
    { name := ((tree.first? .identifier).map (identifier dialect)).getD ""
      descending := (tree.first? .sortOrder).any (·.has (.keyword .desc)) }

def indexColumns (dialect : Dialect) (tree : Tree) : Except SchemaError (List IndexColumn) :=
  ((tree.all .indexColumnList).flatMap (·.all .indexColumn)).mapM (indexColumn dialect)

def keyColumn (dialect : Dialect) (tree : Tree) : Except SchemaError String := do
  let column ← indexColumn dialect tree
  if column.descending then
    .error (.unsupported dialect s!"descending key column `{column.name}`")
  else .ok column.name

def keyColumns (dialect : Dialect) (tree : Tree) : Except SchemaError (List String) :=
  ((tree.all .indexColumnList).flatMap (·.all .indexColumn)).mapM (keyColumn dialect)

-- An index in the body of a table, which is named after its first column unless it has a name.
def indexDefinition (dialect : Dialect) (tree : Tree) : Except SchemaError Index := do
  if dialect ≠ .mysql then .error (.unsupported dialect "index definition inside CREATE TABLE")
  if let some kind := tree.first? .indexKind then
    .error (.unsupported dialect (Text.asciiUpper kind.text ++ " index"))
  let columns ← indexColumns dialect tree
  let given := (tree.first? .identifier).map (identifier dialect)
  .ok { name := (given.or (columns.head?.map IndexColumn.name)).getD "", columns }

structure IndexStatement where
  table : String
  index : Index
  ifNotExists : Bool

def usingClause (dialect : Dialect) (tree : Tree) : Except SchemaError Unit :=
  let method := ((tree.first? .identifier).map fun t => Text.asciiLower t.text).getD ""
  if method = "btree" then .ok () else .error (.unsupported dialect ("index method " ++ method))

def indexSuffix (dialect : Dialect) (tree : Tree) : Except SchemaError Unit :=
  tree.children.forM fun clause => match clause.rule with
    | .usingClause => usingClause dialect clause
    | .includeClause => .error (.unsupported dialect "INCLUDE columns")
    | .storingClause => .error (.unsupported dialect "STORING columns")
    | .whereClause => .error (.unsupported dialect "partial index")
    | .interleaveClause => .error (.unsupported dialect "interleaved index")
    | _ => .ok ()

def indexName (table : String) (columns : List IndexColumn) : String :=
  table ++ "_" ++ "_".intercalate (columns.map IndexColumn.name) ++ "_idx"

def indexStatement (dialect : Dialect) (tree : Tree) : Except SchemaError IndexStatement := do
  if tree.has (.keyword .nullFiltered) then .error (.unsupported dialect "NULL_FILTERED index")
  let beforeOn := tree.children.takeWhile (·.rule ≠ .keyword .on)
  let afterOn := tree.children.dropWhile (·.rule ≠ .keyword .on)
  let name? ← (beforeOn.find? (·.rule = .qualifiedName)).mapM (qualified dialect)
  let table? ← (afterOn.find? (·.rule = .qualifiedName)).mapM (qualified dialect)
  (tree.all .usingClause).forM (usingClause dialect)
  let columns ← indexColumns dialect tree
  (tree.all .indexSuffix).forM (indexSuffix dialect)
  let table := table?.getD ""
  .ok
    { table
      index :=
        { name := name?.getD (indexName table columns)
          columns
          unique := tree.has (.keyword .unique) }
      ifNotExists := tree.has .ifNotExists }

end SchemaDrift.Ddl
