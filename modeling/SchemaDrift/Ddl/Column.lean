import SchemaDrift.Ddl.Constraint
import SchemaDrift.Ddl.Type
import SchemaDrift.Dialect.Canonical
/-!
Reading columns. The clauses after the type say, one after the other, what holds of the column.
-/

set_option autoImplicit false

namespace SchemaDrift

structure ColumnFragment where
  type : ColumnType
  nullable : Bool := true
  default : Option String := none
  autoIncrement : Bool := false
  constraints : List Constraint := []
deriving DecidableEq, Repr

namespace Ddl

open Grammar (Rule Tree)

inductive ColumnClause where
  | nullable (allowed : Bool)
  | default (expression : Option String)
  | constraintName (name : String)
  | constraint (kind : ConstraintKind)
  | autoIncrement
deriving DecidableEq, Repr

-- The text of a default runs up to the next clause, with the layout before it.
def defaultExpression (dialect : Dialect) (tree : Tree) : Option String :=
  dialect.normalizeDefault (((tree.first? .defaultExpr).map Tree.text).getD [])

def columnClause (dialect : Dialect) (tree : Tree) : Except SchemaError ColumnClause := do
  let unsupported (construct : String) := Except.error (.unsupported dialect construct)
  match tree.rule with
  | .notNull => .ok (.nullable false)
  | .nullClause => .ok (.nullable true)
  | .defaultClause => .ok (.default (defaultExpression dialect tree))
  | .columnConstraintName =>
    .ok (.constraintName (((tree.first? .identifier).map (identifier dialect)).getD ""))
  | .primaryKeyClause =>
    if (tree.first? .sortOrder).any (·.has (.keyword .desc)) then
      unsupported "descending primary key column"
    else .ok (.constraint .primaryKey)
  | .uniqueClause => .ok (.constraint .unique)
  | .referencesClause => .ok (.constraint (.foreignKey (← reference dialect tree)))
  | .checkClause => .ok (.constraint (.check (checkExpression tree)))
  | .autoIncrement =>
    if dialect = .mysql then .ok .autoIncrement else unsupported "AUTO_INCREMENT"
  | .identityClause =>
    if dialect ≠ .postgres then unsupported "identity column"
    else if tree.has .parenGroup then unsupported "identity sequence options"
    else .ok .autoIncrement
  | .generatedClause => unsupported "generated column"
  | .onUpdateClause => unsupported "ON UPDATE column default"
  | .collateClause => unsupported "column COLLATE"
  | .commentClause => unsupported "column COMMENT"
  | .optionsClause => unsupported "column OPTIONS"
  | _ => unsupported "HIDDEN column"

-- Adds what the clauses say to a fragment. Constraints are on `columns`, and a name goes to the
-- first constraint after it.
def addClauses (dialect : Dialect) (columns : List String) (name : Option String)
    (fragment : ColumnFragment) : List ColumnClause → ColumnFragment
  | [] => fragment
  | .nullable allowed :: clauses =>
    addClauses dialect columns name { fragment with nullable := allowed } clauses
  | .default expression :: clauses =>
    addClauses dialect columns name { fragment with default := expression } clauses
  | .constraintName name :: clauses => addClauses dialect columns (some name) fragment clauses
  | .constraint kind :: clauses =>
    let constraint := withName dialect { columns, kind } name
    addClauses dialect columns none
      { fragment with constraints := fragment.constraints ++ [constraint] } clauses
  | .autoIncrement :: clauses =>
    addClauses dialect columns name { fragment with autoIncrement := true } clauses

def columnBody (dialect : Dialect) (columns : List String) (tree : Tree) :
    Except SchemaError ColumnFragment := do
  let spelled ← ((tree.first? .dataType).mapM (nativeType dialect))
  let spelled := spelled.getD (.plain "")
  let type ← dialect.columnType spelled
  let clauses ← ((tree.all .columnClause).flatMap Tree.children).mapM (columnClause dialect)
  .ok <| addClauses dialect columns none
    { type, autoIncrement := dialect.impliesAutoIncrement spelled } clauses

def columnDefinition (dialect : Dialect) (tree : Tree) :
    Except SchemaError (Column × List Constraint) := do
  let name := ((tree.first? .identifier).map (identifier dialect)).getD ""
  let fragment ← columnBody dialect [name] tree
  .ok
    ({ name
       type := fragment.type
       nullable := fragment.nullable
       default := fragment.default
       autoIncrement := fragment.autoIncrement }, fragment.constraints)

end Ddl

end SchemaDrift
