import SchemaDrift.Ddl.Index
import SchemaDrift.Expression.Default
import SchemaDrift.Schema.Constraint
/-!
Reading constraints.
-/

set_option autoImplicit false

namespace SchemaDrift.Ddl

open Grammar (Rule Tree)

-- The action of a foreign key; any other than these four is the one it has by default.
def action? : String → Option ReferentialAction
  | "CASCADE" => some .cascade
  | "RESTRICT" => some .restrict
  | "SET NULL" => some .setNull
  | "SET DEFAULT" => some .setDefault
  | _ => none

-- The last rule for an event decides.
def actionOn (event : Grammar.Keyword) (rules : List Tree) : Option ReferentialAction :=
  (rules.reverse.find? (·.has (.keyword event))).bind fun rule =>
    (rule.first? .referentialAction).bind fun action => action? (upperText action)

def columnList (dialect : Dialect) (tree : Tree) : List String :=
  (tree.all .columnList).flatMap (identifiers dialect)

def reference (dialect : Dialect) (tree : Tree) : Except SchemaError Reference := do
  let table := (← (tree.first? .qualifiedName).mapM (qualified dialect)).getD ""
  let columns := columnList dialect tree
  let rules := tree.all .referentialRule
  if columns.isEmpty then
    .error (.unsupported dialect s!"REFERENCES {table} without a column list")
  else
    let onDelete := actionOn .delete rules
    let onUpdate := actionOn .update rules
    .ok { table, columns, onDelete, onUpdate }

def checkExpression (tree : Tree) : String :=
  let group := ((tree.first? .parenGroup).map Tree.text).getD []
  String.ofList (Default.stripParens group)

-- Gives a constraint its name. Only PostgreSQL keeps the names of primary keys.
def withName (dialect : Dialect) (constraint : Constraint) (name : Option String) : Constraint :=
  match name with
  | some name =>
    if constraint.isPrimaryKey ∧ dialect ≠ .postgres then constraint else constraint.named name
  | none => constraint

def constraintBody (dialect : Dialect) (tree : Tree) : Except SchemaError Constraint := do
  match tree.rule with
  | .primaryKeyConstraint => .ok (.primaryKey (← keyColumns dialect tree))
  | .foreignKeyConstraint => match tree.first? .referencesClause with
    | some clause => .ok (.foreignKey (columnList dialect tree) (← reference dialect clause))
    | none => .error (.unsupported dialect "empty constraint")
  | .uniqueConstraint => .ok (.unique (← keyColumns dialect tree))
  | .checkConstraint => .ok (.check [] (checkExpression tree))
  | _ => .error (.unsupported dialect "empty constraint")

-- A unique constraint may have its name after `UNIQUE`, if it has none in front.
def constraintName? (dialect : Dialect) (tree : Tree) : Option String :=
  let front := (tree.first? .constraintName).bind (·.first? .identifier)
  let inside := (tree.first? .uniqueConstraint).bind (·.first? .identifier)
  (front.or inside).map (identifier dialect)

def tableConstraint (dialect : Dialect) (tree : Tree) : Except SchemaError Constraint := do
  match tree.children.getLast? with
  | none => .error (.unsupported dialect "empty constraint")
  | some body =>
    .ok (withName dialect (← constraintBody dialect body) (constraintName? dialect tree))

end SchemaDrift.Ddl
