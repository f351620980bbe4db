import SchemaDrift.Expression.Check
/-!
Constraints of a table: primary keys, unique keys, foreign keys and checks.
-/

set_option autoImplicit false

namespace SchemaDrift

inductive ReferentialAction where
  | cascade | restrict | noAction | setNull | setDefault
deriving DecidableEq, Repr

def ReferentialAction.sql : ReferentialAction → String
  | cascade => "CASCADE"
  | restrict => "RESTRICT"
  | noAction => "NO ACTION"
  | setNull => "SET NULL"
  | setDefault => "SET DEFAULT"

def ReferentialAction.name : ReferentialAction → String
  | cascade => "cascade"
  | restrict => "restrict"
  | noAction => "no_action"
  | setNull => "set_null"
  | setDefault => "set_default"

-- `NO ACTION` is what a foreign key without an action does.
def ReferentialAction.effective (action : Option ReferentialAction) : Option ReferentialAction :=
  action.filter (· ≠ noAction)

structure Reference where
  table : String
  columns : List String
  onDelete : Option ReferentialAction := none
  onUpdate : Option ReferentialAction := none
deriving DecidableEq, Repr

inductive ConstraintKind where
  | primaryKey
  | foreignKey (reference : Reference)
  | unique
  | check (expression : String)
deriving DecidableEq, Repr

def ConstraintKind.name : ConstraintKind → String
  | primaryKey => "primary key"
  | foreignKey _ => "foreign key"
  | unique => "unique"
  | check _ => "check"

structure Constraint where
  name : Option String := none
  -- For a check the column it was declared on, if any.
  columns : List String
  kind : ConstraintKind
deriving DecidableEq, Repr

namespace Constraint

def primaryKey (columns : List String) : Constraint := { columns, kind := .primaryKey }

def unique (columns : List String) : Constraint := { columns, kind := .unique }

def foreignKey (columns : List String) (reference : Reference) : Constraint :=
  { columns, kind := .foreignKey reference }

def check (columns : List String) (expression : String) : Constraint :=
  { columns, kind := .check expression }

def named (constraint : Constraint) (name : String) : Constraint :=
  { constraint with name := some name }

def isPrimaryKey (constraint : Constraint) : Bool := constraint.kind = .primaryKey

def reference? (constraint : Constraint) : Option Reference :=
  match constraint.kind with
  | .foreignKey reference => some reference
  | _ => none

def isForeignKey (constraint : Constraint) : Bool := constraint.reference?.isSome

def effectiveName (constraint : Constraint) (table : String) : String :=
  match constraint.name with
  | some name => name
  | none =>
    let withColumns (suffix : String) :=
      "_".intercalate (table :: (constraint.columns ++ [suffix]))
    match constraint.kind with
    | .primaryKey => table ++ "_pkey"
    | .foreignKey _ => withColumns "fkey"
    | .unique => withColumns "key"
    | .check _ => withColumns "check"

-- Equality but for the name. A check is its expression, wherever it was declared.
def structurallyEq (a b : Constraint) : Bool :=
  match a.kind, b.kind with
  | .primaryKey, .primaryKey | .unique, .unique => a.columns = b.columns
  | .foreignKey r, .foreignKey s =>
    a.columns = b.columns && r.table = s.table && r.columns = s.columns
      && ReferentialAction.effective r.onDelete = ReferentialAction.effective s.onDelete
      && ReferentialAction.effective r.onUpdate = ReferentialAction.effective s.onUpdate
  | .check e, .check f => Check.squeeze e = Check.squeeze f
  | _, _ => false

def text (constraint : Constraint) : String :=
  let columns := ", ".intercalate constraint.columns
  match constraint.kind with
  | .check expression => s!"check ({expression})"
  | .foreignKey r =>
    s!"foreign key ({columns}) -> {r.table}(" ++ ", ".intercalate r.columns ++ ")"
  | kind => kind.name ++ s!" ({columns})"

end Constraint

end SchemaDrift
