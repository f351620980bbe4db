import SchemaDrift.Schema.Operation
/-!
An order in which new tables can be created: each table comes after those that its foreign keys
point at. Where the references form a cycle, some foreign keys are added afterwards.
-/

set_option autoImplicit false

namespace SchemaDrift

structure CreationOrder where
  tables : List Table := []
  deferred : List Operation := []
deriving DecidableEq, Repr

namespace CreationOrder

def blocks (pending : String → Bool) (table : Table) (constraint : Constraint) : Bool :=
  constraint.reference?.any fun r => r.table ≠ table.name && pending r.table

def isBlocked (pending : String → Bool) (table : Table) : Bool :=
  table.foreignKeys.any (blocks pending table)

def pendingIn (new created : List String) (name : String) : Bool :=
  new.contains name && !created.contains name

def pass (new created : List String) : List Table → List Table × List Table
  | [] => ([], [])
  | table :: tables =>
    if isBlocked (pendingIn new created) table then
      let (placed, waiting) := pass new created tables
      (placed, table :: waiting)
    else
      let (placed, waiting) := pass new (table.name :: created) tables
      (table :: placed, waiting)

theorem pass_length (new created : List String) (tables : List Table) :
    (pass new created tables).1.length + (pass new created tables).2.length = tables.length := by
  induction tables generalizing created with
  | nil => rfl
  | cons table tables ih =>
    unfold pass
    split
    · have := ih created
      simp only [List.length_cons]
      omega
    · have := ih (table.name :: created)
      simp only [List.length_cons]
      omega

def blocking (pending : String → Bool) (table : Table) : List Constraint :=
  table.foreignKeys.filter (blocks pending table)

def without (table : Table) (split : List Constraint) : Table :=
  table.retainConstraints fun c => !split.any (·.structurallyEq c)

/-- Orders the tables that remain when those of `created` exist. When all of them are blocked, the
first is created without the foreign keys that block it. -/
def ofRemaining (new created : List String) (tables : List Table) : CreationOrder :=
  match _h : pass new created tables with
  | (placed, []) => { tables := placed }
  | ([], table :: waiting) =>
    let split := blocking (pendingIn new created) table
    let order := ofRemaining new (table.name :: created) waiting
    { tables := without table split :: order.tables
      deferred := split.map (.addConstraint table.name) ++ order.deferred }
  | (first :: placed, waiting) =>
    let names := (first :: placed).map Table.name
    let order := ofRemaining new (names.reverse ++ created) waiting
    { tables := first :: placed ++ order.tables, deferred := order.deferred }
termination_by tables.length
decreasing_by
  all_goals
    have := pass_length new created tables
    rw [_h] at this
    simp only [List.length_cons, List.length_nil] at this
    omega

end CreationOrder

def creationOrder (tables : List Table) : CreationOrder :=
  .ofRemaining (tables.map Table.name) [] tables

end SchemaDrift
