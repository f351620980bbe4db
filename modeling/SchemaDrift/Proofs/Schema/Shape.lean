import SchemaDrift.Proofs.Schema.Matching
import SchemaDrift.Schema.Table
/-!
Structural equality of constraints and indexes is equality of their shapes: what is left of them
without names and without differences that the database does not see.
-/

set_option autoImplicit false

namespace SchemaDrift

inductive Shape where
  | primaryKey (columns : List String)
  | unique (columns : List String)
  | check (expression : List Char)
  | foreignKey (columns : List String) (table : String) (targets : List String)
      (onDelete onUpdate : Option ReferentialAction)
deriving DecidableEq

namespace Constraint

def shape (constraint : Constraint) : Shape :=
  match constraint.kind with
  | .primaryKey => .primaryKey constraint.columns
  | .unique => .unique constraint.columns
  | .check expression => .check (Check.squeeze expression)
  | .foreignKey r => .foreignKey constraint.columns r.table r.columns
      (ReferentialAction.effective r.onDelete) (ReferentialAction.effective r.onUpdate)

end Constraint

def Index.shape (index : Index) : Bool × List IndexColumn := (index.unique, index.columns)

theorem constraint_agree (a b : Constraint) : a.structurallyEq b = true ↔ a.shape = b.shape := by
  unfold Constraint.structurallyEq Constraint.shape
  cases a.kind <;> cases b.kind <;> simp [and_assoc]

theorem index_agree (a b : Index) : a.structurallyEq b = true ↔ a.shape = b.shape := by
  simp [Index.structurallyEq, Index.shape]

namespace Shape

def isPrimaryKey : Shape → Bool
  | primaryKey _ => true
  | _ => false

def isForeignKey : Shape → Bool
  | foreignKey .. => true
  | _ => false

def target? : Shape → Option (String × List String)
  | foreignKey _ table targets _ _ => some (table, targets)
  | _ => none

-- The columns on which all constraints of this shape stand; a check has none of its own.
def columns? : Shape → Option (List String)
  | primaryKey columns | unique columns | foreignKey columns .. => some columns
  | check _ => none

end Shape

theorem shape_primary_key (c : Constraint) : c.shape.isPrimaryKey = c.isPrimaryKey := by
  unfold Constraint.shape Constraint.isPrimaryKey
  cases c.kind <;> rfl

theorem shape_foreign_key (c : Constraint) : c.shape.isForeignKey = c.isForeignKey := by
  unfold Constraint.shape Constraint.isForeignKey Constraint.reference?
  cases c.kind <;> rfl

theorem shape_target (c : Constraint) :
    c.shape.target? = c.reference?.map fun r => (r.table, r.columns) := by
  unfold Constraint.shape Constraint.reference?
  cases c.kind <;> rfl

theorem shape_columns (c : Constraint) (columns : List String)
    (found : c.shape.columns? = some columns) : c.columns = columns := by
  unfold Constraint.shape at found
  cases kind : c.kind <;> rw [kind] at found <;> cases found <;> rfl

theorem same_target (a b : Constraint) (r : Reference) (same : a.shape = b.shape)
    (points : a.reference? = some r) :
    ∃ s, b.reference? = some s ∧ s.table = r.table ∧ s.columns = r.columns := by
  have targets := congrArg Shape.target? same
  rw [shape_target, shape_target, points] at targets
  obtain ⟨s, pointed, equal⟩ := Option.map_eq_some_iff.mp targets.symm
  exact ⟨s, pointed, (Prod.mk.inj equal).1, (Prod.mk.inj equal).2⟩

end SchemaDrift
