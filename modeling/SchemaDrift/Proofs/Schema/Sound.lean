import Mathlib
import SchemaDrift.Schema.Draft
/-!
What the checks on a single draft accept, said without the checks.
-/

set_option autoImplicit false

namespace SchemaDrift

def Lists (existing names : List String) : Prop :=
  names ≠ [] ∧ names.Nodup ∧ ∀ name ∈ names, name ∈ existing

namespace Constraint

def isCheck (constraint : Constraint) : Bool :=
  match constraint.kind with
  | .check _ => true
  | _ => false

-- Only a check may come without columns, and a foreign key has as many columns as it points at.
structure Fits (existing : List String) (constraint : Constraint) : Prop where
  columns : constraint.isCheck = true ∧ constraint.columns = [] ∨ Lists existing constraint.columns
  arity : ∀ reference, constraint.reference? = some reference →
    reference.columns.length = constraint.columns.length

end Constraint

theorem lists_wider (existing wider names : List String) (sub : existing ⊆ wider)
    (lists : Lists existing names) : Lists wider names :=
  ⟨lists.1, lists.2.1, fun name member => sub (lists.2.2 name member)⟩

theorem fits_wider (existing wider : List String) (c : Constraint) (sub : existing ⊆ wider)
    (fits : c.Fits existing) : c.Fits wider :=
  ⟨fits.columns.imp_right (lists_wider existing wider c.columns sub), fits.arity⟩

namespace TableDraft

def columnNames (draft : TableDraft) : List String := draft.columns.map Column.name

structure Sound (draft : TableDraft) : Prop where
  named : draft.name ≠ ""
  inhabited : draft.columns ≠ []
  columnsNamed : "" ∉ draft.columnNames
  columnsDistinct : draft.columnNames.Nodup
  singleKey : draft.primaryKeys.length ≤ 1
  keys : ∀ key ∈ draft.primaryKeys, Lists draft.columnNames key.columns
  constraints : ∀ c ∈ draft.constraints, c.Fits draft.columnNames
  indexesDistinct : (draft.indexes.map Index.name).Nodup
  indexes : ∀ index ∈ draft.indexes, Lists draft.columnNames index.columnNames

end TableDraft

theorem any_name_iff (columns : List Column) (name : String) :
    columns.any (·.name = name) = true ↔ name ∈ columns.map Column.name := by
  simp

theorem member_fault_none (columns : List Column) (owner : String) (seen names : List String) :
    TableDraft.memberFault? columns owner seen names = none ↔
      names.Nodup ∧ (∀ name ∈ names, name ∈ columns.map Column.name) ∧ ∀ name ∈ names, name ∉ seen := by
  induction names generalizing seen with
  | nil => simp [TableDraft.memberFault?]
  | cons name names ih =>
      rw [TableDraft.memberFault?]
      by_cases exists? : columns.any (·.name = name) = true
      · have known := (any_name_iff columns name).mp exists?
        by_cases repeated : name ∈ seen
        · simp [exists?, repeated]
        · rw [exists?, Bool.not_true, if_neg Bool.false_ne_true, if_neg repeated, ih]
          constructor
          · rintro ⟨distinct, others, apart⟩
            refine ⟨List.nodup_cons.mpr ⟨fun again => apart name again (by simp), distinct⟩,
              List.forall_mem_cons.mpr ⟨known, others⟩, List.forall_mem_cons.mpr ⟨repeated, ?_⟩⟩
            exact fun other member before => apart other member (by simp [before])
          · rintro ⟨distinct, others, apart⟩
            obtain ⟨fresh, distinct⟩ := List.nodup_cons.mp distinct
            refine ⟨distinct, (List.forall_mem_cons.mp others).2, fun other member before => ?_⟩
            rcases List.mem_cons.mp before with same | earlier
            · exact fresh (same ▸ member)
            · exact apart other (by simp [member]) earlier
      · have unknown : name ∉ columns.map Column.name := fun h => exists? ((any_name_iff _ _).mpr h)
        rw [Bool.eq_false_iff.mpr exists?, Bool.not_false, if_pos rfl]
        exact ⟨by simp, fun listed => absurd (listed.2.1 name (by simp)) unknown⟩

theorem list_fault_none (columns : List Column) (owner : String) (names : List String) :
    TableDraft.listFault? columns owner names = none ↔ Lists (columns.map Column.name) names := by
  unfold TableDraft.listFault? Lists
  by_cases empty : names = []
  · simp [empty]
  · rw [if_neg empty, member_fault_none]
    simp [empty]

theorem column_fault_none (seen : List String) (columns : List Column) :
    TableDraft.columnFault? seen columns = none ↔
      "" ∉ columns.map Column.name ∧ (columns.map Column.name).Nodup ∧
        ∀ name ∈ columns.map Column.name, name ∉ seen := by
  induction columns generalizing seen with
  | nil => simp [TableDraft.columnFault?]
  | cons column columns ih =>
      rw [TableDraft.columnFault?]
      by_cases unnamed : column.name = ""
      · simp [unnamed]
      · by_cases repeated : column.name ∈ seen
        · simp [unnamed, repeated]
        · rw [if_neg unnamed, if_neg repeated, ih, List.map_cons, List.nodup_cons,
            List.forall_mem_cons, List.mem_cons, not_or]
          constructor
          · rintro ⟨named, distinct, apart⟩
            exact ⟨⟨Ne.symm unnamed, named⟩, ⟨fun again => apart _ again (by simp), distinct⟩, repeated,
              fun name member before => apart name member (by simp [before])⟩
          · rintro ⟨⟨_, named⟩, ⟨fresh, distinct⟩, _, apart⟩
            refine ⟨named, distinct, fun name member before => ?_⟩
            rcases List.mem_cons.mp before with same | earlier
            · exact fresh (same ▸ member)
            · exact apart name member earlier

theorem primary_key_fault_none (columns : List Column) (keys : List Constraint) :
    TableDraft.primaryKeyFault? columns keys = none ↔
      keys.length ≤ 1 ∧ ∀ key ∈ keys, Lists (columns.map Column.name) key.columns := by
  cases keys with
  | nil => simp [TableDraft.primaryKeyFault?]
  | cons key rest =>
      cases rest with
      | nil => simp [TableDraft.primaryKeyFault?, list_fault_none]
      | cons => simp [TableDraft.primaryKeyFault?]

theorem constraint_fault_none (columns : List Column) (c : Constraint) :
    TableDraft.constraintFault? columns c = none ↔ c.Fits (columns.map Column.name) := by
  have arity (r : Reference) : (if r.columns.length = c.columns.length then none
      else some (Fault.referenceArity c.columns r.columns.length r.table)) = none ↔
      r.columns.length = c.columns.length := by
    split <;> simp_all
  unfold TableDraft.constraintFault?
  cases kind : c.kind with
  | check e =>
      have known : c.isCheck = true := by simp [Constraint.isCheck, kind]
      have points : c.reference? = none := by simp [Constraint.reference?, kind]
      by_cases empty : c.columns = []
      · simp only [empty, if_true, points, Option.bind_none, Option.or_none, true_iff]
        exact ⟨.inl ⟨known, empty⟩, by simp [points]⟩
      · simp only [empty, if_false, points, Option.bind_none, Option.or_none, list_fault_none]
        exact ⟨fun lists => ⟨.inr lists, by simp [points]⟩,
          fun fits => fits.columns.resolve_left fun h => empty h.2⟩
  | primaryKey | unique =>
      have known : c.isCheck = false := by simp [Constraint.isCheck, kind]
      have points : c.reference? = none := by simp [Constraint.reference?, kind]
      simp only [points, Option.bind_none, Option.or_none, list_fault_none]
      exact ⟨fun lists => ⟨.inr lists, by simp [points]⟩,
        fun fits => fits.columns.resolve_left fun h => by simp [known] at h⟩
  | foreignKey r =>
      have known : c.isCheck = false := by simp [Constraint.isCheck, kind]
      have points : c.reference? = some r := by simp [Constraint.reference?, kind]
      simp only [points, Option.bind_some, Option.or_eq_none_iff, list_fault_none, arity]
      constructor
      · rintro ⟨lists, same⟩
        refine ⟨.inr lists, fun s pointed => ?_⟩
        cases points.symm.trans pointed
        exact same
      · intro fits
        exact ⟨fits.columns.resolve_left fun h => by simp [known] at h, fits.arity r points⟩

theorem index_fault_none (columns : List Column) (seen : List String) (indexes : List Index) :
    TableDraft.indexFault? columns seen indexes = none ↔
      (indexes.map Index.name).Nodup ∧ (∀ name ∈ indexes.map Index.name, name ∉ seen) ∧
        ∀ index ∈ indexes, Lists (columns.map Column.name) index.columnNames := by
  induction indexes generalizing seen with
  | nil => simp [TableDraft.indexFault?]
  | cons index indexes ih =>
      rw [TableDraft.indexFault?]
      by_cases repeated : index.name ∈ seen
      · simp [repeated]
      · rw [if_neg repeated, Option.or_eq_none_iff, list_fault_none, ih, List.map_cons,
          List.nodup_cons, List.forall_mem_cons, List.forall_mem_cons]
        constructor
        · rintro ⟨lists, distinct, apart, others⟩
          exact ⟨⟨fun again => apart _ again (by simp), distinct⟩,
            ⟨repeated, fun name member before => apart name member (by simp [before])⟩, lists, others⟩
        · rintro ⟨⟨fresh, distinct⟩, ⟨_, apart⟩, lists, others⟩
          refine ⟨lists, distinct, fun name member before => ?_, others⟩
          rcases List.mem_cons.mp before with same | earlier
          · exact fresh (same ▸ member)
          · exact apart name member earlier

theorem fault_none_iff (draft : TableDraft) : draft.fault? = none ↔ draft.Sound := by
  unfold TableDraft.fault?
  by_cases unnamed : draft.name = ""
  · rw [if_pos unnamed]
    exact ⟨by simp, fun sound => absurd unnamed sound.named⟩
  · by_cases empty : draft.columns = []
    · rw [if_neg unnamed, if_pos empty]
      exact ⟨by simp, fun sound => absurd empty sound.inhabited⟩
    · simp only [unnamed, empty, if_false, Option.or_eq_none_iff, column_fault_none,
        primary_key_fault_none, List.findSome?_eq_none_iff, constraint_fault_none, index_fault_none]
      constructor
      · rintro ⟨⟨named, distinct, _⟩, ⟨single, keys⟩, constraints, apart, _, indexes⟩
        exact ⟨unnamed, empty, named, distinct, single, keys, constraints, apart, indexes⟩
      · intro sound
        exact ⟨⟨sound.columnsNamed, sound.columnsDistinct, by simp⟩, ⟨sound.singleKey, sound.keys⟩,
          sound.constraints, sound.indexesDistinct, by simp, sound.indexes⟩

theorem table_build_ok (draft : TableDraft) (position : Nat) (table : Table) :
    draft.build position = .ok table ↔ draft.Sound ∧ table = draft.toTable position := by
  unfold TableDraft.build
  cases fault : draft.fault? with
  | none => simp [← fault_none_iff, fault, eq_comm]
  | some found => simp [← fault_none_iff, fault]

end SchemaDrift
