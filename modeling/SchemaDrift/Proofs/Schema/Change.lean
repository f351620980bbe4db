import SchemaDrift.Proofs.Schema.Matching
import SchemaDrift.Proofs.Schema.WellFormed
import SchemaDrift.Schema.Apply
/-!
All the ways in which an operation changes the draft of its table.
-/

set_option autoImplicit false

namespace SchemaDrift

def Operation.inPlace : Operation → Bool
  | createTable _ | dropTable _ => false
  | _ => true

inductive TableDraft.Changed (draft : TableDraft) : Operation → TableDraft → Prop
  | untouched (op : Operation) (whole : op.inPlace = false) : Changed draft op draft
  | addColumn (table : String) (column : Column) (fresh : column.name ∉ draft.columnNames) :
      Changed draft (.addColumn table column) { draft with columns := draft.columns ++ [column] }
  | dropColumn (table name : String) (present : name ∈ draft.columnNames) :
      Changed draft (.dropColumn table name)
        { draft with columns := draft.columns.filter (·.name ≠ name) }
  | alterColumn (table : String) (source target : Column) (same : source.name = target.name)
      (present : target.name ∈ draft.columnNames) :
      Changed draft (.alterColumnType table source target)
        { draft with columns := replaceFirst target draft.columns }
  | addKey (table : String) (c : Constraint) (primary : c.isPrimaryKey = true) :
      Changed draft (.addConstraint table c) { draft with primaryKeys := draft.primaryKeys ++ [c] }
  | addConstraint (table : String) (c : Constraint) (other : c.isPrimaryKey = false) :
      Changed draft (.addConstraint table c) { draft with constraints := draft.constraints ++ [c] }
  | dropKey (table : String) (c : Constraint) (rest : List Constraint)
      (primary : c.isPrimaryKey = true)
      (erased : eraseFirst? (·.structurallyEq c) draft.primaryKeys = some rest) :
      Changed draft (.dropConstraint table c) { draft with primaryKeys := rest }
  | dropConstraint (table : String) (c : Constraint) (rest : List Constraint)
      (other : c.isPrimaryKey = false)
      (erased : eraseFirst? (·.structurallyEq c) draft.constraints = some rest) :
      Changed draft (.dropConstraint table c) { draft with constraints := rest }
  | addIndex (table : String) (index : Index) :
      Changed draft (.addIndex table index) { draft with indexes := draft.indexes ++ [index] }
  | dropIndex (table : String) (index : Index) (present : index.name ∈ draft.indexes.map Index.name) :
      Changed draft (.dropIndex table index)
        { draft with indexes := draft.indexes.filter (·.name ≠ index.name) }

theorem draft_has_column (draft : TableDraft) (name : String) :
    draft.hasColumn name = true ↔ name ∈ draft.columnNames :=
  any_name_iff draft.columns name

theorem draft_has_index (draft : TableDraft) (name : String) :
    draft.hasIndex name = true ↔ name ∈ draft.indexes.map Index.name := by
  simp [TableDraft.hasIndex]

theorem changed_of_change (draft next : TableDraft) (op : Operation)
    (changed : op.change? draft = some next) : draft.Changed op next := by
  cases op with
  | createTable | dropTable =>
      cases changed
      exact .untouched _ rfl
  | addIndex table index =>
      cases changed
      exact .addIndex table index
  | addColumn table column =>
      simp only [Operation.change?, draft_has_column] at changed
      by_cases taken : column.name ∈ draft.columnNames
      · rw [if_pos taken] at changed
        cases changed
      · rw [if_neg taken] at changed
        cases changed
        exact .addColumn table column taken
  | dropColumn table name =>
      simp only [Operation.change?, TableDraft.removeColumn?, draft_has_column] at changed
      by_cases present : name ∈ draft.columnNames
      · rw [if_pos present] at changed
        cases changed
        exact .dropColumn table name present
      · rw [if_neg present] at changed
        cases changed
  | alterColumnType table source target =>
      simp only [Operation.change?, TableDraft.replaceColumn?, draft_has_column] at changed
      by_cases same : source.name = target.name
      · rw [if_pos same] at changed
        by_cases present : target.name ∈ draft.columnNames
        · rw [if_pos present] at changed
          cases changed
          exact .alterColumn table source target same present
        · rw [if_neg present] at changed
          cases changed
      · rw [if_neg same] at changed
        cases changed
  | addConstraint table c =>
      cases changed
      unfold TableDraft.addConstraint
      by_cases primary : c.isPrimaryKey = true
      · rw [if_pos primary]
        exact .addKey table c primary
      · rw [if_neg primary]
        exact .addConstraint table c (Bool.eq_false_iff.mpr primary)
  | dropConstraint table c =>
      simp only [Operation.change?, TableDraft.removeConstraint?] at changed
      by_cases primary : c.isPrimaryKey = true
      · rw [if_pos primary] at changed
        obtain ⟨rest, erased, rfl⟩ := Option.map_eq_some_iff.mp changed
        exact .dropKey table c rest primary erased
      · rw [if_neg primary] at changed
        obtain ⟨rest, erased, rfl⟩ := Option.map_eq_some_iff.mp changed
        exact .dropConstraint table c rest (Bool.eq_false_iff.mpr primary) erased
  | dropIndex table index =>
      simp only [Operation.change?, TableDraft.removeIndex?, draft_has_index] at changed
      by_cases present : index.name ∈ draft.indexes.map Index.name
      · rw [if_pos present] at changed
        cases changed
        exact .dropIndex table index present
      · rw [if_neg present] at changed
        cases changed

theorem change_of_changed (draft next : TableDraft) (op : Operation) (changed : draft.Changed op next) :
    op.change? draft = some next := by
  cases changed with
  | untouched _ whole => cases op <;> first | rfl | cases whole
  | addColumn table column fresh =>
      simp only [Operation.change?, draft_has_column, if_neg fresh, TableDraft.addColumn]
  | dropColumn table name present =>
      simp only [Operation.change?, TableDraft.removeColumn?, draft_has_column, if_pos present]
  | alterColumn table source target same present =>
      simp only [Operation.change?, TableDraft.replaceColumn?, draft_has_column, if_pos same,
        if_pos present]
  | addKey table c primary => simp only [Operation.change?, TableDraft.addConstraint, if_pos primary]
  | addConstraint table c other =>
      simp only [Operation.change?, TableDraft.addConstraint, other, Bool.false_eq_true, if_false]
  | dropKey table c rest primary erased =>
      simp only [Operation.change?, TableDraft.removeConstraint?, if_pos primary, erased,
        Option.map_some]
  | dropConstraint table c rest other erased =>
      simp only [Operation.change?, TableDraft.removeConstraint?, other, Bool.false_eq_true,
        if_false, erased, Option.map_some]
  | addIndex table index => rfl
  | dropIndex table index present =>
      simp only [Operation.change?, TableDraft.removeIndex?, draft_has_index, if_pos present]

theorem change_iff (draft next : TableDraft) (op : Operation) :
    op.change? draft = some next ↔ draft.Changed op next :=
  ⟨changed_of_change draft next op, change_of_changed draft next op⟩

theorem changed_keeps (draft next : TableDraft) (op : Operation) (changed : draft.Changed op next) :
    next.name = draft.name ∧ next.ordinal = draft.ordinal := by
  cases changed <;> exact ⟨rfl, rfl⟩

theorem changed_placed (draft next : TableDraft) (op : Operation) (changed : draft.Changed op next)
    (placed : draft.Placed) : next.Placed := by
  obtain ⟨keys, constraints⟩ := placed
  cases changed with
  | untouched | addColumn | dropColumn | alterColumn | addIndex | dropIndex =>
      exact ⟨keys, constraints⟩
  | addKey table c primary =>
      refine ⟨fun key member => ?_, constraints⟩
      rcases List.mem_append.mp member with old | fresh
      · exact keys key old
      · exact List.mem_singleton.mp fresh ▸ primary
  | addConstraint table c other =>
      refine ⟨keys, fun d member => ?_⟩
      rcases List.mem_append.mp member with old | fresh
      · exact constraints d old
      · exact List.mem_singleton.mp fresh ▸ other
  | dropKey table c rest primary erased =>
      have sub := (erase_first_sublist _ _ _ erased).subset
      exact ⟨fun key member => keys key (sub member), constraints⟩
  | dropConstraint table c rest other erased =>
      have sub := (erase_first_sublist _ _ _ erased).subset
      exact ⟨keys, fun d member => constraints d (sub member)⟩

theorem placed_add_constraint (draft : TableDraft) (c : Constraint) (placed : draft.Placed) :
    (draft.addConstraint c).Placed :=
  changed_placed draft _ _ ((change_iff draft _ (.addConstraint draft.name c)).mp rfl) placed

end SchemaDrift
