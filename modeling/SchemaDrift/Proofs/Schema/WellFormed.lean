import SchemaDrift.Proofs.Schema.Sound
/-!
Tables and schemas that came out of the checks. A schema is validated when some draft builds it, and
that is so exactly when it is well formed: building a well-formed schema again changes nothing.
-/

set_option autoImplicit false

namespace SchemaDrift

-- Primary keys stand apart from the other constraints, as `addConstraint` puts them.
structure TableDraft.Placed (draft : TableDraft) : Prop where
  keys : ∀ key ∈ draft.primaryKeys, key.isPrimaryKey = true
  constraints : ∀ c ∈ draft.constraints, c.isPrimaryKey = false

instance (draft : TableDraft) : Decidable draft.Placed :=
  decidable_of_iff ((∀ key ∈ draft.primaryKeys, key.isPrimaryKey = true) ∧
      ∀ c ∈ draft.constraints, c.isPrimaryKey = false)
    ⟨fun both => ⟨both.1, both.2⟩, fun placed => ⟨placed.keys, placed.constraints⟩⟩

def Table.columnNames (table : Table) : List String := table.columns.map Column.name

structure Table.WellFormed (table : Table) : Prop where
  sound : table.toDraft.Sound
  placed : table.toDraft.Placed
  refusesNull : ∀ c ∈ table.columns, c.name ∈ table.primaryKeyColumns → c.nullable = false

namespace Schema

def Resolves (schema : Schema) (reference : Reference) : Prop :=
  ∃ target, schema.table? reference.table = some target ∧
    ∀ name ∈ reference.columns, name ∈ target.columnNames

def Resolved (schema : Schema) : Prop :=
  ∀ t ∈ schema.tables, ∀ c ∈ t.constraints, ∀ r, c.reference? = some r → schema.Resolves r

structure WellFormed (schema : Schema) : Prop where
  tables : ∀ t ∈ schema.tables, t.WellFormed
  distinct : schema.tableNames.Nodup
  resolved : schema.Resolved
  ordered : schema.tables.Pairwise fun a b => a.ordinal ≤ b.ordinal

def Validated (schema : Schema) : Prop :=
  ∃ draft : SchemaDraft, (∀ d ∈ draft.tables, d.Placed) ∧ draft.build = .ok schema

end Schema

/-! ### Drafts and tables -/

theorem mem_column_names (table : Table) (name : String) :
    table.hasColumn name = true ↔ name ∈ table.columnNames :=
  any_name_iff table.columns name

theorem built_column_names (draft : TableDraft) (position : Nat) :
    (draft.toTable position).columnNames = draft.columnNames := by
  simp only [Table.columnNames, TableDraft.toTable, TableDraft.columnNames, List.map_map]
  apply List.map_congr_left
  intro column _
  dsimp only [Function.comp]
  split <;> rfl

theorem single_key (keys : List Constraint) (single : keys.length ≤ 1) :
    keys.head?.toList = keys := by
  cases keys with
  | nil => rfl
  | cons key rest =>
      cases rest with
      | nil => rfl
      | cons => simp at single

theorem reopened (draft : TableDraft) (position : Nat) (single : draft.primaryKeys.length ≤ 1) :
    (draft.toTable position).toDraft =
      { draft with
        columns := (draft.toTable position).columns
        ordinal := some (draft.ordinal.getD position) } := by
  simp only [Table.toDraft, TableDraft.toTable, single_key draft.primaryKeys single]

theorem sound_columns (draft : TableDraft) (columns : List Column) (ordinal : Option Nat)
    (names : columns.map Column.name = draft.columnNames) (sound : draft.Sound) :
    TableDraft.Sound { draft with columns, ordinal } := by
  have same : ({ draft with columns, ordinal } : TableDraft).columnNames = draft.columnNames := names
  refine ⟨sound.named, ?_, same ▸ sound.columnsNamed, same ▸ sound.columnsDistinct, sound.singleKey,
    same ▸ sound.keys, same ▸ sound.constraints, sound.indexesDistinct, same ▸ sound.indexes⟩
  intro empty
  have lengths := congrArg List.length names
  simp only [TableDraft.columnNames, List.length_map] at lengths
  have none : columns = [] := empty
  rw [none] at lengths
  exact sound.inhabited (List.length_eq_zero_iff.mp lengths.symm)

theorem sound_wider (draft : TableDraft) (columns : List Column) (sound : draft.Sound)
    (sub : draft.columnNames ⊆ columns.map Column.name) (named : "" ∉ columns.map Column.name)
    (distinct : (columns.map Column.name).Nodup) : TableDraft.Sound { draft with columns } where
  named := sound.named
  inhabited := by
    rintro rfl
    exact sound.inhabited (List.map_eq_nil_iff.mp (List.subset_nil.mp sub))
  columnsNamed := named
  columnsDistinct := distinct
  singleKey := sound.singleKey
  keys := fun key member => lists_wider _ _ _ sub (sound.keys key member)
  constraints := fun c member => fits_wider _ _ c sub (sound.constraints c member)
  indexesDistinct := sound.indexesDistinct
  indexes := fun index member => lists_wider _ _ _ sub (sound.indexes index member)

theorem sound_fewer (draft : TableDraft) (primaryKeys constraints : List Constraint)
    (indexes : List Index) (sound : draft.Sound) (keys : primaryKeys.Sublist draft.primaryKeys)
    (others : constraints.Sublist draft.constraints) (kept : indexes.Sublist draft.indexes) :
    TableDraft.Sound { draft with primaryKeys, constraints, indexes } where
  named := sound.named
  inhabited := sound.inhabited
  columnsNamed := sound.columnsNamed
  columnsDistinct := sound.columnsDistinct
  singleKey := keys.length_le.trans sound.singleKey
  keys := fun key member => sound.keys key (keys.subset member)
  constraints := fun c member => sound.constraints c (others.subset member)
  indexesDistinct := sound.indexesDistinct.sublist (kept.map Index.name)
  indexes := fun index member => sound.indexes index (kept.subset member)

theorem fewer_well_formed (t : Table) (constraints : List Constraint) (indexes : List Index)
    (wf : t.WellFormed) (others : constraints.Sublist t.constraints)
    (kept : indexes.Sublist t.indexes) : Table.WellFormed { t with constraints, indexes } :=
  ⟨sound_fewer t.toDraft _ _ _ wf.sound (List.Sublist.refl _) others kept,
    ⟨wf.placed.keys, fun c member => wf.placed.constraints c (others.subset member)⟩, wf.refusesNull⟩

theorem key_columns_of_head (draft : TableDraft) (position : Nat) :
    (draft.toTable position).primaryKeyColumns = draft.primaryKeys.head?.elim [] Constraint.columns := by
  simp only [Table.primaryKeyColumns, TableDraft.toTable]
  cases draft.primaryKeys.head? <;> rfl

theorem built_refuses_null (draft : TableDraft) (position : Nat) :
    ∀ c ∈ (draft.toTable position).columns,
      c.name ∈ (draft.toTable position).primaryKeyColumns → c.nullable = false := by
  intro column member keyed
  rw [key_columns_of_head] at keyed
  obtain ⟨source, _, coerced⟩ := List.mem_map.mp member
  by_cases inKey : source.name ∈ draft.primaryKeys.head?.elim [] Constraint.columns
  · rw [if_pos inKey] at coerced
    rw [← coerced]
  · rw [if_neg inKey] at coerced
    exact absurd (coerced ▸ keyed) inKey

theorem built_well_formed (draft : TableDraft) (position : Nat) (sound : draft.Sound)
    (placed : draft.Placed) : (draft.toTable position).WellFormed := by
  have back := reopened draft position sound.singleKey
  refine ⟨?_, ?_, built_refuses_null draft position⟩
  · rw [back]
    exact sound_columns draft _ _ (built_column_names draft position) sound
  · rw [back]
    exact ⟨placed.keys, placed.constraints⟩

theorem build_reopened (table : Table) (position : Nat) (wf : table.WellFormed) :
    table.toDraft.toTable position = table := by
  have key : table.primaryKey.toList.head? = table.primaryKey := by
    cases table.primaryKey <;> rfl
  have keyColumns : table.primaryKey.elim [] Constraint.columns = table.primaryKeyColumns := by
    unfold Table.primaryKeyColumns
    cases table.primaryKey <;> rfl
  have columns : (table.columns.map fun column =>
      if column.name ∈ table.primaryKeyColumns then { column with nullable := false } else column)
      = table.columns := by
    rw [List.map_congr_left (g := id), List.map_id]
    intro column member
    by_cases keyed : column.name ∈ table.primaryKeyColumns
    · rw [if_pos keyed, ← wf.refusesNull column member keyed]
      rfl
    · rw [if_neg keyed]
      rfl
  simp only [TableDraft.toTable, Table.toDraft, key, keyColumns, columns, Option.getD_some]

end SchemaDrift
