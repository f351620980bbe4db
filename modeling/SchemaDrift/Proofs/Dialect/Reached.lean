import SchemaDrift.Proofs.Dialect.Canonical
import SchemaDrift.Proofs.Schema.Apply
/-!
What holds of every schema that building, applying operations and taking canonical images can reach.
Each of them ends with a build, which checks the whole schema, so it does not matter where the
tables and columns of an operation come from.
-/

set_option autoImplicit false

namespace SchemaDrift

structure Table.Lawful (table : Table) : Prop where
  named : table.name ≠ ""
  inhabited : table.columns ≠ []
  columnsNamed : "" ∉ table.columnNames
  columnsDistinct : table.columnNames.Nodup
  key : ∀ key, table.primaryKey = some key → Lists table.columnNames key.columns
  keyRefusesNull : ∀ key, table.primaryKey = some key →
    ∀ column ∈ table.columns, column.name ∈ key.columns → column.nullable = false
  constraints : ∀ c ∈ table.constraints, c.Fits table.columnNames
  indexes : ∀ index ∈ table.indexes, Lists table.columnNames index.columnNames
  indexesDistinct : (table.indexes.map Index.name).Nodup

structure Schema.Lawful (schema : Schema) : Prop where
  tables : ∀ t ∈ schema.tables, t.Lawful
  distinct : schema.tableNames.Nodup
  resolved : schema.Resolved
  ordered : schema.tables.Pairwise fun a b => a.ordinal ≤ b.ordinal

inductive Schema.Reached : Schema → Prop
  | built (draft : SchemaDraft) (schema : Schema) (built : draft.build = .ok schema) :
      Reached schema
  | applied (rules : ApplyRules) (operations : List Operation) (before after : Schema)
      (reached : Reached before) (applied : before.apply rules operations = .ok after) :
      Reached after
  | canonical (dialect : Dialect) (before after : Schema) (reached : Reached before)
      (canonical : dialect.canonicalize before = .ok after) : Reached after

/-! ### What a build checks -/

theorem built_lawful (draft : TableDraft) (position : Nat) (sound : draft.Sound) :
    (draft.toTable position).Lawful where
  named := sound.named
  inhabited := by
    intro empty
    exact sound.inhabited (List.map_eq_nil_iff.mp empty)
  columnsNamed := built_column_names draft position ▸ sound.columnsNamed
  columnsDistinct := built_column_names draft position ▸ sound.columnsDistinct
  key := by
    intro key found
    rw [built_column_names]
    exact sound.keys key (List.mem_of_head? found)
  keyRefusesNull := by
    intro key found
    have columns : (draft.toTable position).primaryKeyColumns = key.columns := by
      rw [Table.primaryKeyColumns, found]
    rw [← columns]
    exact built_refuses_null draft position
  constraints := built_column_names draft position ▸ sound.constraints
  indexes := built_column_names draft position ▸ sound.indexes
  indexesDistinct := sound.indexesDistinct

theorem schema_built_lawful (draft : SchemaDraft) (schema : Schema)
    (built : draft.build = .ok schema) : schema.Lawful := by
  obtain ⟨sounds, distinct, rfl, resolved⟩ := (schema_build_ok draft schema).mp built
  have perm := sort_perm (tablesFrom 0 draft.tables)
  refine ⟨fun t member => ?_, ?_, resolved, sort_ordered _⟩
  · obtain ⟨d, found, n, same⟩ := tables_from_mem 0 draft.tables t (perm.mem_iff.mp member)
    rw [same]
    exact built_lawful d n (sounds d found)
  · refine ((perm.map Table.name).nodup_iff).mpr ?_
    rw [tables_from_names]
    exact distinct

/-! ### Every step ends with a build -/

theorem apply_lawful (rules : ApplyRules) (schema result : Schema) (ops : List Operation)
    (lawful : schema.Lawful) (applied : schema.apply rules ops = .ok result) : result.Lawful := by
  refine run_keeps rules Schema.Lawful ops ?_ schema result lawful applied
  intro op _ before next _ first
  obtain ⟨draft, _, built, _⟩ := apply_one_redrafts rules before next op first
  exact schema_built_lawful draft next built

theorem canonicalize_builds (dialect : Dialect) (schema image : Schema)
    (canonical : dialect.canonicalize schema = .ok image) :
    ∃ draft : SchemaDraft, draft.build = .ok image := by
  have columns (d : Dialect) (before : Schema) (mapped : d.canonicalColumns before = .ok image) :
      ∃ draft : SchemaDraft, draft.build = .ok image := by
    obtain ⟨_, _, each⟩ := (bind_ok _ _ _).mp mapped
    obtain ⟨drafts, _, built⟩ := (bind_ok _ _ _).mp each
    exact ⟨_, built⟩
  cases dialect with
  | postgres => exact columns .postgres schema canonical
  | mysql =>
      obtain ⟨between, _, folded⟩ := (bind_ok _ _ _).mp canonical
      exact ⟨_, folded⟩
  | spanner =>
      obtain ⟨between, _, mapped⟩ := (bind_ok _ _ _).mp canonical
      exact columns .spanner between mapped

theorem reached_lawful (schema : Schema) (reached : schema.Reached) : schema.Lawful := by
  induction reached with
  | built draft schema built => exact schema_built_lawful draft schema built
  | applied rules operations before after _ applied lawful =>
      exact apply_lawful rules before after operations lawful applied
  | canonical dialect before after _ canonical _ =>
      obtain ⟨draft, built⟩ := canonicalize_builds dialect before after canonical
      exact schema_built_lawful draft after built

namespace Register

def id : Column := { name := "id", type := { base := .integer }, nullable := true }

def draft : SchemaDraft where
  tables :=
    [{ name := "account", columns := [id], primaryKeys := [.primaryKey ["id"]] },
      { name := "entry"
        columns := [{ name := "account", type := { base := .integer } }]
        constraints := [.foreignKey ["account"] { table := "account", columns := ["id"] },
          .unique ["account"]] }]

def widening : List Operation :=
  [.alterColumnType "account" id { id with type := { base := .bigInt } }]

def reached : Schema where
  tables :=
    [{ name := "account"
       columns := [{ name := "id", type := { base := .bigInt } }]
       primaryKey := some (.primaryKey ["id"])
       ordinal := 0 },
      { name := "entry"
        columns := [{ name := "account", type := { base := .bigInt } }]
        constraints := [.foreignKey ["account"] { table := "account", columns := ["id"] }]
        indexes := [{ Index.ascending "entry_account_key" ["account"] with unique := true }]
        ordinal := 1 }]

end Register

theorem register_lawful : Register.reached.Reached ∧ Register.reached.Lawful := by
  have reached : Register.reached.Reached :=
    .canonical .spanner _ _ (.applied {} Register.widening _ _ (.built Register.draft _ rfl) rfl) rfl
  exact ⟨reached, reached_lawful Register.reached reached⟩

end SchemaDrift
