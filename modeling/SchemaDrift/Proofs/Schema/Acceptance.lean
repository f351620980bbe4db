import SchemaDrift.Proofs.Schema.Equivalence
/-!
Building accepts exactly the drafts of well-formed tables and schemas, and a table comes out as it was
declared. The order of the declarations decides where a table stands, not whether it is accepted.
-/

set_option autoImplicit false

namespace SchemaDrift

/-! ### Tables -/

-- What was declared, but for the columns of the primary key, which refuse NULL.
structure TableDraft.Yields (draft : TableDraft) (position : Nat) (table : Table) : Prop where
  name : table.name = draft.name
  columns : List.Forall₂ (fun declared built => built = { declared with
    nullable := declared.nullable && declared.name ∉ draft.primaryKeys.flatMap Constraint.columns })
    draft.columns table.columns
  primaryKey : table.primaryKey.toList = draft.primaryKeys
  indexes : table.indexes = draft.indexes
  constraints : table.constraints = draft.constraints
  options : table.options = draft.options
  ordinal : table.ordinal = draft.ordinal.getD position

theorem single_key_columns (keys : List Constraint) (single : keys.length ≤ 1) :
    keys.flatMap Constraint.columns = keys.head?.elim [] Constraint.columns := by
  cases keys with
  | nil => rfl
  | cons key rest =>
      obtain rfl : rest = [] := by simpa using single
      simp

theorem coerced_column (keyColumns : List String) (column : Column) :
    (if column.name ∈ keyColumns then { column with nullable := false } else column)
      = { column with nullable := column.nullable && column.name ∉ keyColumns } := by
  by_cases keyed : column.name ∈ keyColumns <;> simp [keyed]

theorem yields_iff (draft : TableDraft) (position : Nat) (table : Table)
    (single : draft.primaryKeys.length ≤ 1) :
    draft.Yields position table ↔ table = draft.toTable position := by
  have columns : (draft.toTable position).columns = draft.columns.map fun column => { column with
      nullable := column.nullable && column.name ∉ draft.primaryKeys.flatMap Constraint.columns } := by
    rw [single_key_columns draft.primaryKeys single]
    exact List.map_congr_left fun column _ => coerced_column _ column
  constructor
  · intro yields
    have key : table.primaryKey = draft.primaryKeys.head? := by
      rw [← yields.primaryKey]
      cases table.primaryKey <;> rfl
    have built : table.columns = (draft.toTable position).columns := by
      rw [columns, ← List.forall₂_eq_eq_eq, List.forall₂_map_right_iff]
      exact yields.columns.flip
    obtain ⟨name, tableColumns, tableKey, indexes, constraints, options, ordinal⟩ := table
    obtain ⟨rfl, -, -, rfl, rfl, rfl, rfl⟩ := yields
    cases key
    cases built
    rfl
  · rintro rfl
    refine ⟨rfl, ?_, single_key draft.primaryKeys single, rfl, rfl, rfl, rfl⟩
    rw [columns, List.forall₂_map_right_iff]
    exact List.forall₂_same.mpr fun _ _ => rfl

theorem table_builds_iff (draft : TableDraft) (position : Nat) :
    ((∃ table, draft.build position = .ok table) ↔ draft.Sound) ∧
      ∀ table, draft.build position = .ok table ↔ draft.Sound ∧ draft.Yields position table := by
  refine ⟨?_, fun table => ?_⟩
  · constructor
    · rintro ⟨table, built⟩
      exact ((table_build_ok draft position table).mp built).1
    · exact fun sound => ⟨_, (table_build_ok draft position _).mpr ⟨sound, rfl⟩⟩
  · rw [table_build_ok]
    exact and_congr_right fun sound => (yields_iff draft position table sound.singleKey).symm

/-! ### Schemas -/

-- Foreign keys point at columns that some table of the drafts has.
def Declared (drafts : List TableDraft) : Prop :=
  ∀ d ∈ drafts, ∀ c ∈ d.constraints, ∀ r, c.reference? = some r →
    ∃ target ∈ drafts, target.name = r.table ∧ ∀ name ∈ r.columns, name ∈ target.columnNames

theorem tables_from_present (position : Nat) (drafts : List TableDraft) (d : TableDraft)
    (member : d ∈ drafts) : ∃ n, d.toTable n ∈ tablesFrom position drafts := by
  induction drafts generalizing position with
  | nil => cases member
  | cons draft drafts ih =>
      rcases List.mem_cons.mp member with rfl | later
      · exact ⟨position, List.mem_cons_self⟩
      · obtain ⟨n, found⟩ := ih (position + 1) later
        exact ⟨n, List.mem_cons_of_mem _ found⟩

theorem sorted_names (drafts : List TableDraft) :
    (Schema.tableNames { tables := SchemaDraft.sortByOrdinal (tablesFrom 0 drafts) }).Perm
      (drafts.map TableDraft.name) := by
  rw [← tables_from_names 0 drafts]
  exact (sort_perm (tablesFrom 0 drafts)).map Table.name

theorem resolves_iff (tables : List Table) (distinct : (tables.map Table.name).Nodup) (r : Reference) :
    Schema.Resolves { tables } r ↔
      ∃ target ∈ tables, target.name = r.table ∧ ∀ name ∈ r.columns, name ∈ target.columnNames := by
  constructor
  · rintro ⟨target, found, columns⟩
    obtain ⟨member, named⟩ := table_found { tables } r.table target found
    exact ⟨target, member, named, columns⟩
  · rintro ⟨target, member, named, columns⟩
    exact ⟨target, named ▸ table_of_mem { tables } distinct target member, columns⟩

theorem resolved_iff_declared (drafts : List TableDraft)
    (distinct : (drafts.map TableDraft.name).Nodup) :
    Schema.Resolved { tables := SchemaDraft.sortByOrdinal (tablesFrom 0 drafts) } ↔
      Declared drafts := by
  have perm := sort_perm (tablesFrom 0 drafts)
  have resolves := resolves_iff _ ((sorted_names drafts).nodup_iff.mpr distinct)
  constructor
  · intro resolved d member c inside r points
    obtain ⟨n, there⟩ := tables_from_present 0 drafts d member
    obtain ⟨target, found, named, columns⟩ :=
      (resolves r).mp (resolved _ (perm.mem_iff.mpr there) c inside r points)
    obtain ⟨e, declared, m, rfl⟩ := tables_from_mem 0 drafts target (perm.mem_iff.mp found)
    exact ⟨e, declared, named, built_column_names e m ▸ columns⟩
  · intro declared t member c inside r points
    obtain ⟨d, there, n, rfl⟩ := tables_from_mem 0 drafts t (perm.mem_iff.mp member)
    obtain ⟨target, found, named, columns⟩ := declared d there c inside r points
    obtain ⟨m, present⟩ := tables_from_present 0 drafts target found
    exact (resolves r).mpr ⟨_, perm.mem_iff.mpr present, named,
      (built_column_names target m).symm ▸ columns⟩

theorem schema_builds_iff (drafts : List TableDraft) :
    (∃ schema, SchemaDraft.build { tables := drafts } = .ok schema) ↔
      (∀ d ∈ drafts, d.Sound) ∧ (drafts.map TableDraft.name).Nodup ∧ Declared drafts := by
  simp only [schema_build_ok]
  constructor
  · rintro ⟨_, sounds, distinct, rfl, resolved⟩
    exact ⟨sounds, distinct, (resolved_iff_declared drafts distinct).mp resolved⟩
  · rintro ⟨sounds, distinct, declared⟩
    exact ⟨_, sounds, distinct, rfl, (resolved_iff_declared drafts distinct).mpr declared⟩

theorem declared_perm (drafts others : List TableDraft) (perm : drafts.Perm others)
    (declared : Declared drafts) : Declared others := by
  intro d member c inside r points
  obtain ⟨target, found, pointed⟩ := declared d (perm.mem_iff.mpr member) c inside r points
  exact ⟨target, perm.mem_iff.mp found, pointed⟩

theorem tables_from_shapes (position : Nat) (drafts : List TableDraft) :
    (tablesFrom position drafts).map Table.shape = drafts.map fun d => (d.toTable 0).shape := by
  induction drafts generalizing position with
  | nil => rfl
  | cons d drafts ih =>
      rw [tablesFrom, List.map_cons, List.map_cons, ih]
      rfl

theorem built_shapes (drafts : List TableDraft) (schema : Schema)
    (built : SchemaDraft.build { tables := drafts } = .ok schema) :
    tally Table.shape schema.tables = ↑(drafts.map fun d => (d.toTable 0).shape) ∧
      schema.tableNames.Nodup ∧ ∀ t ∈ schema.tables, t.columnNames.Nodup := by
  obtain ⟨sounds, distinct, rfl, _⟩ := (schema_build_ok _ schema).mp built
  have perm := sort_perm (tablesFrom 0 drafts)
  refine ⟨?_, (sorted_names drafts).nodup_iff.mpr distinct, fun t member => ?_⟩
  · rw [tally_perm Table.shape perm, tally, tables_from_shapes]
  · obtain ⟨d, found, n, rfl⟩ := tables_from_mem 0 drafts t (perm.mem_iff.mp member)
    exact built_column_names d n ▸ (sounds d found).columnsDistinct

theorem declaration_order_free :
    (∀ drafts others : List TableDraft, drafts.Perm others →
      ((∃ schema, SchemaDraft.build { tables := drafts } = .ok schema) ↔
        ∃ schema, SchemaDraft.build { tables := others } = .ok schema) ∧
      ∀ a b, SchemaDraft.build { tables := drafts } = .ok a →
        SchemaDraft.build { tables := others } = .ok b → a.equivalent b = true) ∧
    ∀ schema : Schema, schema.Validated → schema.toDraft.build = .ok schema := by
  refine ⟨fun drafts others perm => ⟨?_, fun a b first second => ?_⟩, fun schema valid => ?_⟩
  · have names := (perm.map TableDraft.name).nodup_iff
    have declared : Declared drafts ↔ Declared others :=
      ⟨declared_perm drafts others perm, declared_perm others drafts perm.symm⟩
    simp only [schema_builds_iff, perm.mem_iff, names, declared]
  · obtain ⟨shapes, distinct, columns⟩ := built_shapes drafts a first
    obtain ⟨otherShapes, otherDistinct, otherColumns⟩ := built_shapes others b second
    refine (schema_shapes_iff a b distinct otherDistinct columns otherColumns).mpr ?_
    rw [shapes, otherShapes]
    exact Multiset.coe_eq_coe.mpr (perm.map _)
  · exact schema_reopened schema ((validated_iff_well_formed schema).mp valid)

namespace Festival

def film : TableDraft where
  name := "film"
  columns := [{ name := "id", type := { base := .bigInt }, nullable := true },
    { name := "sequel_of", type := { base := .bigInt }, nullable := true },
    { name := "studio", type := { base := .bigInt } }]
  primaryKeys := [.primaryKey ["id"]]
  constraints := [.foreignKey ["sequel_of"] { table := "film", columns := ["id"] },
    .foreignKey ["studio"] { table := "studio", columns := ["id"] }]

def studio : TableDraft where
  name := "studio"
  columns := [{ name := "id", type := { base := .bigInt } }]
  primaryKeys := [.primaryKey ["id"]]

def filmsFirst : Schema := { tables := [film.toTable 0, studio.toTable 1] }

def studiosFirst : Schema := { tables := [studio.toTable 0, film.toTable 1] }

end Festival

theorem festival_order_free :
    SchemaDraft.build { tables := [Festival.film, Festival.studio] } = .ok Festival.filmsFirst ∧
      SchemaDraft.build { tables := [Festival.studio, Festival.film] } = .ok Festival.studiosFirst ∧
      Festival.filmsFirst.equivalent Festival.studiosFirst = true ∧
      Festival.filmsFirst.Validated ∧
      Festival.filmsFirst.toDraft.build = .ok Festival.filmsFirst := by
  have valid : Festival.filmsFirst.Validated :=
    ⟨{ tables := [Festival.film, Festival.studio] }, by decide, rfl⟩
  exact ⟨rfl, rfl, (declaration_order_free.1 _ _ (.swap Festival.studio Festival.film [])).2 _ _ rfl rfl,
    valid, declaration_order_free.2 _ valid⟩

end SchemaDrift
