import SchemaDrift.Migration.Source
import SchemaDrift.Proofs.Ddl.ReadTable
/-!
Every schema that a source gives is validated and can be written, be it declared by structs or by
definitions.
-/

set_option autoImplicit false

namespace SchemaDrift

namespace Code.Origin

variable (origin : Origin)

structure Keeps (P : TableDraft → Prop) : Prop where
  columns : ∀ declaration fields columns flagged name,
    origin.columns declaration fields = .ok (columns, flagged) → P { name, columns }
  constraint : ∀ draft c, P draft → c.kind.Stripped → P (draft.addConstraint c)
  index : ∀ draft index, P draft → P (draft.addIndex index)

section Keeps

variable (P : TableDraft → Prop) (keeps : origin.Keeps P)

include keeps

theorem add_index_keeps (declaration : String) (draft : TableDraft) (statement : Quoted)
    (next : TableDraft) (holds : P draft)
    (added : origin.addIndex declaration draft statement = .ok next) : P next := by
  obtain ⟨⟨target, index⟩, _, rest⟩ := (bind_ok _ _ _).mp added
  dsimp only at rest
  split at rest
  · cases rest
  · split at rest
    · cases rest
    · cases rest
      exact keeps.index draft index holds

omit keeps in
theorem parsed_stripped (dialect : Dialect) (text : List Char) (c : Constraint)
    (parsed : dialect.parseConstraint text = .ok c) : c.kind.Stripped := by
  obtain ⟨tree, _, rest⟩ := (bind_ok _ _ _).mp parsed
  split at rest
  · exact Ddl.table_constraint_stripped dialect _ c rest
  · cases rest

theorem add_constraint_keeps (declaration : String) (draft : TableDraft) (fragment : Quoted)
    (next : TableDraft) (holds : P draft)
    (added : origin.addConstraint declaration draft fragment = .ok next) : P next := by
  obtain ⟨c, parsed, last⟩ := (bind_ok _ _ _).mp added
  cases last
  exact keeps.constraint draft c holds
    (parsed_stripped _ _ c ((map_error_ok _ _ _).mp parsed))

theorem declared_table_keeps (struct : Struct) (settings : TableSettings)
    (fields : List AnnotatedField) (table : TableDraft)
    (declared : origin.declaredTable struct settings fields = .ok table) : P table := by
  obtain ⟨⟨columns, flagged⟩, made, rest⟩ := (bind_ok _ _ _).mp declared
  obtain ⟨key, _, rest⟩ := (bind_ok _ _ _).mp rest
  obtain ⟨indexed, indexes, constraints⟩ := (bind_ok _ _ _).mp rest
  have bare : P { name := tableName struct settings, columns } := keeps.columns _ _ _ _ _ made
  refine fold_m_keeps _ _ (add_constraint_keeps origin P keeps _) _ indexed table
    (fold_m_keeps _ _ (add_index_keeps origin P keeps _) _ _ indexed ?_ indexes) constraints
  split
  · exact bare
  · refine keeps.constraint _ _ bare ?_
    rintro e ⟨⟩

theorem table_keeps (struct : Struct) (table : TableDraft)
    (declared : origin.table? struct = .ok (some table)) : P table := by
  obtain ⟨settings, _, rest⟩ := (bind_ok _ _ _).mp declared
  split at rest
  · split at rest <;> cases rest
  · obtain ⟨fields, _, rest⟩ := (bind_ok _ _ _).mp rest
    split at rest
    · cases rest
    · obtain ⟨made, found, same⟩ := (map_ok _ _ _).mp rest
      cases same
      exact declared_table_keeps origin P keeps struct _ fields table found

end Keeps

mutual

theorem item_tables_keep (P : TableDraft → Prop) (keeps : origin.Keeps P) (item : Item)
    (tables : List TableDraft) (read : origin.itemTables item = .ok tables) : ∀ d ∈ tables, P d := by
  cases item with
  | struct declaration =>
      obtain ⟨declared, found, rfl⟩ := (map_ok _ _ _).mp read
      intro d member
      rw [Option.mem_toList.mp member] at found
      exact table_keeps origin P keeps declaration d found
  | module items => exact tables_keep P keeps items tables read
  | other =>
      cases read
      exact List.forall_mem_nil _

theorem tables_keep (P : TableDraft → Prop) (keeps : origin.Keeps P) (items : List Item)
    (tables : List TableDraft) (read : origin.tables items = .ok tables) : ∀ d ∈ tables, P d := by
  cases items with
  | nil =>
      cases read
      exact List.forall_mem_nil _
  | cons item items =>
      obtain ⟨first, start, rest⟩ := (bind_ok _ _ _).mp read
      obtain ⟨later, others, last⟩ := (bind_ok _ _ _).mp rest
      cases last
      exact List.forall_mem_append.mpr
        ⟨item_tables_keep P keeps item first start, tables_keep P keeps items later others⟩

end

theorem read_keeps (P : TableDraft → Prop) (keeps : origin.Keeps P) (tables : List TableDraft)
    (read : origin.read = .ok tables) : ∀ d ∈ tables, P d := by
  obtain ⟨file, _, rest⟩ := (bind_ok _ _ _).mp read
  exact tables_keep origin P keeps file.items tables rest

theorem keeps_placed : origin.Keeps TableDraft.Placed where
  columns := fun _ _ _ _ _ _ => placed_bare _ rfl rfl
  constraint := fun draft c placed _ => placed_add_constraint draft c placed
  index := fun _ _ placed => ⟨placed.keys, placed.constraints⟩

/-! ### What can be written -/

theorem scalar_base (type : FieldType) (scalar : ColumnType) (found : type.scalar? = some scalar) :
    ∃ base, scalar = { base } := by
  fun_induction FieldType.scalar? type
  case case3 =>
    obtain ⟨base, _, rfl⟩ := Option.map_eq_some_iff.mp found
    exact ⟨base, rfl⟩
  case case9 ih => exact ih found
  all_goals cases found
  all_goals exact ⟨_, rfl⟩

theorem value_base (type : FieldType) (value : ColumnType) (found : type.value? = some value) :
    ∃ base array, value = { base, array } := by
  unfold FieldType.value? at found
  split at found
  · split at found
    · cases found
      exact ⟨_, _, rfl⟩
    · obtain ⟨scalar, inside, rfl⟩ := Option.map_eq_some_iff.mp found
      obtain ⟨base, rfl⟩ := scalar_base _ scalar inside
      exact ⟨base, true, rfl⟩
  · obtain ⟨base, rfl⟩ := scalar_base type value found
    exact ⟨base, false, rfl⟩

theorem field_narrow (type : FieldType) (column : ColumnType) (nullable : Bool)
    (found : type.column? = some (column, nullable)) : column.Narrow := by
  have based : ∃ base array, column = { base, array } := by
    unfold FieldType.column? at found
    split at found
    all_goals
      obtain ⟨value, inside, same⟩ := Option.map_eq_some_iff.mp found
      cases same
      exact value_base _ column inside
  obtain ⟨base, array, rfl⟩ := based
  constructor <;> rintro n ⟨⟩

theorem column_narrow (declaration : String) (field : AnnotatedField) (column : Column)
    (made : origin.column declaration field = .ok column) : column.type.Narrow := by
  unfold Origin.column at made
  split at made
  case h_1 definition _ =>
    obtain ⟨fragment, parsed, rest⟩ := (bind_ok _ _ _).mp made
    split at rest
    · cases rest
    · cases rest
      exact fragment_narrow _ _ fragment ((map_error_ok _ _ _).mp parsed)
  case h_2 =>
    split at made
    · next type nullable found =>
      cases made
      exact field_narrow _ type nullable found
    · cases made

theorem columns_narrow (declaration : String) (fields : List AnnotatedField) (columns : List Column)
    (flagged : List String) (made : origin.columns declaration fields = .ok (columns, flagged)) :
    ∀ c ∈ columns, c.type.Narrow := by
  induction fields generalizing columns flagged with
  | nil =>
      cases made
      exact List.forall_mem_nil _
  | cons field fields ih =>
      unfold Origin.columns at made
      split at made
      · split at made
        · cases made
        · exact ih columns flagged made
      · obtain ⟨first, own, rest⟩ := (bind_ok _ _ _).mp made
        obtain ⟨⟨later, key⟩, others, last⟩ := (bind_ok _ _ _).mp rest
        cases last
        exact List.forall_mem_cons.mpr
          ⟨column_narrow origin declaration field first own, ih later key others⟩

theorem keeps_writes : origin.Keeps TableDraft.Writes where
  columns := fun _ _ _ _ _ made => ⟨columns_narrow origin _ _ _ _ made, List.forall_mem_nil _,
    List.forall_mem_nil _⟩
  constraint := writes_constraint
  index := fun _ _ writes => ⟨writes.types, writes.checks, writes.options⟩

end Code.Origin

/-! ### Sources -/

theorem schema_of_drafts (P : TableDraft → Prop) (tables : List TableDraft) (schema : Schema)
    (each : ∀ d ∈ tables, P d) (made : Code.schemaOf tables = .ok schema) :
    ∃ draft : SchemaDraft, (∀ d ∈ draft.tables, P d) ∧ draft.build = .ok schema := by
  obtain ⟨draft, collected, built⟩ := (bind_ok _ _ _).mp made
  refine ⟨draft, ?_, built⟩
  refine fold_m_keeps_members (fun schema : SchemaDraft => ∀ d ∈ schema.tables, P d) _ tables {} draft
    ?_ (List.forall_mem_nil _) collected
  intro start table member next before added
  unfold Code.schemaOf.addOnce at added
  split at added
  · cases added
  · cases added
    exact Ddl.Reader.added_among P start table before (each table member)

theorem load_drafts (settings : Settings) (workspace : Workspace) (source : Source) (schema : Schema)
    (loaded : source.load settings workspace = .ok schema) : ∃ draft : SchemaDraft,
      (∀ d ∈ draft.tables, d.Placed ∧ d.Writes) ∧ draft.build = .ok schema := by
  have structs (origin : Code.Origin) (tables : List TableDraft) (read : origin.read = .ok tables) :
      ∀ d ∈ tables, d.Placed ∧ d.Writes := fun d member =>
    ⟨Code.Origin.read_keeps origin _ (Code.Origin.keeps_placed origin) tables read d member,
      Code.Origin.read_keeps origin _ (Code.Origin.keeps_writes origin) tables read d member⟩
  have definitions (text : String) (parsed : settings.dialect.parse text.toList = .ok schema) :
      ∃ draft : SchemaDraft, (∀ d ∈ draft.tables, d.Placed ∧ d.Writes) ∧ draft.build = .ok schema := by
    obtain ⟨draft, each, built, -⟩ := parsed_drafts settings.dialect text.toList schema parsed
    exact ⟨draft, fun d member => ⟨(each d member).1, (each d member).2.1⟩, built⟩
  cases source with
  | rust path =>
      obtain ⟨files, each, made⟩ := (bind_ok _ _ _).mp loaded
      refine schema_of_drafts _ files.flatten schema (fun d member => ?_) made
      obtain ⟨tables, among, inside⟩ := List.mem_flatten.mp member
      obtain ⟨file, _, read⟩ := partner_of_right _ _ _ ((map_m_ok _ _ _).mp each) tables among
      obtain ⟨text, _, declared⟩ := (bind_ok _ _ _).mp read
      exact structs _ tables declared d inside
  | rustText text =>
      obtain ⟨tables, read, made⟩ := (bind_ok _ _ _).mp loaded
      exact schema_of_drafts _ tables schema (structs _ tables read) made
  | ddl path =>
      obtain ⟨text, _, parsed⟩ := (bind_ok _ _ _).mp loaded
      exact definitions text parsed
  | ddlText text => exact definitions text loaded

theorem load_validated (settings : Settings) (workspace : Workspace) (source : Source)
    (schema : Schema) (loaded : source.load settings workspace = .ok schema) : schema.Validated := by
  obtain ⟨draft, each, built⟩ := load_drafts settings workspace source schema loaded
  exact ⟨draft, fun d member => (each d member).1, built⟩

theorem load_writable (settings : Settings) (workspace : Workspace) (source : Source)
    (schema : Schema) (loaded : source.load settings workspace = .ok schema) :
    ∀ t ∈ schema.tables, Writable t.columns t.constraints t.options := by
  obtain ⟨draft, each, built⟩ := load_drafts settings workspace source schema loaded
  exact drafts_writable draft schema (fun d member => (each d member).2) built

end SchemaDrift
