import SchemaDrift.Proofs.Ddl.Declared
import SchemaDrift.Proofs.Dialect.Congruence
/-!
What the drafts of a printed schema build: the same tables but for the order of their constraints and
indexes and for what equivalence does not see. A canonical image gives its own canonical image.
-/

set_option autoImplicit false

namespace SchemaDrift

open Grammar (uncommented)

/-! ### Constraints -/

def SteadyCheck (expression : String) : Prop :=
  Check.squeeze (String.ofList (Default.stripParens ('(' :: (expression.toList ++ [')']))))
    = Check.squeeze expression

def Constraint.Steady (constraint : Constraint) : Prop :=
  ∀ expression, constraint.kind = .check expression → SteadyCheck expression

section Constraint

variable (dialect : Dialect) (table : String) (c : Constraint)

theorem effective_twice (action : Option ReferentialAction) :
    ReferentialAction.effective (ReferentialAction.effective action)
      = ReferentialAction.effective action := by
  simp [ReferentialAction.effective, Option.filter_filter]

theorem back_shape (steady : c.Steady) : (dialect.readBack table c).shape = c.shape := by
  obtain ⟨name, columns, kind⟩ := c
  cases kind with
  | primaryKey | unique => rfl
  | foreignKey r =>
      simp [Dialect.readBack, Constraint.bare, Constraint.shape, Constraint.foreignKey,
        Reference.reread, effective_twice]
  | check e => exact congrArg Shape.check (steady e rfl)

theorem back_reference (r : Reference)
    (points : (dialect.readBack table c).reference? = some r) :
    ∃ s, c.reference? = some s ∧ r = s.reread := by
  obtain ⟨name, columns, kind⟩ := c
  cases kind with
  | primaryKey | unique | check e => cases points
  | foreignKey s => exact ⟨s, rfl, (Option.some.inj points).symm⟩

theorem back_fits (existing : List String) (fits : c.Fits existing) :
    (dialect.readBack table c).Fits existing := by
  refine ⟨?_, fun r points => ?_⟩
  · obtain ⟨name, columns, kind⟩ := c
    cases kind with
    | check e => exact .inl ⟨rfl, rfl⟩
    | primaryKey | unique | foreignKey r =>
        exact .inr (fits.columns.resolve_left fun check => Bool.false_ne_true check.1)
  · obtain ⟨s, pointed, rfl⟩ := back_reference dialect table c r points
    have same := fits.arity s pointed
    obtain ⟨name, columns, kind⟩ := c
    cases kind with
    | primaryKey | unique | check e => cases pointed
    | foreignKey s => exact same

theorem back_columns (primary : c.isPrimaryKey = true) :
    (dialect.readBack table c).columns = c.columns := by
  obtain ⟨name, columns, kind⟩ := c
  cases kind with
  | primaryKey => rfl
  | unique | check e | foreignKey r => cases primary

theorem back_unique : (dialect.readBack table c).kind = .unique ↔ c.kind = .unique := by
  obtain ⟨name, columns, kind⟩ := c
  cases kind <;> simp [Dialect.readBack, Constraint.bare, Constraint.primaryKey, Constraint.unique,
    Constraint.check, Constraint.foreignKey]

theorem back_allowed (allowed : dialect.Allows c) : dialect.Allows (dialect.readBack table c) := by
  intro spanner
  obtain ⟨other, actions⟩ := (refusal_none_iff c).mp (allowed spanner)
  refine (refusal_none_iff _).mpr ⟨(back_unique dialect table c).not.mpr other, fun r points => ?_⟩
  obtain ⟨s, pointed, rfl⟩ := back_reference dialect table c r points
  obtain ⟨update, delete⟩ := actions s pointed
  rw [Reference.reread, update, effective_twice]
  exact ⟨rfl, delete⟩

end Constraint

/-! ### Columns -/

-- The column as it is in the table that is built again, where a key refuses NULL.
def Dialect.rebuilt (dialect : Dialect) (t : Table) (c : Column) : Column :=
  if c.name ∈ t.primaryKeyColumns then { dialect.columnBack c with nullable := false }
  else dialect.columnBack c

def Dialect.Agrees (dialect : Dialect) (t : Table) (c : Column) : Prop :=
  dialect.canonicalColumn (dialect.rebuilt t c) = .ok c.shape

-- The definition, read by itself, gives the column and nothing else.
structure Dialect.Defines (dialect : Dialect) (t : Table) (c : Column) (raw : String) : Prop where
  bare : uncommented raw.toList = true
  reads : ∃ fragment, dialect.parseColumn raw.toList = .ok fragment ∧ fragment.constraints = []
  agrees : dialect.Agrees t c

theorem rebuilt_name (dialect : Dialect) (t : Table) (c : Column) :
    (dialect.rebuilt t c).name = c.name := by
  unfold Dialect.rebuilt
  split <;> exact column_back_name dialect c

theorem rebuilt_names (dialect : Dialect) (t : Table) :
    (t.columns.map (dialect.rebuilt t)).map Column.name = t.columnNames := by
  rw [List.map_map]
  exact List.map_congr_left fun c _ => rebuilt_name dialect t c

theorem made_agrees (dialect : Dialect) (t : Table) (wf : t.WellFormed) (c : Column)
    (member : c ∈ t.columns) (made : c.rawDefinition = none)
    (fixed : dialect.canonicalColumn c = .ok c) : dialect.Agrees t c := by
  have same : dialect.rebuilt t c = c.shape := by
    rw [Dialect.rebuilt, Dialect.columnBack, made]
    by_cases keyed : c.name ∈ t.primaryKeyColumns
    · rw [if_pos keyed, ← wf.refusesNull c member keyed]
      rfl
    · exact if_neg keyed
  rw [Dialect.Agrees, same]
  exact canonical_column_shape dialect c c fixed

/-! ### Tables -/

structure Dialect.Redeclares (dialect : Dialect) (t : Table) (draft : TableDraft) : Prop where
  name : draft.name = t.name
  columns : draft.columns = t.columns.map dialect.columnBack
  keys : draft.primaryKeys = t.primaryKey.toList.map (dialect.readBack t.name)
  indexes : draft.indexes.Perm t.indexes
  constraints : draft.constraints.Perm (t.constraints.map (dialect.readBack t.name))
  unplaced : draft.ordinal = none

theorem final_redeclares (dialect : Dialect) (turn : Table × (String → Bool)) :
    dialect.Redeclares turn.1 (dialect.final turn) := by
  refine ⟨rfl, rfl, rfl, List.filter_append_perm .., ?_, rfl⟩
  show ((Diff.placed turn).constraints.map (dialect.readBack turn.1.name)
    ++ (CreationOrder.blocking turn.2 turn.1).map (dialect.readBack turn.1.name)).Perm _
  rw [Diff.placed, without_blocking, blocking_filter, ← List.map_append]
  exact (List.perm_append_comm.trans (List.filter_append_perm _ _)).map _

structure Dialect.Unfolded (dialect : Dialect) (t : Table) : Prop where
  indexes : dialect = .mysql → ∀ i ∈ t.indexes, i.folds = false
  constraints : dialect = .spanner → ∀ c ∈ t.constraints, c.kind ≠ .unique

theorem image_unfolded (dialect : Dialect) (t : Table) (image : dialect.Image t t) :
    dialect.Unfolded t := by
  refine ⟨?_, ?_⟩
  · rintro rfl i member
    have all : t.indexes.filter (!·.folds) = t.indexes := image.indexes.symm
    simpa using List.filter_eq_self.mp all i member
  · rintro rfl c member
    have all : t.constraints.filter (·.kind ≠ .unique) = t.constraints := image.constraints.symm
    simpa using List.filter_eq_self.mp all c member

theorem unfolded_parts (dialect : Dialect) (t : Table) (unfolded : dialect.Unfolded t) :
    t.constraints = dialect.foldedConstraints t ∧ t.indexes = dialect.foldedIndexes t := by
  cases dialect with
  | postgres => exact ⟨rfl, rfl⟩
  | mysql =>
      have plain := unfolded.indexes rfl
      have none : t.indexes.filter Index.folds = [] :=
        List.filter_eq_nil_iff.mpr fun i member => by simp [plain i member]
      refine ⟨?_, (List.filter_eq_self.mpr fun i member => by simp [plain i member]).symm⟩
      rw [Dialect.foldedConstraints, none, List.map_nil, List.append_nil]
  | spanner =>
      have plain := unfolded.constraints rfl
      have none : t.constraints.filter (·.kind = .unique) = [] :=
        List.filter_eq_nil_iff.mpr fun c member => by simp [plain c member]
      refine ⟨(List.filter_eq_self.mpr fun c member => by simp [plain c member]).symm, ?_⟩
      rw [Dialect.foldedIndexes, none, List.map_nil, List.append_nil]

section Table

variable (dialect : Dialect) (t : Table) (draft : TableDraft) (wf : t.WellFormed)
  (back : dialect.Redeclares t draft)

include wf back

theorem redeclared_sound : draft.Sound := by
  have names : draft.columnNames = t.columnNames := by
    rw [TableDraft.columnNames, back.columns, List.map_map]
    exact List.map_congr_left fun c _ => column_back_name dialect c
  have sound := wf.sound
  have inhabited : draft.columns ≠ [] := by
    rw [back.columns]
    exact fun none => sound.inhabited (List.map_eq_nil_iff.mp none)
  refine ⟨back.name ▸ sound.named, inhabited, names ▸ sound.columnsNamed,
    names ▸ sound.columnsDistinct, ?_, fun key member => ?_, fun c member => ?_, ?_,
    fun index member => ?_⟩
  · rw [back.keys, List.length_map]
    exact sound.singleKey
  · rw [back.keys] at member
    obtain ⟨k, inside, rfl⟩ := List.mem_map.mp member
    rw [back_columns dialect t.name k (wf.placed.keys k inside), names]
    exact sound.keys k inside
  · obtain ⟨old, inside, rfl⟩ := List.mem_map.mp (back.constraints.subset member)
    exact names ▸ back_fits dialect t.name old _ (sound.constraints old inside)
  · exact (back.indexes.map Index.name).nodup_iff.mpr sound.indexesDistinct
  · exact names ▸ sound.indexes index (back.indexes.subset member)

theorem redeclared_placed : draft.Placed := by
  refine ⟨fun key member => ?_, fun c member => ?_⟩
  · rw [back.keys] at member
    obtain ⟨k, inside, rfl⟩ := List.mem_map.mp member
    exact (back_is_primary dialect t.name k).trans (wf.placed.keys k inside)
  · obtain ⟨old, inside, rfl⟩ := List.mem_map.mp (back.constraints.subset member)
    exact (back_is_primary dialect t.name old).trans (wf.placed.constraints old inside)

theorem redeclared_key (position : Nat) :
    (draft.toTable position).primaryKeyColumns = t.primaryKeyColumns := by
  rw [key_columns_of_head, back.keys, Table.primaryKeyColumns]
  cases key : t.primaryKey with
  | none => rfl
  | some k =>
      have primary := wf.placed.keys k (by simp [Table.toDraft, key])
      exact back_columns dialect t.name k primary

theorem redeclared_columns (position : Nat) :
    (draft.toTable position).columns = t.columns.map (dialect.rebuilt t) := by
  have keyed : draft.primaryKeys.head?.elim [] Constraint.columns = t.primaryKeyColumns :=
    (key_columns_of_head draft position).symm.trans (redeclared_key dialect t draft wf back position)
  show draft.columns.map (fun column =>
    if column.name ∈ draft.primaryKeys.head?.elim [] Constraint.columns then
      { column with nullable := false } else column) = t.columns.map (dialect.rebuilt t)
  rw [keyed, back.columns, List.map_map]
  refine List.map_congr_left fun c _ => ?_
  simp only [Function.comp_apply, column_back_name, Dialect.rebuilt]

def Table.copy (t again : Table) : Table := { again with columns := t.columns.map Column.shape }

theorem redeclared_shape (steady : ∀ c ∈ t.constraints, c.Steady) (position : Nat) :
    (t.copy (draft.toTable position)).shape = t.shape := by
  have columns : tally Column.shape (t.columns.map Column.shape) = tally Column.shape t.columns := by
    rw [tally, tally, List.map_map]
    rfl
  have constraints : tally Constraint.shape draft.constraints = tally Constraint.shape t.constraints := by
    rw [tally_perm _ back.constraints, tally, tally, List.map_map]
    congr 1
    exact List.map_congr_left fun c member => back_shape dialect t.name c (steady c member)
  have key : (t.copy (draft.toTable position)).primaryKeyColumns = t.primaryKeyColumns :=
    redeclared_key dialect t draft wf back position
  rw [Table.shape, key, Table.shape]
  show TableShape.mk draft.name (tally Column.shape (t.columns.map Column.shape)) _
    (tally Constraint.shape draft.constraints) (tally Index.shape draft.indexes) = _
  rw [back.name, columns, constraints, tally_perm _ back.indexes]

omit wf in
theorem redeclared_unfolded (unfolded : dialect.Unfolded t) (position : Nat) :
    dialect.Unfolded (draft.toTable position) := by
  refine ⟨fun mysql i member => unfolded.indexes mysql i (back.indexes.subset member),
    fun spanner c member => ?_⟩
  obtain ⟨old, inside, rfl⟩ := List.mem_map.mp (back.constraints.subset member)
  exact (back_unique dialect t.name old).not.mpr (unfolded.constraints spanner old inside)

theorem redeclared_image (image : dialect.Image t t) (agrees : ∀ c ∈ t.columns, dialect.Agrees t c)
    (position : Nat) :
    dialect.Image (draft.toTable position) (t.copy (draft.toTable position)) := by
  obtain ⟨constraints, indexes⟩ := unfolded_parts dialect _
    (redeclared_unfolded dialect t draft back (image_unfolded dialect t image) position)
  refine ⟨rfl, rfl, rfl, rfl, ?_, constraints, indexes⟩
  rw [redeclared_columns dialect t draft wf back, Table.copy, List.forall₂_map_left_iff,
    List.forall₂_map_right_iff, List.forall₂_same]
  exact agrees

theorem redeclared_checked (image : dialect.Image t t) (agrees : ∀ c ∈ t.columns, dialect.Agrees t c)
    (accepts : dialect.Accepts t) (position : Nat) :
    dialect.checkTable (draft.toTable position) = .ok () ∧
      ∀ c ∈ (draft.toTable position).columns, dialect.checkColumn c = .ok () := by
  refine ⟨(check_table_ok dialect _).mpr fun c inside => ?_, fun c inside => ?_⟩
  · obtain ⟨old, listed, rfl⟩ := List.mem_map.mp (back.constraints.subset inside)
    rw [image.constraints] at listed
    exact back_allowed dialect t.name old (accepts.allowed old listed)
  · rw [redeclared_columns dialect t draft wf back] at inside
    obtain ⟨old, listed, rfl⟩ := List.mem_map.mp inside
    exact ((canonical_column_ok dialect _ _).mp (agrees old listed)).1

theorem redeclared_accepted (image : dialect.Image t t) (accepts : dialect.Accepts t) (position : Nat) :
    dialect.Accepts (draft.toTable position) := by
  obtain ⟨constraints, indexes⟩ := unfolded_parts dialect _
    (redeclared_unfolded dialect t draft back (image_unfolded dialect t image) position)
  refine ⟨?_, fun c member => ?_⟩
  · rw [← indexes]
    exact (back.indexes.map Index.name).nodup_iff.mpr wf.sound.indexesDistinct
  · rw [← constraints] at member
    obtain ⟨old, inside, rfl⟩ := List.mem_map.mp (back.constraints.subset member)
    have listed : old ∈ dialect.foldedConstraints t := image.constraints ▸ inside
    exact back_allowed dialect t.name old (accepts.allowed old listed)

omit wf back in
theorem copy_names (u : Table) : (t.copy u).columnNames = t.columnNames := by
  show (t.columns.map Column.shape).map Column.name = t.columns.map Column.name
  rw [List.map_map]
  rfl

structure Dialect.Restores (dialect : Dialect) (t again : Table) : Prop where
  columnNames : again.columnNames = t.columnNames
  checked : dialect.checkTable again = .ok () ∧
    ∀ c ∈ again.columns, dialect.checkColumn c = .ok ()
  image : dialect.Image again (t.copy again)
  accepts : dialect.Accepts again
  shape : (t.copy again).shape = t.shape

theorem redeclared_restores (image : dialect.Image t t)
    (agrees : ∀ c ∈ t.columns, dialect.Agrees t c) (accepts : dialect.Accepts t)
    (steady : ∀ c ∈ t.constraints, c.Steady) (position : Nat) :
    dialect.Restores t (draft.toTable position) where
  columnNames := by
    rw [Table.columnNames, redeclared_columns dialect t draft wf back]
    exact rebuilt_names dialect t
  checked := redeclared_checked dialect t draft wf back image agrees accepts position
  image := redeclared_image dialect t draft wf back image agrees position
  accepts := redeclared_accepted dialect t draft wf back image accepts position
  shape := redeclared_shape dialect t draft wf back steady position

end Table

/-! ### Schemas -/

theorem tables_from_ordered (position : Nat) (drafts : List TableDraft)
    (unplaced : ∀ d ∈ drafts, d.ordinal = none) :
    (∀ t ∈ tablesFrom position drafts, position ≤ t.ordinal) ∧
      (tablesFrom position drafts).Pairwise fun a b => a.ordinal ≤ b.ordinal := by
  induction drafts generalizing position with
  | nil => exact ⟨List.forall_mem_nil _, .nil⟩
  | cons draft drafts ih =>
      obtain ⟨first, others⟩ := List.forall_mem_cons.mp unplaced
      obtain ⟨later, ordered⟩ := ih (position + 1) others
      have here : (draft.toTable position).ordinal = position := by
        rw [TableDraft.toTable, first, Option.getD_none]
      refine ⟨List.forall_mem_cons.mpr ⟨here.ge, fun t member => ?_⟩, .cons (fun t member => ?_) ordered⟩
      · exact (Nat.le_succ position).trans (later t member)
      · rw [here]
        exact (Nat.le_succ position).trans (later t member)

theorem tables_from_of_pairs {α : Type} (R : α → TableDraft → Prop) (S : α → Table → Prop)
    (each : ∀ a d position, R a d → S a (d.toTable position)) (items : List α)
    (drafts : List TableDraft) (pairs : List.Forall₂ R items drafts) (position : Nat) :
    List.Forall₂ S items (tablesFrom position drafts) := by
  induction pairs generalizing position with
  | nil => exact .nil
  | cons first _ ih => exact .cons (each _ _ _ first) (ih (position + 1))

theorem tally_of_pairs {α β κ : Type} (f : α → κ) (g : β → κ) (k : List α) (l : List β)
    (pairs : List.Forall₂ (fun a b => g b = f a) k l) : tally g l = tally f k := by
  induction pairs with
  | nil => rfl
  | cons first _ ih => rw [tally_cons, tally_cons, first, ih]

theorem resolved_of_pairs (tables images : List Table)
    (pairs : List.Forall₂ (fun u v => v.name = u.name ∧ v.columnNames = u.columnNames ∧
      v.constraints = u.constraints) tables images)
    (resolved : Schema.Resolved { tables := tables }) : Schema.Resolved { tables := images } := by
  intro v member c inside r points
  obtain ⟨u, among, -, -, same⟩ := partner_of_right _ _ _ pairs v member
  obtain ⟨target, found, columns⟩ := resolved u among c (same ▸ inside) r points
  obtain ⟨w, looked, named⟩ := edited_target tables images r.table target
    (pairs.imp fun u v both => ⟨both.1, both.2.1⟩) found
  exact ⟨w, looked, named ▸ columns⟩

-- The drafts of a canonical image build a schema whose image is equivalent to it.
theorem redeclared_schema (dialect : Dialect) (schema : Schema) (drafts : List TableDraft)
    (wf : schema.WellFormed) (images : ∀ t ∈ schema.tables, dialect.Image t t)
    (accepts : ∀ t ∈ schema.tables, dialect.Accepts t)
    (agrees : ∀ t ∈ schema.tables, ∀ c ∈ t.columns, dialect.Agrees t c)
    (steady : ∀ t ∈ schema.tables, ∀ c ∈ t.constraints, c.Steady)
    (back : List.Forall₂ dialect.Redeclares schema.tables drafts) :
    ∃ again copy, SchemaDraft.build { tables := drafts } = .ok again ∧
      dialect.checkSchema again = .ok () ∧ dialect.canonicalize again = .ok copy ∧
        copy.equivalent schema = true := by
  have pairs := pairs_with (· ∈ schema.tables) _ _ _ (fun t member => member) back
  have sounds (d : TableDraft) (member : d ∈ drafts) : d.Sound := by
    obtain ⟨t, inside, redeclares⟩ := partner_of_right _ _ _ back d member
    exact redeclared_sound dialect t d (wf.tables t inside) redeclares
  have placed (d : TableDraft) (member : d ∈ drafts) : d.Placed := by
    obtain ⟨t, inside, redeclares⟩ := partner_of_right _ _ _ back d member
    exact redeclared_placed dialect t d (wf.tables t inside) redeclares
  have unplaced (d : TableDraft) (member : d ∈ drafts) : d.ordinal = none := by
    obtain ⟨t, _, redeclares⟩ := partner_of_right _ _ _ back d member
    exact redeclares.unplaced
  have names : drafts.map TableDraft.name = schema.tableNames := by
    rw [Schema.tableNames, ← List.forall₂_eq_eq_eq, List.forall₂_map_left_iff,
      List.forall₂_map_right_iff]
    exact back.flip.imp fun d t redeclares => redeclares.name
  have distinct : (drafts.map TableDraft.name).Nodup := names ▸ wf.distinct
  have restored : List.Forall₂ dialect.Restores schema.tables (tablesFrom 0 drafts) :=
    tables_from_of_pairs _ _ (fun t d position related => redeclared_restores dialect t d
      (wf.tables t related.1) related.2 (images t related.1) (agrees t related.1)
      (accepts t related.1) (steady t related.1) position) _ _ pairs 0
  have each (u : Table) (member : u ∈ tablesFrom 0 drafts) : ∃ t, dialect.Restores t u := by
    obtain ⟨t, _, both⟩ := partner_of_right _ _ _ restored u member
    exact ⟨t, both⟩
  obtain ⟨copies, alike, made⟩ := pairs_split (fun t v => v.shape = t.shape)
    (fun v u => dialect.Image u v ∧ u.name = v.name ∧ u.columnNames = v.columnNames ∧
      u.constraints = v.constraints) _ _ (restored.imp fun t u both =>
        ⟨t.copy u, both.shape, both.image, rfl, both.columnNames.trans (copy_names t u).symm, rfl⟩)
  have shapes : tally Table.shape copies = tally Table.shape schema.tables :=
    tally_of_pairs _ _ _ _ alike
  have apart : (copies.map Table.name).Nodup := by
    have same : copies.map Table.name = (tablesFrom 0 drafts).map Table.name := by
      rw [← List.forall₂_eq_eq_eq, List.forall₂_map_left_iff, List.forall₂_map_right_iff]
      exact made.imp fun v u both => both.2.1.symm
    rw [same, tables_from_names]
    exact distinct
  have resolved : Schema.Resolved { tables := tablesFrom 0 drafts } :=
    resolved_of_pairs copies _ (made.imp fun v u both => both.2)
      (alike_resolved schema { tables := copies } apart shapes.symm wf.resolved)
  have order : SchemaDraft.sortByOrdinal (tablesFrom 0 drafts) = tablesFrom 0 drafts :=
    sort_of_ordered _ (tables_from_ordered 0 drafts unplaced).2
  have builds : SchemaDraft.build { tables := drafts } = .ok { tables := tablesFrom 0 drafts } :=
    (schema_build_ok _ _).mpr ⟨sounds, distinct, by rw [order], resolved⟩
  have valid := (validated_iff_well_formed _).mpr (schema_build_well_formed _ _ placed builds)
  have accepted (u : Table) (member : u ∈ tablesFrom 0 drafts) : dialect.Accepts u := by
    obtain ⟨t, restores⟩ := each u member
    exact restores.accepts
  have canonical : dialect.canonicalize { tables := tablesFrom 0 drafts } = .ok { tables := copies } :=
    (canonicalize_iff dialect _ _ valid).mpr ⟨made.flip.imp fun u v both => both.1, accepted⟩
  have copyWf := image_well_formed dialect _ _ valid canonical
  refine ⟨_, _, builds, (for_m_ok _ _).mpr fun u member => ?_, canonical,
    (schema_equivalent_iff _ _ copyWf wf).mpr shapes⟩
  obtain ⟨t, restores⟩ := each u member
  obtain ⟨table, columns⟩ := restores.checked
  exact (bind_ok _ _ _).mpr ⟨(), table, (for_m_ok _ _).mpr columns⟩

end SchemaDrift
