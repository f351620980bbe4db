import SchemaDrift.Proofs.Dialect.Image
/-!
What canonicalization accepts: the columns one by one, on Spanner the constraints one by one, and
there the names of the indexes that come together on a table. Whatever it accepts it gives an image.
-/

set_option autoImplicit false

namespace SchemaDrift

namespace Dialect

-- A constraint that stands beside what canonicalization has folded.
def Allows (dialect : Dialect) (constraint : Constraint) : Prop :=
  dialect = .spanner → refusal? constraint = none

structure Accepts (dialect : Dialect) (table : Table) : Prop where
  distinct : ((dialect.foldedIndexes table).map Index.name).Nodup
  allowed : ∀ c ∈ dialect.foldedConstraints table, dialect.Allows c

def Recasts (dialect : Dialect) (table image : Table) : Prop :=
  ∃ columns, List.Forall₂ (fun c d => dialect.canonicalColumn c = .ok d) table.columns columns ∧
    image = { table with columns }

end Dialect

theorem check_table_ok (dialect : Dialect) (t : Table) :
    dialect.checkTable t = .ok () ↔ ∀ c ∈ t.constraints, dialect.Allows c := by
  cases dialect with
  | postgres | mysql =>
      refine ⟨fun _ c _ named => ?_, fun _ => rfl⟩
      cases named
  | spanner =>
      unfold Dialect.checkTable Dialect.Allows
      dsimp only
      cases refused : t.constraints.findSome? Dialect.refusal? with
      | none =>
          rw [List.findSome?_eq_none_iff] at refused
          exact ⟨fun _ c member _ => refused c member, fun _ => rfl⟩
      | some construct =>
          refine ⟨fun impossible => ?_, fun allowed => ?_⟩
          · cases impossible
          · rw [List.findSome?_eq_none_iff.mpr fun c member => allowed c member rfl] at refused
            cases refused

/-! ### Edits that every build accepts -/

-- A draft that changes neither the columns of a table by name nor what it points at.
structure Table.Edited (t : Table) (draft : TableDraft) : Prop where
  name : draft.name = t.name
  ordinal : draft.ordinal = some t.ordinal
  columnNames : draft.columnNames = t.columnNames
  sound : draft.Sound
  points : ∀ c ∈ draft.constraints, ∀ r, c.reference? = some r →
    ∃ old ∈ t.constraints, old.reference? = some r

theorem edited_target (tables images : List Table) (name : String) (target : Table)
    (pairs : List.Forall₂ (fun t u => u.name = t.name ∧ u.columnNames = t.columnNames) tables images)
    (found : tables.find? (·.name = name) = some target) :
    ∃ u, images.find? (·.name = name) = some u ∧ u.columnNames = target.columnNames := by
  induction pairs with
  | nil => cases found
  | @cons t u tables images first _ ih =>
      by_cases hit : t.name = name
      · rw [List.find?_cons_of_pos (by simpa using hit)] at found
        cases found
        exact ⟨u, List.find?_cons_of_pos (by simpa [first.1] using hit), first.2⟩
      · rw [List.find?_cons_of_neg (by simpa using hit)] at found
        rw [List.find?_cons_of_neg (by simpa [first.1] using hit)]
        exact ih found

theorem edited_build (schema image : Schema) (drafts : List TableDraft) (wf : schema.WellFormed)
    (edits : List.Forall₂ Table.Edited schema.tables drafts)
    (made : List.Forall₂ (fun draft u => draft.toTable 0 = u) drafts image.tables) :
    SchemaDraft.build { tables := drafts } = .ok image := by
  have placed (tables : List Table) (edited : List TableDraft)
      (each : List.Forall₂ Table.Edited tables edited) (position : Nat) :
      tablesFrom position edited = edited.map (·.toTable 0) := by
    induction each generalizing position with
    | nil => rfl
    | cons first _ ih =>
        rw [tablesFrom, List.map_cons, ih]
        simp only [TableDraft.toTable, first.ordinal, Option.getD_some]
  have names : drafts.map TableDraft.name = schema.tableNames := by
    rw [Schema.tableNames, ← List.forall₂_eq_eq_eq, List.forall₂_map_left_iff,
      List.forall₂_map_right_iff]
    exact edits.flip.imp fun draft t edit => edit.name
  have images : drafts.map (·.toTable 0) = image.tables := by
    rw [← List.forall₂_eq_eq_eq, List.forall₂_map_left_iff]
    exact made
  have pairs := (pairs_trans _ _ _ _ _ edits made).imp fun t u pair => pair
  rw [schema_build_ok]
  refine ⟨fun draft member => ?_, names ▸ wf.distinct, ?_, ?_⟩
  · obtain ⟨t, _, edit⟩ := partner_of_right _ _ _ edits draft member
    exact edit.sound
  · change image = ⟨SchemaDraft.sortByOrdinal (tablesFrom 0 drafts)⟩
    rw [placed _ _ edits 0, images, sort_of_ordered]
    refine images_ordered _ _ _ ?_ pairs wf.ordered
    rintro t u ⟨draft, edit, rfl⟩
    simp only [TableDraft.toTable, edit.ordinal, Option.getD_some]
  · intro u member c inside r points
    obtain ⟨t, among, draft, edit, rfl⟩ := partner_of_right _ _ _ pairs u member
    obtain ⟨old, present, pointed⟩ := edit.points c inside r points
    obtain ⟨target, found, columns⟩ := wf.resolved t among old present r pointed
    have alike : List.Forall₂ (fun t u => u.name = t.name ∧ u.columnNames = t.columnNames)
        schema.tables image.tables := by
      refine pairs.imp ?_
      rintro t u ⟨draft, edit, rfl⟩
      exact ⟨edit.name, (built_column_names draft 0).trans edit.columnNames⟩
    obtain ⟨v, looked, same⟩ := edited_target _ image.tables r.table target alike found
    exact ⟨v, looked, same ▸ columns⟩

theorem built_of_images (schema image : Schema) (R : Table → TableDraft → Prop) (wf : schema.WellFormed)
    (edits : ∀ t draft, t.WellFormed → R t draft → t.Edited draft)
    (pairs : List.Forall₂ (fun t u => ∃ draft, R t draft ∧ draft.toTable 0 = u)
      schema.tables image.tables) :
    ∃ drafts, List.Forall₂ R schema.tables drafts ∧
      SchemaDraft.build { tables := drafts } = .ok image := by
  obtain ⟨drafts, related, made⟩ := pairs_split _ _ _ _ pairs
  refine ⟨drafts, related, edited_build schema image drafts wf ?_ made⟩
  exact (pairs_with _ _ _ _ wf.tables related).imp fun t draft pair => edits t draft pair.1 pair.2

/-! ### The parts of canonicalization -/

theorem canonical_names (dialect : Dialect) (columns images : List Column)
    (canonical : List.Forall₂ (fun c d => dialect.canonicalColumn c = .ok d) columns images) :
    images.map Column.name = columns.map Column.name := by
  rw [← List.forall₂_eq_eq_eq, List.forall₂_map_left_iff, List.forall₂_map_right_iff]
  refine canonical.flip.imp fun d c single => ?_
  obtain ⟨_, _, _, rfl⟩ := (canonical_column_ok dialect c d).mp single
  rfl

theorem canonical_columns_iff (dialect : Dialect) (schema image : Schema) (wf : schema.WellFormed) :
    dialect.canonicalColumns schema = .ok image ↔
      List.Forall₂ dialect.Recasts schema.tables image.tables ∧
        ∀ t ∈ schema.tables, ∀ c ∈ t.constraints, dialect.Allows c := by
  constructor
  · intro canonical
    refine ⟨canonical_columns_images dialect schema image wf canonical, fun t member => ?_⟩
    obtain ⟨_, checked, _⟩ := (bind_ok _ _ _).mp canonical
    exact (check_table_ok dialect t).mp ((for_m_ok _ _).mp checked t member)
  · rintro ⟨pairs, allowed⟩
    have checked : schema.tables.forM dialect.checkTable = .ok () :=
      (for_m_ok _ _).mpr fun t member => (check_table_ok dialect t).mpr (allowed t member)
    let R (t : Table) (draft : TableDraft) : Prop := ∃ columns,
      List.Forall₂ (fun c d => dialect.canonicalColumn c = .ok d) t.columns columns ∧
        draft = { t.toDraft with columns }
    have edits (t : Table) (draft : TableDraft) (tWf : t.WellFormed) (recast : R t draft) :
        t.Edited draft := by
      obtain ⟨columns, canonical, rfl⟩ := recast
      have names := canonical_names dialect t.columns columns canonical
      exact ⟨rfl, rfl, names, sound_columns t.toDraft columns _ names tWf.sound,
        fun c member r points => ⟨c, member, points⟩⟩
    have made : List.Forall₂ (fun t u => ∃ draft, R t draft ∧ draft.toTable 0 = u)
        schema.tables image.tables := by
      refine (pairs_with _ _ _ _ wf.tables pairs).imp ?_
      rintro t u ⟨tWf, columns, canonical, rfl⟩
      exact ⟨_, ⟨columns, canonical, rfl⟩, coerced_columns dialect t columns tWf canonical⟩
    obtain ⟨drafts, related, built⟩ := built_of_images schema image R wf edits made
    refine (bind_ok _ _ _).mpr ⟨(), checked, (bind_ok _ _ _).mpr ⟨drafts,
      (map_m_ok _ _ _).mpr (related.imp ?_), built⟩⟩
    rintro t draft ⟨columns, canonical, rfl⟩
    exact (bind_ok _ _ _).mpr ⟨columns, (map_m_ok _ _ _).mpr canonical, rfl⟩

theorem mem_folded_constraints (dialect : Dialect) (t : Table) (c : Constraint)
    (member : c ∈ dialect.foldedConstraints t) :
    c ∈ t.constraints ∨ ∃ index ∈ t.indexes, c = index.asConstraint := by
  cases dialect with
  | postgres => exact .inl member
  | mysql =>
      rcases List.mem_append.mp member with old | folded
      · exact .inl old
      · obtain ⟨index, inside, rfl⟩ := List.mem_map.mp folded
        exact .inr ⟨index, List.mem_of_mem_filter inside, rfl⟩
  | spanner => exact .inl (List.mem_of_mem_filter member)

theorem mem_folded_indexes (dialect : Dialect) (t : Table) (index : Index)
    (member : index ∈ dialect.foldedIndexes t) :
    index ∈ t.indexes ∨ ∃ c ∈ t.constraints, c.kind = .unique ∧ index = c.asIndex t.name := by
  cases dialect with
  | postgres => exact .inl member
  | mysql => exact .inl (List.mem_of_mem_filter member)
  | spanner =>
      rcases List.mem_append.mp member with old | folded
      · exact .inl old
      · obtain ⟨c, inside, rfl⟩ := List.mem_map.mp folded
        obtain ⟨present, unique⟩ := List.mem_filter.mp inside
        exact .inr ⟨c, present, by simpa using unique, rfl⟩

theorem as_index_columns (table : String) (c : Constraint) :
    (c.asIndex table).columnNames = c.columns := by
  simp [Constraint.asIndex, Index.ascending, Index.columnNames, Function.comp_def]

theorem folded_edits (dialect : Dialect) (t : Table) (wf : t.WellFormed)
    (distinct : ((dialect.foldedIndexes t).map Index.name).Nodup) :
    t.Edited (dialect.folded t).toDraft := by
  refine ⟨rfl, rfl, rfl, ?_, ?_⟩
  · refine ⟨wf.sound.named, wf.sound.inhabited, wf.sound.columnsNamed, wf.sound.columnsDistinct,
      wf.sound.singleKey, wf.sound.keys, fun c member => ?_, distinct, fun index member => ?_⟩
    · rcases mem_folded_constraints dialect t c member with old | ⟨index, present, rfl⟩
      · exact wf.sound.constraints c old
      · refine ⟨.inr (wf.sound.indexes index present), fun r points => ?_⟩
        cases points
    · rcases mem_folded_indexes dialect t index member with old | ⟨c, present, unique, rfl⟩
      · exact wf.sound.indexes index old
      · rw [as_index_columns]
        refine (wf.sound.constraints c present).columns.resolve_left fun check => ?_
        rw [Constraint.isCheck, unique] at check
        cases check.1
  · intro c member r points
    rcases mem_folded_constraints dialect t c member with old | ⟨index, present, rfl⟩
    · exact ⟨c, old, points⟩
    · cases points

theorem folded_build_iff (dialect : Dialect) (schema image : Schema) (edit : Table → TableDraft)
    (wf : schema.WellFormed) (folds : ∀ t, t.WellFormed → edit t = (dialect.folded t).toDraft) :
    SchemaDraft.build { tables := schema.tables.map edit } = .ok image ↔
      List.Forall₂ (fun t u => u = dialect.folded t) schema.tables image.tables ∧
      ∀ t ∈ schema.tables, ((dialect.foldedIndexes t).map Index.name).Nodup := by
  constructor
  · intro built
    refine ⟨folded_images dialect schema image edit wf folds built, fun t member => ?_⟩
    obtain ⟨sounds, _⟩ := (schema_build_ok _ _).mp built
    have sound := sounds (edit t) (List.mem_map_of_mem member)
    rw [folds t (wf.tables t member)] at sound
    exact sound.indexesDistinct
  · rintro ⟨pairs, distinct⟩
    refine edited_build schema image _ wf ?_ ?_
    · rw [List.forall₂_map_right_iff, List.forall₂_same]
      intro t member
      rw [folds t (wf.tables t member)]
      exact folded_edits dialect t (wf.tables t member) (distinct t member)
    · rw [List.forall₂_map_left_iff]
      refine (pairs_with _ _ _ _ wf.tables pairs).imp ?_
      rintro t u ⟨tWf, rfl⟩
      rw [folds t tWf]
      exact edited_table t _ _ tWf

/-! ### The whole -/

theorem image_iff (dialect : Dialect) (t u : Table) :
    dialect.Image t u ↔ dialect.Recasts (dialect.folded t) u := by
  constructor
  · intro made
    refine ⟨u.columns, made.columns, ?_⟩
    obtain ⟨name, columns, key, indexes, constraints, options, ordinal⟩ := u
    obtain ⟨rfl, rfl, rfl, rfl, -, rfl, rfl⟩ := made
    rfl
  · rintro ⟨columns, canonical, rfl⟩
    exact ⟨rfl, rfl, rfl, rfl, canonical, rfl, rfl⟩

theorem accepts_unless_spanner (dialect : Dialect) (t : Table) (wf : t.WellFormed)
    (other : dialect ≠ .spanner) : dialect.Accepts t := by
  refine ⟨?_, fun c _ named => absurd named other⟩
  cases dialect with
  | postgres => exact wf.sound.indexesDistinct
  | mysql => exact wf.sound.indexesDistinct.sublist (List.filter_sublist.map Index.name)
  | spanner => exact absurd rfl other

theorem spanner_accepts (schema image : Schema) (valid : schema.Validated)
    (canonical : Dialect.spanner.canonicalize schema = .ok image) :
    ∀ t ∈ schema.tables, Dialect.spanner.Accepts t := by
  have wf := (validated_iff_well_formed schema).mp valid
  obtain ⟨between, folded, mapped⟩ := (bind_ok _ _ _).mp canonical
  have betweenWf := (validated_iff_well_formed between).mp
    (unique_constraints_validated schema between valid folded)
  obtain ⟨pairs, distinct⟩ :=
    (folded_build_iff .spanner schema between _ wf fun t _ => spanner_folds t).mp folded
  obtain ⟨_, allowed⟩ := (canonical_columns_iff .spanner between image betweenWf).mp mapped
  intro t member
  obtain ⟨u, inside, rfl⟩ := partner_of_left _ _ _ pairs t member
  exact ⟨distinct t member, allowed _ inside⟩

-- MySQL recasts the columns first, and what it folds afterwards is always built.
theorem mysql_canonicalizes (schema image : Schema) (valid : schema.Validated)
    (images : List.Forall₂ Dialect.mysql.Image schema.tables image.tables) :
    Dialect.mysql.canonicalize schema = .ok image := by
  have wf := (validated_iff_well_formed schema).mp valid
  have through (t u : Table) (made : Dialect.mysql.Image t u) :
      ∃ between, Dialect.mysql.Recasts t between ∧ u = Dialect.mysql.folded between := by
    obtain ⟨columns, canonical, rfl⟩ := (image_iff .mysql t u).mp made
    exact ⟨{ t with columns }, ⟨columns, canonical, rfl⟩, rfl⟩
  obtain ⟨tables, recast, folded⟩ := pairs_split _ _ _ _ (images.imp through)
  have canonical : Dialect.mysql.canonicalColumns schema = .ok { tables } := by
    refine (canonical_columns_iff .mysql schema { tables } wf).mpr ⟨recast, fun t _ c _ named => ?_⟩
    cases named
  have betweenWf := (validated_iff_well_formed { tables }).mp
    (canonical_columns_validated .mysql schema _ valid canonical)
  refine (bind_ok _ _ _).mpr ⟨{ tables }, canonical,
    (folded_build_iff .mysql _ image _ betweenWf mysql_folds).mpr ⟨folded, fun t member => ?_⟩⟩
  exact (accepts_unless_spanner .mysql t (betweenWf.tables t member) (by decide)).distinct

-- Spanner folds first, so that both of its checks see the folded tables.
theorem spanner_canonicalizes (schema image : Schema) (valid : schema.Validated)
    (images : List.Forall₂ Dialect.spanner.Image schema.tables image.tables)
    (accepts : ∀ t ∈ schema.tables, Dialect.spanner.Accepts t) :
    Dialect.spanner.canonicalize schema = .ok image := by
  have wf := (validated_iff_well_formed schema).mp valid
  have through (t u : Table) (made : Dialect.spanner.Image t u) :
      ∃ between, between = Dialect.spanner.folded t ∧ Dialect.spanner.Recasts between u :=
    ⟨_, rfl, (image_iff .spanner t u).mp made⟩
  obtain ⟨tables, folded, recast⟩ := pairs_split _ _ _ _ (images.imp through)
  have built : Dialect.foldUniqueConstraints schema = .ok { tables } :=
    (folded_build_iff .spanner schema { tables } _ wf fun t _ => spanner_folds t).mpr
      ⟨folded, fun t member => (accepts t member).distinct⟩
  have betweenWf := (validated_iff_well_formed { tables }).mp
    (unique_constraints_validated schema _ valid built)
  refine (bind_ok _ _ _).mpr ⟨{ tables }, built,
    (canonical_columns_iff .spanner _ image betweenWf).mpr ⟨recast, fun b member => ?_⟩⟩
  obtain ⟨t, inside, rfl⟩ := partner_of_right _ _ _ folded b member
  exact (accepts t inside).allowed

theorem canonicalize_iff (dialect : Dialect) (schema image : Schema) (valid : schema.Validated) :
    dialect.canonicalize schema = .ok image ↔
      List.Forall₂ dialect.Image schema.tables image.tables ∧
        ∀ t ∈ schema.tables, dialect.Accepts t := by
  have wf := (validated_iff_well_formed schema).mp valid
  constructor
  · intro canonical
    refine ⟨canonicalize_images dialect schema image valid canonical, fun t member => ?_⟩
    cases dialect with
    | postgres | mysql => exact accepts_unless_spanner _ t (wf.tables t member) (by decide)
    | spanner => exact spanner_accepts schema image valid canonical t member
  · rintro ⟨images, accepts⟩
    cases dialect with
    | postgres =>
        exact (canonical_columns_iff .postgres schema image wf).mpr
          ⟨images.imp fun t u => (image_iff .postgres t u).mp,
            fun t member => (accepts t member).allowed⟩
    | mysql => exact mysql_canonicalizes schema image valid images
    | spanner => exact spanner_canonicalizes schema image valid images accepts

end SchemaDrift
