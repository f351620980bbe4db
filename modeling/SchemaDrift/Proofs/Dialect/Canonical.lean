import SchemaDrift.Dialect.Canonical
import SchemaDrift.Proofs.Schema.Build
import SchemaDrift.Proofs.Schema.Change
/-!
The canonical image of a validated schema is validated.
-/

set_option autoImplicit false

namespace SchemaDrift

theorem map_columns_validated (schema image : Schema)
    (f : Table → Column → Except SchemaError Column) (valid : schema.Validated)
    (mapped : schema.mapColumns f = .ok image) : image.Validated := by
  have wf := (validated_iff_well_formed schema).mp valid
  obtain ⟨drafts, each, built⟩ := (bind_ok _ _ _).mp mapped
  refine ⟨{ tables := drafts }, fun d member => ?_, built⟩
  obtain ⟨t, found, made⟩ := partner_of_right _ _ _ ((map_m_ok _ _ _).mp each) d member
  obtain ⟨columns, _, same⟩ := (bind_ok _ _ _).mp made
  cases same
  exact ⟨(wf.tables t found).placed.keys, (wf.tables t found).placed.constraints⟩

theorem canonical_columns_validated (dialect : Dialect) (schema image : Schema)
    (valid : schema.Validated) (mapped : dialect.canonicalColumns schema = .ok image) :
    image.Validated := by
  obtain ⟨_, _, rest⟩ := (bind_ok _ _ _).mp mapped
  exact map_columns_validated schema image _ valid rest

theorem fold_unique_index_placed (draft : TableDraft) (index : Index) (placed : draft.Placed) :
    (Dialect.foldUniqueIndex draft index).Placed := by
  unfold Dialect.foldUniqueIndex
  split
  · apply placed_add_constraint
    cases removed : draft.removeIndex? index.name with
    | none => exact placed
    | some rest =>
        have dropped := (change_iff draft rest (.dropIndex draft.name index)).mp removed
        exact changed_placed draft rest _ dropped placed
  · exact placed

theorem fold_unique_constraint_placed (table : String) (draft : TableDraft) (c : Constraint)
    (placed : draft.Placed) : (Dialect.foldUniqueConstraint table draft c).Placed := by
  unfold Dialect.foldUniqueConstraint
  split
  · cases removed : draft.removeConstraint? c with
    | none => exact ⟨placed.keys, placed.constraints⟩
    | some rest =>
        have dropped := (change_iff draft rest (.dropConstraint draft.name c)).mp removed
        have kept := changed_placed draft rest _ dropped placed
        exact ⟨kept.keys, kept.constraints⟩
  · exact placed

theorem edited_validated (schema image : Schema) (edit : Table → TableDraft)
    (valid : schema.Validated) (placed : ∀ t, t.toDraft.Placed → (edit t).Placed)
    (built : SchemaDraft.build { tables := schema.tables.map edit } = .ok image) :
    image.Validated := by
  have wf := (validated_iff_well_formed schema).mp valid
  refine ⟨_, fun d member => ?_, built⟩
  obtain ⟨t, found, same⟩ := List.mem_map.mp member
  exact same ▸ placed t (wf.tables t found).placed

theorem fold_placed {α : Type} (edit : TableDraft → α → TableDraft)
    (keeps : ∀ draft a, TableDraft.Placed draft → (edit draft a).Placed) (l : List α)
    (draft : TableDraft) (placed : draft.Placed) : (l.foldl edit draft).Placed := by
  induction l generalizing draft with
  | nil => exact placed
  | cons a l ih => exact ih (edit draft a) (keeps draft a placed)

theorem unique_indexes_validated (schema image : Schema) (valid : schema.Validated)
    (folded : Dialect.foldUniqueIndexes schema = .ok image) : image.Validated :=
  edited_validated schema image _ valid
    (fun t => fold_placed _ fold_unique_index_placed t.indexes t.toDraft) folded

theorem unique_constraints_validated (schema image : Schema) (valid : schema.Validated)
    (folded : Dialect.foldUniqueConstraints schema = .ok image) : image.Validated :=
  edited_validated schema image _ valid
    (fun t => fold_placed _ (fold_unique_constraint_placed t.name) t.constraints t.toDraft) folded

theorem canonicalize_validated (dialect : Dialect) (schema image : Schema)
    (valid : schema.Validated) (canonical : dialect.canonicalize schema = .ok image) :
    image.Validated := by
  cases dialect with
  | postgres => exact canonical_columns_validated .postgres schema image valid canonical
  | mysql =>
      obtain ⟨columns, mapped, folded⟩ := (bind_ok _ _ _).mp canonical
      have columnsValid := canonical_columns_validated .mysql schema columns valid mapped
      exact unique_indexes_validated columns image columnsValid folded
  | spanner =>
      obtain ⟨folded, edited, mapped⟩ := (bind_ok _ _ _).mp canonical
      have foldedValid := unique_constraints_validated schema folded valid edited
      exact canonical_columns_validated .spanner folded image foldedValid mapped

theorem image_well_formed (dialect : Dialect) (schema image : Schema) (valid : schema.Validated)
    (canonical : dialect.canonicalize schema = .ok image) : image.WellFormed :=
  (validated_iff_well_formed image).mp (canonicalize_validated dialect schema image valid canonical)

end SchemaDrift
