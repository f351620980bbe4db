import SchemaDrift.Proofs.Ddl.ReadBack
import SchemaDrift.Proofs.Ddl.ReadOption
import SchemaDrift.Proofs.Ddl.ReadType
import SchemaDrift.Proofs.Ddl.Validated
/-!
Whatever was read has a canonical image, and what is in the image can be written: types with numbers
of 32 bits, checks without parentheses around them, and options with known names.
-/

set_option autoImplicit false

namespace SchemaDrift

open Grammar (Tree)

structure Writable (columns : List Column) (constraints : List Constraint)
    (options : List (String × String)) : Prop where
  types : ∀ c ∈ columns, c.type.Narrow
  checks : ∀ c ∈ constraints, c.kind.Stripped
  options : ∀ option ∈ options, LegibleOption option

structure Dialect.NativeColumn (dialect : Dialect) (column : Column) : Prop where
  native : ∃ native, dialect.nativeType column.type = .ok native
  made : column.rawDefinition = none

/-! ### What is read -/

theorem clauses_type (dialect : Dialect) (columns : List String) (clauses : List Ddl.ColumnClause)
    (name : Option String) (fragment : ColumnFragment) :
    (Ddl.addClauses dialect columns name fragment clauses).type = fragment.type := by
  induction clauses generalizing name fragment with
  | nil => rfl
  | cons clause clauses ih => cases clause <;> exact ih _ _

theorem body_type (dialect : Dialect) (columns : List String) (tree : Tree)
    (fragment : ColumnFragment) (read : Ddl.columnBody dialect columns tree = .ok fragment) :
    ∃ spelled, SmallArgs spelled.args ∧ dialect.columnType spelled = .ok fragment.type := by
  obtain ⟨spelled, found, rest⟩ := (bind_ok _ _ _).mp read
  obtain ⟨type, known, rest⟩ := (bind_ok _ _ _).mp rest
  obtain ⟨clauses, _, last⟩ := (bind_ok _ _ _).mp rest
  cases last
  rw [clauses_type]
  refine ⟨_, ?_, known⟩
  cases given : tree.first? .dataType with
  | none =>
      rw [given] at found
      cases found
      rintro n ⟨⟩
  | some type =>
      rw [given] at found
      obtain ⟨native, lowered, rfl⟩ := (map_ok _ _ _).mp found
      exact Ddl.native_type_small dialect type native lowered

theorem column_writable (dialect : Dialect) (tree : Tree) (column : Column)
    (constraints : List Constraint)
    (read : Ddl.columnDefinition dialect tree = .ok (column, constraints)) :
    column.type.Narrow ∧ dialect.NativeColumn column := by
  obtain ⟨fragment, body, last⟩ := (bind_ok _ _ _).mp read
  cases last
  obtain ⟨spelled, small, known⟩ := body_type dialect _ tree fragment body
  obtain ⟨narrow, native⟩ := known_type_written spelled _ small dialect known
  exact ⟨narrow, native, rfl⟩

theorem fragment_narrow (dialect : Dialect) (text : List Char) (fragment : ColumnFragment)
    (parsed : dialect.parseColumn text = .ok fragment) : fragment.type.Narrow := by
  obtain ⟨tree, _, body⟩ := (bind_ok _ _ _).mp parsed
  obtain ⟨spelled, small, known⟩ := body_type dialect _ tree fragment body
  exact (known_type_written spelled _ small dialect known).1

section Writable

variable (columns : List Column) (constraints : List Constraint) (options : List (String × String))
  (writable : Writable columns constraints options)

include writable

theorem writable_column (c : Column) (narrow : c.type.Narrow) :
    Writable (columns ++ [c]) constraints options := by
  refine ⟨fun d member => ?_, writable.checks, writable.options⟩
  rcases List.mem_append.mp member with old | new
  · exact writable.types d old
  · exact List.mem_singleton.mp new ▸ narrow

theorem writable_option (option : String × String) (legible : LegibleOption option) :
    Writable columns constraints (options ++ [option]) := by
  refine ⟨writable.types, writable.checks, fun other member => ?_⟩
  rcases List.mem_append.mp member with old | new
  · exact writable.options other old
  · exact List.mem_singleton.mp new ▸ legible

end Writable

def TableDraft.Writes (draft : TableDraft) : Prop :=
  Writable draft.columns draft.constraints draft.options

theorem writes_constraint (draft : TableDraft) (c : Constraint) (writes : draft.Writes)
    (stripped : c.kind.Stripped) : (draft.addConstraint c).Writes := by
  unfold TableDraft.addConstraint
  split
  · exact ⟨writes.types, writes.checks, writes.options⟩
  · refine ⟨writes.types, fun d member => ?_, writes.options⟩
    rcases List.mem_append.mp member with old | new
    · exact writes.checks d old
    · exact List.mem_singleton.mp new ▸ stripped

theorem option_kept (reader : Ddl.Reader) (draft result : TableDraft) (tree : Tree)
    (matched : tree.Matched) (rule : tree.rule = .tableOption)
    (read : reader.tableOption draft tree = .ok result) :
    result = draft ∨ ∃ option, LegibleOption option ∧ result = draft.addOption option.1 option.2 := by
  obtain ⟨name, value, named, valued, known, legible⟩ := table_option_parts tree matched rule
  unfold Ddl.Reader.tableOption at read
  rw [named, valued] at read
  dsimp only [Option.map_some, Option.getD_some] at read
  split at read
  · cases read
  · split at read
    · cases read
      exact .inl rfl
    · next kept =>
      cases read
      refine .inr ⟨(Ddl.upperText name, String.ofList value.text),
        ⟨(List.mem_cons.mp known).resolve_left kept, ?_⟩, rfl⟩
      show OptionValue (String.ofList value.text).toList
      rwa [String.toList_ofList]

theorem writes_kept (reader : Ddl.Reader) : reader.Keeps fun draft => draft.Writes ∧
    ∀ c ∈ draft.columns, reader.dialect.NativeColumn c where
  bare := fun _ => ⟨⟨List.forall_mem_nil _, List.forall_mem_nil _, List.forall_mem_nil _⟩,
    List.forall_mem_nil _⟩
  column := by
    rintro draft tree column constraints ⟨writes, native⟩ read
    obtain ⟨narrow, own⟩ := column_writable reader.dialect tree column constraints read
    refine ⟨writable_column _ _ _ writes column narrow, fun c member => ?_⟩
    rcases List.mem_append.mp member with old | new
    · exact native c old
    · exact List.mem_singleton.mp new ▸ own
  constraint := by
    rintro draft c ⟨writes, native⟩ stripped
    refine ⟨writes_constraint draft c writes stripped, ?_⟩
    unfold TableDraft.addConstraint
    split <;> exact native
  index := fun _ _ both => ⟨⟨both.1.types, both.1.checks, both.1.options⟩, both.2⟩
  option := by
    rintro draft tree result ⟨writes, native⟩ matched rule read
    rcases option_kept reader draft result tree matched rule read with rfl | ⟨option, legible, rfl⟩
    · exact ⟨writes, native⟩
    · exact ⟨writable_option _ _ _ writes option legible, native⟩

theorem built_writable (draft : TableDraft) (position : Nat) (writes : draft.Writes) :
    Writable (draft.toTable position).columns (draft.toTable position).constraints
      (draft.toTable position).options := by
  refine ⟨fun c inside => ?_, writes.checks, writes.options⟩
  obtain ⟨column, listed, rfl⟩ := List.mem_map.mp inside
  have narrow := writes.types column listed
  split
  · exact narrow
  · exact narrow

theorem drafts_writable (draft : SchemaDraft) (schema : Schema)
    (writes : ∀ d ∈ draft.tables, d.Writes) (built : draft.build = .ok schema) :
    ∀ t ∈ schema.tables, Writable t.columns t.constraints t.options := by
  intro t member
  obtain ⟨_, _, rfl, _⟩ := (schema_build_ok _ _).mp built
  obtain ⟨d, among, n, rfl⟩ := tables_from_mem 0 _ t ((sort_perm _).subset member)
  exact built_writable d n (writes d among)

theorem parsed_drafts (dialect : Dialect) (text : List Char) (schema : Schema)
    (parsed : dialect.parse text = .ok schema) : ∃ draft : SchemaDraft,
      (∀ d ∈ draft.tables, d.Placed ∧ d.Writes ∧ ∀ c ∈ d.columns, dialect.NativeColumn c) ∧
        draft.build = .ok schema ∧ dialect.checkSchema schema = .ok () := by
  obtain ⟨draft, read, rest⟩ := (bind_ok _ _ _).mp parsed
  obtain ⟨built, build, rest⟩ := (bind_ok _ _ _).mp rest
  obtain ⟨_, checked, last⟩ := (bind_ok _ _ _).mp rest
  cases last
  refine ⟨draft, fun d member => ⟨?_, ?_⟩, build, checked⟩
  · exact Ddl.Reader.document_keeps _ _ (placed_kept _) draft read d member
  · exact Ddl.Reader.document_keeps _ _ (writes_kept _) draft read d member

theorem parsed_tables (dialect : Dialect) (text : List Char) (schema : Schema)
    (parsed : dialect.parse text = .ok schema) :
    schema.WellFormed ∧ dialect.checkSchema schema = .ok () ∧ ∀ t ∈ schema.tables,
      Writable t.columns t.constraints t.options ∧ ∀ c ∈ t.columns, dialect.NativeColumn c := by
  have wf := (validated_iff_well_formed schema).mp (parse_validated dialect text schema parsed)
  obtain ⟨draft, each, build, checked⟩ := parsed_drafts dialect text schema parsed
  refine ⟨wf, checked, fun t member => ?_⟩
  refine ⟨drafts_writable draft schema (fun d among => (each d among).2.1) build t member,
    fun c inside => ?_⟩
  obtain ⟨_, _, rfl, _⟩ := (schema_build_ok _ _).mp build
  obtain ⟨d, among, n, rfl⟩ := tables_from_mem 0 _ t ((sort_perm _).subset member)
  obtain ⟨column, listed, rfl⟩ := List.mem_map.mp inside
  have known := (each d among).2.2 column listed
  split
  · exact ⟨known.native, known.made⟩
  · exact known

/-! ### The canonical image -/

theorem image_writable (dialect : Dialect) (t u : Table) (made : dialect.Image t u)
    (writable : Writable t.columns t.constraints t.options) :
    Writable u.columns u.constraints u.options := by
  refine ⟨fun d member => ?_, fun c member => ?_, made.options ▸ writable.options⟩
  · obtain ⟨c, inside, canonical⟩ := partner_of_right _ _ _ made.columns d member
    obtain ⟨_, type, read, rfl⟩ := (canonical_column_ok dialect c d).mp canonical
    exact canonical_type_narrow dialect c.type type (writable.types c inside) read
  · rw [made.constraints] at member
    rcases mem_folded_constraints dialect t c member with old | ⟨index, _, rfl⟩
    · exact writable.checks c old
    · rintro e ⟨⟩

theorem image_made (dialect : Dialect) (t u : Table) (made : dialect.Image t u)
    (parts : ∀ c ∈ t.columns, c.rawDefinition = none) : ∀ d ∈ u.columns, d.rawDefinition = none := by
  intro d member
  obtain ⟨c, inside, canonical⟩ := partner_of_right _ _ _ made.columns d member
  obtain ⟨_, type, _, rfl⟩ := (canonical_column_ok dialect c d).mp canonical
  exact parts c inside

theorem column_canonicalizes (dialect : Dialect) (c : Column) (narrow : c.type.Narrow)
    (native : dialect.NativeColumn c) (checked : dialect.checkColumn c = .ok ()) :
    ∃ d, dialect.canonicalColumn c = .ok d := by
  obtain ⟨spelled, written⟩ := native.native
  obtain ⟨type, read⟩ := written_type_canonical dialect c.type spelled narrow written
  exact ⟨_, (canonical_column_ok dialect c _).mpr ⟨checked, type, read, rfl⟩⟩

theorem table_image (dialect : Dialect) (t : Table) (columns : ∀ c ∈ t.columns,
    ∃ d, dialect.canonicalColumn c = .ok d) : ∃ u, dialect.Image t u := by
  obtain ⟨columns, pairs⟩ := pairs_exist _ _ columns
  exact ⟨_, (image_iff dialect t _).mpr ⟨columns, pairs, rfl⟩⟩

theorem checked_accepts (dialect : Dialect) (t : Table) (wf : t.WellFormed)
    (checked : dialect.checkTable t = .ok ()) : dialect.Accepts t := by
  cases dialect with
  | postgres | mysql => exact accepts_unless_spanner _ t wf (by decide)
  | spanner =>
      have allowed := (check_table_ok .spanner t).mp checked
      -- There is no unique constraint to fold.
      have unfolded : Dialect.spanner.Unfolded t :=
        ⟨by rintro ⟨⟩, fun _ c member => ((refusal_none_iff c).mp (allowed c member rfl)).1⟩
      obtain ⟨constraints, indexes⟩ := unfolded_parts .spanner t unfolded
      exact ⟨indexes ▸ wf.sound.indexesDistinct, constraints ▸ allowed⟩

theorem parsed_canonicalizes (dialect : Dialect) (text : List Char) (schema : Schema)
    (parsed : dialect.parse text = .ok schema) : ∃ image, dialect.canonicalize schema = .ok image := by
  obtain ⟨wf, checked, writable⟩ := parsed_tables dialect text schema parsed
  have tables (t : Table) (member : t ∈ schema.tables) :
      dialect.checkTable t = .ok () ∧ ∃ u, dialect.Image t u := by
    obtain ⟨_, table, columns⟩ := (bind_ok _ _ _).mp ((for_m_ok _ _).mp checked t member)
    refine ⟨table, table_image dialect t fun c inside => ?_⟩
    obtain ⟨texts, native⟩ := writable t member
    exact column_canonicalizes dialect c (texts.types c inside) (native c inside)
      ((for_m_ok _ _).mp columns c inside)
  obtain ⟨images, pairs⟩ := pairs_exist _ _ fun t member => (tables t member).2
  exact ⟨{ tables := images }, (canonicalize_iff dialect schema _
    (parse_validated dialect text schema parsed)).mpr ⟨pairs, fun t member =>
      checked_accepts dialect t (wf.tables t member) (tables t member).1⟩⟩

end SchemaDrift
