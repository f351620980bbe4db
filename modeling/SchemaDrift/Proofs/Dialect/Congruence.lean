import SchemaDrift.Proofs.Dialect.Accepted
/-!
Equivalent schemas are accepted together, and have equivalent images. Equivalence does not see names,
so the one exception are the names of unique constraints on Spanner, which become those of indexes.
-/

set_option autoImplicit false

namespace SchemaDrift

-- The names that the indexes of a table have on Spanner: their own, and those of unique constraints.
def Table.indexNames (table : Table) : List String :=
  table.indexes.map Index.name
    ++ (table.constraints.filter (·.kind = .unique)).map (·.effectiveName table.name)

-- No foreign key spells out that an update does nothing.
def Schema.Tacit (schema : Schema) : Prop :=
  ∀ t ∈ schema.tables, ∀ c ∈ t.constraints, ∀ r, c.reference? = some r → r.onUpdate ≠ some .noAction

theorem folded_index_names (t : Table) :
    (Dialect.spanner.foldedIndexes t).map Index.name = t.indexNames := by
  simp only [Dialect.foldedIndexes, List.map_append, List.map_map, Table.indexNames]
  rfl

theorem canonicalize_succeeds_iff (dialect : Dialect) (schema : Schema) (valid : schema.Validated) :
    (∃ image, dialect.canonicalize schema = .ok image) ↔
      (∀ t ∈ schema.tables, ∀ c ∈ t.columns, ∃ d, dialect.canonicalColumn c = .ok d) ∧
        ∀ t ∈ schema.tables, dialect.Accepts t := by
  constructor
  · rintro ⟨image, canonical⟩
    obtain ⟨pairs, accepts⟩ := (canonicalize_iff dialect schema image valid).mp canonical
    refine ⟨fun t member c inside => ?_, accepts⟩
    obtain ⟨u, _, made⟩ := partner_of_left _ _ _ pairs t member
    obtain ⟨d, _, single⟩ := partner_of_left _ _ _ made.columns c inside
    exact ⟨d, single⟩
  · rintro ⟨columns, accepts⟩
    obtain ⟨tables, pairs⟩ := pairs_exist dialect.Image schema.tables fun t member => by
      obtain ⟨images, canonical⟩ := pairs_exist _ t.columns (columns t member)
      exact ⟨_, (image_iff dialect t _).mpr ⟨images, canonical, rfl⟩⟩
    exact ⟨{ tables }, (canonicalize_iff dialect schema _ valid).mpr ⟨pairs, accepts⟩⟩

/-! ### What is accepted by its shape -/

theorem column_alike (dialect : Dialect) (c d image : Column) (same : c.shape = d.shape)
    (canonical : dialect.canonicalColumn c = .ok image) :
    ∃ other, dialect.canonicalColumn d = .ok other := by
  have shaped := canonical_column_shape dialect c image canonical
  rw [same] at shaped
  obtain ⟨checked, type, read, _⟩ := (canonical_column_ok dialect d.shape _).mp shaped
  exact ⟨_, (canonical_column_ok dialect d _).mpr ⟨checked, type, read, rfl⟩⟩

theorem unique_alike (c d : Constraint) (same : c.shape = d.shape) :
    c.kind = .unique ↔ d.kind = .unique := by
  unfold Constraint.shape at same
  cases first : c.kind <;> cases second : d.kind <;> simp_all

theorem same_actions (a b : Constraint) (r : Reference) (same : a.shape = b.shape)
    (points : a.reference? = some r) : ∃ s, b.reference? = some s ∧
      ReferentialAction.effective s.onDelete = ReferentialAction.effective r.onDelete ∧
      ReferentialAction.effective s.onUpdate = ReferentialAction.effective r.onUpdate := by
  unfold Constraint.shape at same
  unfold Constraint.reference? at points ⊢
  cases first : a.kind <;> cases second : b.kind <;> simp_all

theorem refusal_none_iff (c : Constraint) :
    Dialect.refusal? c = none ↔ c.kind ≠ .unique ∧ ∀ r, c.reference? = some r → r.onUpdate = none ∧
      (ReferentialAction.effective r.onDelete = none ∨
        ReferentialAction.effective r.onDelete = some .cascade) := by
  unfold Dialect.refusal? Constraint.reference?
  cases kind : c.kind with
  | foreignKey r =>
      obtain ⟨table, columns, onDelete, onUpdate⟩ := r
      cases onUpdate with
      | some action => simp
      | none =>
          cases onDelete with
          | none => simp [ReferentialAction.effective]
          | some action => cases action <;> simp [ReferentialAction.effective, Option.filter]
  | _ => simp

theorem refusal_alike (c d : Constraint) (same : c.shape = d.shape)
    (accepted : Dialect.refusal? c = none)
    (tacit : ∀ r, d.reference? = some r → r.onUpdate ≠ some .noAction) :
    Dialect.refusal? d = none := by
  rw [refusal_none_iff] at accepted ⊢
  obtain ⟨kind, actions⟩ := accepted
  refine ⟨fun unique => kind ((unique_alike c d same).mpr unique), fun s points => ?_⟩
  obtain ⟨r, pointed, deletion, update⟩ := same_actions d c s same.symm points
  obtain ⟨silent, allowed⟩ := actions r pointed
  refine ⟨?_, deletion ▸ allowed⟩
  -- What does nothing on update is not said at all.
  cases said : s.onUpdate with
  | none => rfl
  | some action =>
      have other : action ≠ .noAction := fun nothing => tacit s points (nothing ▸ said)
      have kept : ReferentialAction.effective (some action) = some action :=
        Option.filter_some_pos (by simpa using other)
      rw [silent, said, kept] at update
      cases update

theorem columns_alike (dialect : Dialect) (t u : Table) (same : t.shape = u.shape)
    (columns : ∀ c ∈ t.columns, ∃ image, dialect.canonicalColumn c = .ok image) :
    ∀ d ∈ u.columns, ∃ image, dialect.canonicalColumn d = .ok image := by
  intro d member
  obtain ⟨c, inside, alike⟩ := alike_member Column.shape t.columns u.columns
    (congrArg TableShape.columns same) d member
  obtain ⟨image, canonical⟩ := columns c inside
  exact column_alike dialect c d image alike canonical

theorem allowed_alike (dialect : Dialect) (t u : Table) (same : t.shape = u.shape)
    (accepts : dialect.Accepts t) (tacit : dialect = .spanner → ∀ c ∈ u.constraints, ∀ r,
      c.reference? = some r → r.onUpdate ≠ some .noAction) :
    ∀ c ∈ dialect.foldedConstraints u, dialect.Allows c := by
  rintro d member rfl
  obtain ⟨present, plain⟩ := List.mem_filter.mp member
  obtain ⟨c, inside, alike⟩ := alike_member Constraint.shape t.constraints u.constraints
    (congrArg TableShape.constraints same) d present
  refine refusal_alike c d alike (accepts.allowed c (List.mem_filter.mpr ⟨inside, ?_⟩) rfl)
    (tacit rfl d present)
  simpa [unique_alike c d alike] using plain

theorem accepts_alike (dialect : Dialect) (t u : Table) (wf : u.WellFormed) (same : t.shape = u.shape)
    (accepts : dialect.Accepts t) (tacit : dialect = .spanner → ∀ c ∈ u.constraints, ∀ r,
      c.reference? = some r → r.onUpdate ≠ some .noAction)
    (distinct : dialect = .spanner → u.indexNames.Nodup) : dialect.Accepts u := by
  by_cases spanner : dialect = .spanner
  · refine ⟨?_, allowed_alike dialect t u same accepts tacit⟩
    subst spanner
    rw [folded_index_names]
    exact distinct rfl
  · exact accepts_unless_spanner dialect u wf spanner

theorem accepted_tacit (schema : Schema) (accepts : ∀ t ∈ schema.tables, Dialect.spanner.Accepts t) :
    schema.Tacit := by
  intro t member c own r points
  have plain : c ∈ Dialect.spanner.foldedConstraints t :=
    List.mem_filter.mpr ⟨own, by cases kind : c.kind <;> simp_all [Constraint.reference?]⟩
  have allowed := (accepts t member).allowed c plain rfl
  obtain ⟨silent, _⟩ := ((refusal_none_iff c).mp allowed).2 r points
  rw [silent]
  exact (Option.some_ne_none _).symm

-- Columns and constraints are accepted by their shape, names of indexes are not.
theorem canonicalize_congruent (dialect : Dialect) (a b imageA : Schema) (valid : a.Validated)
    (otherValid : b.Validated) (same : a.equivalent b = true)
    (canonical : dialect.canonicalize a = .ok imageA) :
    ((∃ imageB, dialect.canonicalize b = .ok imageB) ↔
      (dialect = .spanner → b.Tacit ∧ ∀ t ∈ b.tables, t.indexNames.Nodup)) ∧
    ∀ imageB, dialect.canonicalize b = .ok imageB → imageA.equivalent imageB = true := by
  have wf := (validated_iff_well_formed a).mp valid
  have otherWf := (validated_iff_well_formed b).mp otherValid
  have shapes := (schema_equivalent_iff a b wf otherWf).mp same
  obtain ⟨columns, accepts⟩ := (canonicalize_succeeds_iff dialect a valid).mp ⟨imageA, canonical⟩
  refine ⟨⟨?_, fun accepted => ?_⟩, fun imageB other => ?_⟩
  · rintro accepted rfl
    obtain ⟨_, allowed⟩ := (canonicalize_succeeds_iff .spanner b otherValid).mp accepted
    refine ⟨accepted_tacit b allowed, fun u member => ?_⟩
    rw [← folded_index_names]
    exact (allowed u member).distinct
  · refine (canonicalize_succeeds_iff dialect b otherValid).mpr
      ⟨fun u member => ?_, fun u member => ?_⟩
    · obtain ⟨t, among, shaped⟩ := alike_member Table.shape a.tables b.tables shapes u member
      exact columns_alike dialect t u shaped (columns t among)
    · obtain ⟨t, among, shaped⟩ := alike_member Table.shape a.tables b.tables shapes u member
      exact accepts_alike dialect t u (otherWf.tables u member) shaped (accepts t among)
        (fun named => (accepted named).1 u member) (fun named => (accepted named).2 u member)
  · have imageWf := image_well_formed dialect a imageA valid canonical
    have otherImageWf := image_well_formed dialect b imageB otherValid other
    exact (schema_equivalent_iff imageA imageB imageWf otherImageWf).mpr
      (images_equivalent dialect a b imageA imageB valid otherValid canonical other shapes)

namespace Hotel

def room (key : String) : TableDraft where
  name := "room"
  columns := [{ name := "number", type := { base := .bigInt } },
    { name := "floor", type := { base := .integer } }]
  constraints := [(Constraint.unique ["number"]).named key]
  indexes := [Index.ascending "by_floor" ["floor"]]

def rooms (key : String) : Schema := { tables := [(room key).toTable 0] }

def image (key : String) : Schema where
  tables :=
    [{ name := "room"
       columns := [{ name := "number", type := { base := .bigInt } },
         { name := "floor", type := { base := .bigInt } }]
       indexes := [Index.ascending "by_floor" ["floor"],
         { Index.ascending key ["number"] with unique := true }]
       ordinal := 0 }]

theorem rooms_validated (key : String) : (rooms key).Validated := by
  refine ⟨{ tables := [room key] }, List.forall_mem_singleton.mpr ⟨?_, ?_⟩, rfl⟩
  · exact List.forall_mem_nil _
  · exact List.forall_mem_singleton.mpr rfl

end Hotel

theorem hotel_congruent :
    (∃ imageB, Dialect.spanner.canonicalize (Hotel.rooms "room_key") = .ok imageB) ∧
      (Hotel.image "by_number").equivalent (Hotel.image "room_key") = true := by
  have congruent := canonicalize_congruent .spanner (Hotel.rooms "by_number") (Hotel.rooms "room_key")
    (Hotel.image "by_number") (Hotel.rooms_validated _) (Hotel.rooms_validated _) (by decide) rfl
  refine ⟨congruent.1.mpr fun _ => ⟨?_, ?_⟩, congruent.2 _ rfl⟩
  · unfold Schema.Tacit
    decide
  · decide

-- A unique constraint can have the name of an index until it becomes one.
theorem shared_name_is_refused : ¬∀ dialect a b, a.Validated → b.Validated → a.equivalent b = true →
    ((∃ image, Dialect.canonicalize dialect a = .ok image) ↔
      ∃ image, Dialect.canonicalize dialect b = .ok image) := by
  intro always
  have refused : Dialect.spanner.canonicalize (Hotel.rooms "by_floor")
      = .error (.validation "room" (.duplicateIndex "by_floor")) := rfl
  obtain ⟨image, accepted⟩ := (always .spanner (Hotel.rooms "by_number") (Hotel.rooms "by_floor")
    (Hotel.rooms_validated _) (Hotel.rooms_validated _) (by decide)).mp ⟨Hotel.image "by_number", rfl⟩
  rw [refused] at accepted
  cases accepted

end SchemaDrift
