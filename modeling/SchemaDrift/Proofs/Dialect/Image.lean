import SchemaDrift.Proofs.Dialect.Canonical
import SchemaDrift.Proofs.Schema.Equivalence
/-!
The canonical image of a schema, table by table: which parts stay, which are rewritten, and which
change sides between constraints and indexes. Equivalent schemas have equivalent images.
-/

set_option autoImplicit false

namespace SchemaDrift

def Index.folds (index : Index) : Bool := index.unique && index.columns.all (!·.descending)

def Index.asConstraint (index : Index) : Constraint :=
  (Constraint.unique index.columnNames).named index.name

def Constraint.asIndex (table : String) (constraint : Constraint) : Index :=
  { Index.ascending (constraint.effectiveName table) constraint.columns with unique := true }

namespace Dialect

def foldedConstraints : Dialect → Table → List Constraint
  | postgres, table => table.constraints
  | mysql, table => table.constraints ++ (table.indexes.filter Index.folds).map Index.asConstraint
  | spanner, table => table.constraints.filter (·.kind ≠ .unique)

def foldedIndexes : Dialect → Table → List Index
  | postgres, table => table.indexes
  | mysql, table => table.indexes.filter (!·.folds)
  | spanner, table =>
    table.indexes ++ (table.constraints.filter (·.kind = .unique)).map (Constraint.asIndex table.name)

def folded (dialect : Dialect) (table : Table) : Table :=
  { table with constraints := dialect.foldedConstraints table, indexes := dialect.foldedIndexes table }

structure Image (dialect : Dialect) (table image : Table) : Prop where
  name : image.name = table.name
  ordinal : image.ordinal = table.ordinal
  options : image.options = table.options
  key : image.primaryKey = table.primaryKey
  columns : List.Forall₂ (fun c d => dialect.canonicalColumn c = .ok d) table.columns image.columns
  constraints : image.constraints = dialect.foldedConstraints table
  indexes : image.indexes = dialect.foldedIndexes table

end Dialect

section Pairs

variable {α β γ : Type}

theorem pairs_with (P : α → Prop) (R : α → β → Prop) (l : List α) (r : List β)
    (each : ∀ a ∈ l, P a) (pairs : List.Forall₂ R l r) :
    List.Forall₂ (fun a b => P a ∧ R a b) l r := by
  induction pairs with
  | nil => exact .nil
  | cons first _ ih =>
      exact .cons ⟨each _ List.mem_cons_self, first⟩ (ih fun a member => each a (by simp [member]))

theorem pairs_trans (R : α → β → Prop) (S : β → γ → Prop) (k : List α) (l : List β) (m : List γ)
    (first : List.Forall₂ R k l) (second : List.Forall₂ S l m) :
    List.Forall₂ (fun a c => ∃ b, R a b ∧ S b c) k m := by
  induction first generalizing m with
  | nil =>
      cases second
      exact .nil
  | cons related _ ih =>
      cases second with
      | cons next rest => exact .cons ⟨_, related, next⟩ (ih _ rest)

theorem pairs_split (R : α → β → Prop) (S : β → γ → Prop) (k : List α) (m : List γ)
    (pairs : List.Forall₂ (fun a c => ∃ b, R a b ∧ S b c) k m) :
    ∃ l, List.Forall₂ R k l ∧ List.Forall₂ S l m := by
  induction pairs with
  | nil => exact ⟨[], .nil, .nil⟩
  | cons middle _ ih =>
      obtain ⟨b, first, second⟩ := middle
      obtain ⟨l, firsts, seconds⟩ := ih
      exact ⟨b :: l, .cons first firsts, .cons second seconds⟩

end Pairs

/-! ### Building edited tables -/

theorem tables_from_pairs (R : Table → TableDraft → Prop) (tables : List Table)
    (drafts : List TableDraft) (fixed : ∀ t d, R t d → d.ordinal = some t.ordinal)
    (pairs : List.Forall₂ R tables drafts) (position : Nat) :
    List.Forall₂ (fun t u => ∃ d, R t d ∧ u = d.toTable 0) tables (tablesFrom position drafts) := by
  induction pairs generalizing position with
  | nil => exact .nil
  | cons first rest ih =>
      refine .cons ⟨_, first, ?_⟩ (ih (position + 1))
      simp only [TableDraft.toTable, fixed _ _ first, Option.getD_some]

theorem images_ordered (R : Table → Table → Prop) (tables images : List Table)
    (fixed : ∀ t u, R t u → u.ordinal = t.ordinal) (pairs : List.Forall₂ R tables images)
    (ordered : tables.Pairwise fun a b => a.ordinal ≤ b.ordinal) :
    images.Pairwise fun a b => a.ordinal ≤ b.ordinal := by
  have same : images.map Table.ordinal = tables.map Table.ordinal := by
    clear ordered
    induction pairs with
    | nil => rfl
    | cons first _ ih => rw [List.map_cons, List.map_cons, fixed _ _ first, ih]
  have sorted : (tables.map Table.ordinal).Pairwise (· ≤ ·) := List.pairwise_map.mpr ordered
  rw [← same] at sorted
  exact List.pairwise_map.mp sorted

theorem built_images (schema image : Schema) (drafts : List TableDraft)
    (R : Table → TableDraft → Prop) (wf : schema.WellFormed)
    (fixed : ∀ t d, R t d → d.ordinal = some t.ordinal)
    (pairs : List.Forall₂ R schema.tables drafts)
    (built : SchemaDraft.build { tables := drafts } = .ok image) :
    List.Forall₂ (fun t u => ∃ d, R t d ∧ u = d.toTable 0) schema.tables image.tables := by
  obtain ⟨_, _, rfl, _⟩ := (schema_build_ok _ _).mp built
  have images := tables_from_pairs R schema.tables drafts fixed pairs 0
  rw [sort_of_ordered]
  · exact images
  · refine images_ordered _ _ _ (fun t u made => ?_) images wf.ordered
    obtain ⟨d, related, rfl⟩ := made
    simp only [TableDraft.toTable, fixed t d related, Option.getD_some]

theorem edited_table (t : Table) (constraints : List Constraint) (indexes : List Index)
    (wf : t.WellFormed) :
    TableDraft.toTable { t.toDraft with constraints, indexes } 0 = { t with constraints, indexes } := by
  have same := build_reopened t 0 wf
  change ({ t.toDraft.toTable 0 with constraints, indexes } : Table) = _
  rw [same]

/-! ### Columns -/

theorem canonical_column_ok (dialect : Dialect) (c d : Column) :
    dialect.canonicalColumn c = .ok d ↔ dialect.checkColumn c = .ok () ∧
      ∃ type, dialect.canonicalType c.type = .ok type ∧
        d = { c with type, default := c.default.bind fun e => dialect.normalizeDefault e.toList } := by
  unfold Dialect.canonicalColumn
  rw [bind_ok]
  constructor
  · rintro ⟨_, checked, rest⟩
    obtain ⟨type, found, same⟩ := (bind_ok _ _ _).mp rest
    cases same
    exact ⟨checked, type, found, rfl⟩
  · rintro ⟨checked, type, found, rfl⟩
    exact ⟨(), checked, (bind_ok _ _ _).mpr ⟨type, found, rfl⟩⟩

theorem canonical_column_shape (dialect : Dialect) (c d : Column)
    (canonical : dialect.canonicalColumn c = .ok d) :
    dialect.canonicalColumn c.shape = .ok d.shape := by
  obtain ⟨checked, type, found, rfl⟩ := (canonical_column_ok dialect c d).mp canonical
  exact (canonical_column_ok dialect c.shape _).mpr ⟨checked, type, found, rfl⟩

theorem coerced_columns (dialect : Dialect) (t : Table) (columns : List Column) (wf : t.WellFormed)
    (pairs : List.Forall₂ (fun c d => dialect.canonicalColumn c = .ok d) t.columns columns) :
    TableDraft.toTable { t.toDraft with columns } 0 = { t with columns } := by
  have key : t.primaryKey.elim [] Constraint.columns = t.primaryKeyColumns := by
    unfold Table.primaryKeyColumns
    cases t.primaryKey <;> rfl
  have first : t.toDraft.primaryKeys.head? = t.primaryKey := by
    simp only [Table.toDraft]
    cases t.primaryKey <;> rfl
  -- The columns of the key refuse NULL before, so they do so afterwards.
  have refuse : columns.map (fun column => if column.name ∈ t.primaryKeyColumns then
      { column with nullable := false } else column) = columns := by
    rw [List.map_congr_left (g := id), List.map_id]
    intro d member
    obtain ⟨c, inside, canonical⟩ := partner_of_right _ _ _ pairs d member
    obtain ⟨_, type, _, rfl⟩ := (canonical_column_ok dialect c d).mp canonical
    by_cases keyed : c.name ∈ t.primaryKeyColumns
    · rw [if_pos keyed, id, ← wf.refusesNull c inside keyed]
    · rw [if_neg keyed, id]
  simp only [TableDraft.toTable, first, key, refuse]
  rfl

theorem canonical_columns_images (dialect : Dialect) (schema image : Schema) (wf : schema.WellFormed)
    (canonical : dialect.canonicalColumns schema = .ok image) :
    List.Forall₂ (fun t u => ∃ columns,
      List.Forall₂ (fun c d => dialect.canonicalColumn c = .ok d) t.columns columns ∧
        u = { t with columns }) schema.tables image.tables := by
  obtain ⟨_, _, mapped⟩ := (bind_ok _ _ _).mp canonical
  obtain ⟨drafts, each, built⟩ := (bind_ok _ _ _).mp mapped
  have made := ((map_m_ok _ _ _).mp each).imp fun t d single => (bind_ok _ _ _).mp single
  refine (built_images schema image drafts _ wf ?_ (pairs_with _ _ _ _ wf.tables made) built).imp ?_
  · rintro t d ⟨_, columns, _, same⟩
    cases same
    rfl
  · rintro t u ⟨d, ⟨tWf, columns, mapped, same⟩, rfl⟩
    cases same
    have canonical := (map_m_ok _ _ _).mp mapped
    exact ⟨columns, canonical, coerced_columns dialect t columns tWf canonical⟩

/-! ### Unique indexes and unique constraints -/

theorem fold_index (draft : TableDraft) (index : Index) : Dialect.foldUniqueIndex draft index =
    if index.folds then { draft with
      indexes := draft.indexes.filter (·.name ≠ index.name)
      constraints := draft.constraints ++ [index.asConstraint] } else draft := by
  have absent (missing : ¬draft.hasIndex index.name = true) :
      draft.indexes.filter (·.name ≠ index.name) = draft.indexes := by
    rw [draft_has_index] at missing
    refine List.filter_eq_self.mpr fun i member => ?_
    have other : i.name ≠ index.name := fun same => missing (List.mem_map.mpr ⟨i, member, same⟩)
    simpa using other
  have removed : (draft.removeIndex? index.name).getD draft
      = { draft with indexes := draft.indexes.filter (·.name ≠ index.name) } := by
    unfold TableDraft.removeIndex?
    by_cases present : draft.hasIndex index.name = true
    · rw [if_pos present, Option.getD_some]
    · rw [if_neg present, Option.getD_none, absent present]
  unfold Dialect.foldUniqueIndex
  rw [removed]
  rfl

theorem fold_indexes (draft : TableDraft) (l : List Index) :
    l.foldl Dialect.foldUniqueIndex draft = { draft with
      indexes := draft.indexes.filter (·.name ∉ (l.filter Index.folds).map Index.name)
      constraints := draft.constraints ++ (l.filter Index.folds).map Index.asConstraint } := by
  induction l generalizing draft with
  | nil => simp
  | cons index l ih =>
      rw [List.foldl_cons, ih, fold_index]
      by_cases folds : index.folds = true
      · rw [if_pos folds, List.filter_cons_of_pos folds]
        simp only [List.filter_filter, List.map_cons, List.append_assoc, List.singleton_append]
        congr 2
        funext i
        by_cases same : i.name = index.name <;> simp [same]
      · rw [if_neg folds, List.filter_cons_of_neg folds]

theorem folded_indexes (indexes : List Index) (distinct : (indexes.map Index.name).Nodup) :
    indexes.filter (·.name ∉ (indexes.filter Index.folds).map Index.name)
      = indexes.filter (!·.folds) := by
  refine List.filter_congr fun i member => ?_
  rw [Bool.eq_iff_iff]
  simp only [decide_eq_true_eq, Bool.not_eq_eq_eq_not, Bool.not_true, List.mem_map, List.mem_filter,
    not_exists, not_and, and_imp]
  constructor
  · intro other
    by_contra folds
    exact other i member (by simpa using folds) rfl
  · intro plain j inside folds same
    rw [List.inj_on_of_nodup_map distinct inside member same, plain] at folds
    cases folds

theorem fold_constraint (draft : TableDraft) (table : String) (front back : List Constraint)
    (c : Constraint) (constraints : draft.constraints = front ++ c :: back)
    (others : ∀ d ∈ front, d.kind ≠ .unique) :
    Dialect.foldUniqueConstraint table draft c = if c.kind = .unique then { draft with
      constraints := front ++ back
      indexes := draft.indexes ++ [c.asIndex table] } else draft := by
  unfold Dialect.foldUniqueConstraint
  by_cases unique : c.kind = .unique
  · rw [if_pos unique, if_pos unique]
    have apart : ∀ d ∈ front, d.structurallyEq c = false := by
      intro d member
      have other := others d member
      unfold Constraint.structurallyEq
      rw [unique]
      cases kind : d.kind <;> simp_all
    have own : c.structurallyEq c = true := (constraint_agree c c).mpr rfl
    have erased : eraseFirst? (·.structurallyEq c) (front ++ c :: back) = some (front ++ back) := by
      clear constraints others
      induction front with
      | nil => simp [eraseFirst?, own]
      | cons d front ih =>
          rw [List.cons_append, eraseFirst?, apart d (by simp), if_neg Bool.false_ne_true,
            ih fun e member => apart e (by simp [member])]
          rfl
    have removed : draft.removeConstraint? c = some { draft with constraints := front ++ back } := by
      have other : c.isPrimaryKey = false := by simp [Constraint.isPrimaryKey, unique]
      rw [TableDraft.removeConstraint?, other, if_neg Bool.false_ne_true, constraints, erased]
      rfl
    rw [removed]
    rfl
  · rw [if_neg unique, if_neg unique]

theorem fold_constraints_of (draft : TableDraft) (table : String) (front l : List Constraint)
    (constraints : draft.constraints = front ++ l) (others : ∀ d ∈ front, d.kind ≠ .unique) :
    l.foldl (Dialect.foldUniqueConstraint table) draft = { draft with
      constraints := front ++ l.filter (·.kind ≠ .unique)
      indexes := draft.indexes ++ (l.filter (·.kind = .unique)).map (Constraint.asIndex table) } := by
  induction l generalizing draft front with
  | nil => simp [← constraints]
  | cons c l ih =>
      rw [List.foldl_cons, fold_constraint draft table front l c constraints others]
      by_cases unique : c.kind = .unique
      · rw [if_pos unique, ih _ front rfl others]
        simp [unique]
      · rw [if_neg unique, ih draft (front ++ [c]) (by simpa using constraints) fun d member => ?_]
        · simp [unique]
        · rcases List.mem_append.mp member with old | last
          · exact others d old
          · exact List.mem_singleton.mp last ▸ unique

theorem mysql_folds (t : Table) (wf : t.WellFormed) :
    t.indexes.foldl Dialect.foldUniqueIndex t.toDraft = (Dialect.mysql.folded t).toDraft := by
  rw [fold_indexes]
  change ({ t.toDraft with
    constraints := Dialect.mysql.foldedConstraints t
    indexes := t.indexes.filter (·.name ∉ (t.indexes.filter Index.folds).map Index.name) } : TableDraft) = _
  rw [folded_indexes t.indexes wf.sound.indexesDistinct]
  rfl

theorem spanner_folds (t : Table) :
    t.constraints.foldl (Dialect.foldUniqueConstraint t.name) t.toDraft
      = (Dialect.spanner.folded t).toDraft :=
  fold_constraints_of t.toDraft t.name [] t.constraints rfl (by simp)

theorem folded_images (dialect : Dialect) (schema image : Schema) (edit : Table → TableDraft)
    (wf : schema.WellFormed) (folds : ∀ t, t.WellFormed → edit t = (dialect.folded t).toDraft)
    (built : SchemaDraft.build { tables := schema.tables.map edit } = .ok image) :
    List.Forall₂ (fun t u => u = dialect.folded t) schema.tables image.tables := by
  have edits : List.Forall₂ (fun t d => t.WellFormed ∧ d = edit t) schema.tables
      (schema.tables.map edit) := by
    simp only [List.forall₂_map_right_iff, List.forall₂_same, and_true]
    exact wf.tables
  refine (built_images schema image _ _ wf ?_ edits built).imp ?_
  · rintro t d ⟨tWf, rfl⟩
    rw [folds t tWf]
    rfl
  · rintro t u ⟨d, ⟨tWf, rfl⟩, rfl⟩
    rw [folds t tWf]
    exact edited_table t _ _ tWf

theorem canonicalize_images (dialect : Dialect) (schema image : Schema) (valid : schema.Validated)
    (canonical : dialect.canonicalize schema = .ok image) :
    List.Forall₂ dialect.Image schema.tables image.tables := by
  have wf := (validated_iff_well_formed schema).mp valid
  cases dialect with
  | postgres =>
      refine (canonical_columns_images .postgres schema image wf canonical).imp ?_
      rintro t u ⟨columns, mapped, rfl⟩
      exact ⟨rfl, rfl, rfl, rfl, mapped, rfl, rfl⟩
  | mysql =>
      obtain ⟨between, mapped, folded⟩ := (bind_ok _ _ _).mp canonical
      have betweenWf := (validated_iff_well_formed between).mp
        (canonical_columns_validated .mysql schema between valid mapped)
      refine (pairs_trans _ _ _ _ _ (canonical_columns_images .mysql schema between wf mapped)
        (folded_images .mysql between image _ betweenWf mysql_folds folded)).imp ?_
      rintro t v ⟨u, ⟨columns, each, rfl⟩, rfl⟩
      exact ⟨rfl, rfl, rfl, rfl, each, rfl, rfl⟩
  | spanner =>
      obtain ⟨between, folded, mapped⟩ := (bind_ok _ _ _).mp canonical
      have betweenWf := (validated_iff_well_formed between).mp
        (unique_constraints_validated schema between valid folded)
      refine (pairs_trans _ _ _ _ _
        (folded_images .spanner schema between _ wf (fun t _ => spanner_folds t) folded)
        (canonical_columns_images .spanner between image betweenWf mapped)).imp ?_
      rintro t v ⟨u, rfl, columns, each, rfl⟩
      exact ⟨rfl, rfl, rfl, rfl, each, rfl, rfl⟩

/-! ### Images of equivalent schemas -/

def foldedShape : Bool × List IndexColumn → Option Shape
  | (unique, columns) => if unique && columns.all (!·.descending) then
      some (.unique (columns.map IndexColumn.name)) else none

def Shape.index? : Shape → Option (Bool × List IndexColumn)
  | .unique columns => some (true, columns.map fun column => { name := column })
  | _ => none

namespace Dialect

def foldedShapes (dialect : Dialect) (shape : TableShape) : Multiset Shape :=
  match dialect with
  | postgres => shape.constraints
  | mysql => shape.constraints + shape.indexes.filterMap foldedShape
  | spanner => shape.constraints.filter fun s => s.index?.isNone

def foldedIndexShapes (dialect : Dialect) (shape : TableShape) : Multiset (Bool × List IndexColumn) :=
  match dialect with
  | postgres => shape.indexes
  | mysql => shape.indexes.filter fun s => (foldedShape s).isNone
  | spanner => shape.indexes + shape.constraints.filterMap Shape.index?

end Dialect

theorem folded_shape (index : Index) : foldedShape index.shape
    = if index.folds then some index.asConstraint.shape else none := rfl

theorem index_shape (table : String) (c : Constraint) : c.shape.index?
    = if c.kind = .unique then some (c.asIndex table).shape else none := by
  unfold Constraint.shape Shape.index? Constraint.asIndex Index.ascending Index.shape
  cases kind : c.kind <;> simp

theorem tally_filter_map {α κ ι : Type} (key : α → κ) (f : κ → Option ι) (p : α → Bool) (g : α → ι)
    (agree : ∀ a, f (key a) = if p a then some (g a) else none) (l : List α) :
    tally g (l.filter p) = (tally key l).filterMap f ∧
      tally key (l.filter (!p ·)) = (tally key l).filter fun k => (f k).isNone := by
  induction l with
  | nil => exact ⟨rfl, rfl⟩
  | cons a l ih =>
      by_cases hit : p a = true
      · have found : f (key a) = some (g a) := by rw [agree, if_pos hit]
        rw [List.filter_cons_of_pos hit, List.filter_cons_of_neg (by simp [hit]), tally_cons, tally_cons,
          Multiset.filterMap_cons_some f (key a) _ found, ih.1, ih.2,
          Multiset.filter_cons_of_neg _ (by simp [found])]
        exact ⟨rfl, rfl⟩
      · have none : f (key a) = none := by rw [agree, if_neg hit]
        rw [List.filter_cons_of_neg hit, List.filter_cons_of_pos (by simp [hit]), tally_cons, tally_cons,
          Multiset.filterMap_cons_none _ _ none, ih.1, ih.2, Multiset.filter_cons_of_pos _ (by simp [none])]
        exact ⟨rfl, rfl⟩

theorem folded_constraints_shape (dialect : Dialect) (t : Table) :
    tally Constraint.shape (dialect.foldedConstraints t) = dialect.foldedShapes t.shape := by
  cases dialect with
  | postgres => rfl
  | mysql =>
      have folded := (tally_filter_map Index.shape foldedShape Index.folds
        (fun i => i.asConstraint.shape) folded_shape t.indexes).1
      rw [Dialect.foldedConstraints, tally_append, Dialect.foldedShapes, Table.shape, ← folded]
      simp [tally, Function.comp_def]
  | spanner =>
      have kept := (tally_filter_map Constraint.shape Shape.index? (·.kind = .unique)
        (fun c => (c.asIndex t.name).shape) (by simpa using index_shape t.name) t.constraints).2
      rw [Dialect.foldedShapes, Table.shape, ← kept, Dialect.foldedConstraints]
      congr 2
      simp

theorem folded_indexes_shape (dialect : Dialect) (t : Table) :
    tally Index.shape (dialect.foldedIndexes t) = dialect.foldedIndexShapes t.shape := by
  cases dialect with
  | postgres => rfl
  | mysql =>
      exact (tally_filter_map Index.shape foldedShape Index.folds
        (fun i => i.asConstraint.shape) folded_shape t.indexes).2
  | spanner =>
      have folded := (tally_filter_map Constraint.shape Shape.index? (·.kind = .unique)
        (fun c => (c.asIndex t.name).shape) (by simpa using index_shape t.name) t.constraints).1
      rw [Dialect.foldedIndexes, tally_append, Dialect.foldedIndexShapes, Table.shape, ← folded]
      simp [tally, Function.comp_def]

theorem image_columns (dialect : Dialect) (columns images : List Column)
    (pairs : List.Forall₂ (fun c d => dialect.canonicalColumn c = .ok d) columns images) :
    (tally Column.shape images).map Except.ok
      = (tally Column.shape columns).map dialect.canonicalColumn := by
  induction pairs with
  | nil => rfl
  | cons first _ ih =>
      rw [tally_cons, tally_cons, Multiset.map_cons, Multiset.map_cons, ih,
        canonical_column_shape dialect _ _ first]

theorem image_shape (dialect : Dialect) (t u imageT imageU : Table) (first : dialect.Image t imageT)
    (second : dialect.Image u imageU) (same : t.shape = u.shape) : imageT.shape = imageU.shape := by
  have key (v image : Table) (made : dialect.Image v image) :
      image.primaryKeyColumns = v.shape.key := by
    change image.primaryKeyColumns = v.primaryKeyColumns
    rw [Table.primaryKeyColumns, made.key]
    rfl
  have columns : tally Column.shape imageT.columns = tally Column.shape imageU.columns := by
    have injective : Function.Injective (Except.ok : Column → Except SchemaError Column) :=
      fun _ _ => Except.ok.inj
    refine Multiset.map_injective injective ?_
    rw [image_columns dialect _ _ first.columns, image_columns dialect _ _ second.columns]
    exact congrArg (Multiset.map dialect.canonicalColumn ∘ TableShape.columns) same
  rw [Table.shape, Table.shape, columns, key t imageT first, key u imageU second, first.name,
    second.name, first.constraints, second.constraints, first.indexes, second.indexes,
    folded_constraints_shape, folded_constraints_shape, folded_indexes_shape, folded_indexes_shape, same]
  congr 1
  exact congrArg TableShape.name same

theorem images_equivalent (dialect : Dialect) (a b imageA imageB : Schema) (valid : a.Validated)
    (otherValid : b.Validated) (first : dialect.canonicalize a = .ok imageA)
    (second : dialect.canonicalize b = .ok imageB)
    (same : tally Table.shape a.tables = tally Table.shape b.tables) :
    tally Table.shape imageA.tables = tally Table.shape imageB.tables := by
  -- The shape of an image is a function of the shape of its table.
  have determined (shape : TableShape) : ∃ result, ∀ t image, dialect.Image t image →
      t.shape = shape → image.shape = result := by
    by_cases made : ∃ t image, dialect.Image t image ∧ t.shape = shape
    · obtain ⟨u, copy, made, rfl⟩ := made
      exact ⟨copy.shape, fun t image other alike => image_shape dialect t u image copy other made alike⟩
    · exact ⟨shape, fun t image other alike => absurd ⟨t, image, other, alike⟩ made⟩
  choose next follows using determined
  have whole (tables images : List Table) (pairs : List.Forall₂ dialect.Image tables images) :
      tally Table.shape images = (tally Table.shape tables).map next := by
    induction pairs with
    | nil => rfl
    | cons made _ ih => rw [tally_cons, tally_cons, Multiset.map_cons, ih, follows _ _ _ made rfl]
  rw [whole _ _ (canonicalize_images dialect a imageA valid first),
    whole _ _ (canonicalize_images dialect b imageB otherValid second), same]

end SchemaDrift
