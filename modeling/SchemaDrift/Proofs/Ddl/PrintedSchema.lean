import SchemaDrift.Proofs.Ddl.ReadBack
/-!
A printed schema is read back: each operation of its creation is written as statements that declare
what the operation is for.
-/

set_option autoImplicit false

namespace SchemaDrift

open Grammar

structure Dialect.NamesApart (dialect : Dialect) (t : Table) : Prop where
  table : dialect.Apart [.only] t.name
  columns : ∀ c ∈ t.columns, dialect.Apart lineWords c.name
  indexes : ∀ i ∈ t.indexes, dialect.Apart [.concurrently] i.name

structure Dialect.LegibleTable (dialect : Dialect) (t : Table) : Prop where
  names : dialect.NamesApart t
  columns : ∀ c ∈ t.columns, dialect.ReadableColumn c
  checks : ∀ c ∈ t.constraints, ∀ e, c.kind = .check e → GroupBody (e.toList ++ [')'])
  options : ∀ option ∈ t.options, LegibleOption option

theorem paired_members {α β : Type} (R : α → β → Prop) (k : List α) (l : List β)
    (pairs : List.Forall₂ R k l) :
    ∃ z : List (α × β), z.map Prod.fst = k ∧ z.map Prod.snd = l ∧ ∀ x ∈ z, R x.1 x.2 := by
  induction pairs with
  | nil => exact ⟨[], rfl, rfl, List.forall_mem_nil _⟩
  | @cons a b k l first _ ih =>
      obtain ⟨z, left, right, each⟩ := ih
      exact ⟨(a, b) :: z, by simp [left], by simp [right], List.forall_mem_cons.mpr ⟨first, each⟩⟩

theorem constraint_legible (existing : List String) (c : Constraint) (fits : c.Fits existing)
    (check : ∀ e, c.kind = .check e → GroupBody (e.toList ++ [')'])) : c.Legible := by
  have named (other : c.isCheck = false) : c.columns ≠ [] :=
    (fits.columns.resolve_left fun both => Bool.false_ne_true (other.symm.trans both.1)).1
  obtain ⟨name, columns, kind⟩ := c
  cases kind with
  | primaryKey | unique => exact named rfl
  | foreignKey r =>
      have some := named rfl
      refine ⟨some, fun none => some ?_⟩
      exact List.length_eq_zero_iff.mp ((fits.arity r rfl).symm.trans (none ▸ rfl))
  | check e => exact check e rfl

section Table

variable (dialect : Dialect) (t : Table) (wf : t.WellFormed) (legible : dialect.LegibleTable t)

include wf legible

theorem clause_legible (c : Constraint) (member : c ∈ dialect.clauses t) : c.Legible := by
  rcases List.mem_append.mp member with key | own
  · have inside : c ∈ t.primaryKey.toList := by
      split at key
      · cases key
      · exact key
    have primary : c.kind = .primaryKey := of_decide_eq_true (wf.placed.keys c inside)
    rw [Constraint.Legible, primary]
    exact (wf.sound.keys c inside).1
  · exact constraint_legible _ c (wf.sound.constraints c own) (legible.checks c own)

omit legible in
theorem index_listed (i : Index) (member : i ∈ t.indexes) : i.columns ≠ [] := by
  intro none
  exact (wf.sound.indexes i member).1 (by rw [Index.columnNames, none]; rfl)

theorem lines_print (texts : List String) (written : dialect.tableLines t = .ok texts) :
    List.Forall₂ (dialect.Prints t.name) (dialect.lines t) texts := by
  have canonical : ∀ c ∈ t.columns, dialect.canonicalColumn c = .ok c := fun c member =>
    (legible.columns c member).fixed
  obtain ⟨columns, mapped, lines⟩ := table_lines_ok dialect t canonical
  obtain rfl : texts = _ := Except.ok.inj (written.symm.trans lines)
  refine List.rel_append (List.rel_append ?_ ?_) ?_
  · rw [List.forall₂_map_left_iff]
    refine (pairs_with _ _ _ _ (fun c member => member) ((map_m_ok _ _ _).mp mapped)).imp ?_
    rintro c text ⟨member, definition⟩
    exact .column c text (legible.columns c member) (legible.names.columns c member) definition
  · rw [List.forall₂_map_left_iff, List.forall₂_map_right_iff, List.forall₂_same]
    exact fun c member => .constraint c (clause_legible dialect t wf legible c member)
  · rw [List.forall₂_map_left_iff, List.forall₂_map_right_iff, List.forall₂_same]
    intro i member
    obtain ⟨listed, inline⟩ := List.mem_filter.mp member
    exact .index i inline (index_listed t wf i listed)

theorem table_states (texts : List String) (written : dialect.createTable t = .ok texts) :
    List.Forall₂ dialect.States (dialect.declarations (.createTable t)) texts := by
  obtain ⟨lines, listed, rest⟩ := (bind_ok _ _ _).mp written
  cases rest
  obtain ⟨z, left, right, prints⟩ := paired_members _ _ _ (lines_print dialect t wf legible lines listed)
  refine .cons ?_ ?_
  · cases z with
    | nil =>
        have empty : dialect.lines t = [] := left.symm
        rw [Dialect.lines] at empty
        have none := (List.append_eq_nil_iff.mp (List.append_eq_nil_iff.mp empty).1).1
        exact absurd (List.map_eq_nil_iff.mp none) wf.sound.inhabited
    | cons line z =>
        have states := Dialect.States.table t line z prints legible.options
        rw [left, right, table_declared dialect t wf] at states
        exact states
  · rw [List.forall₂_map_left_iff, List.forall₂_map_right_iff, List.forall₂_same]
    intro i member
    have listed := List.mem_of_mem_filter member
    exact .index t.name i (index_listed t wf i listed) (legible.names.indexes i listed)
      legible.names.table

end Table

theorem placed_legible (dialect : Dialect) (turn : Table × (String → Bool))
    (legible : dialect.LegibleTable turn.1) : dialect.LegibleTable (Diff.placed turn) where
  names := ⟨legible.names.table, legible.names.columns, legible.names.indexes⟩
  columns := legible.columns
  checks := fun c member => legible.checks c ((without_sublist turn.1 _).subset member)
  options := legible.options

theorem addition_states (dialect : Dialect) (t : Table) (wf : t.WellFormed)
    (legible : dialect.LegibleTable t) (c : Constraint) (member : c ∈ t.constraints)
    (texts : List String) (written : dialect.render (.addConstraint t.name c) = .ok texts) :
    List.Forall₂ dialect.States (dialect.declarations (.addConstraint t.name c)) texts := by
  have own : c ∈ dialect.clauses t := List.mem_append_right _ member
  have plain : ¬(dialect = .spanner && c.isPrimaryKey) = true := by
    rw [wf.placed.constraints c member, Bool.and_false]
    exact Bool.false_ne_true
  have text : dialect.render (.addConstraint t.name c)
      = .ok ["ALTER TABLE " ++ dialect.quote t.name ++ " "
          ++ ("ADD " ++ dialect.tableConstraint t.name c)] := if_neg plain
  have same : "ALTER TABLE " ++ dialect.quote t.name ++ " "
      ++ ("ADD " ++ dialect.tableConstraint t.name c) = dialect.addition t.name c := by
    rw [Dialect.addition, ← String.toList_inj]
    simp
  rw [text, same] at written
  cases written
  exact .cons (.constraint t.name c (clause_legible dialect t wf legible c own) legible.names.table) .nil

-- Each operation of the creation creates a table, less some of its constraints, or adds one of its
-- constraints.
theorem creation_member (schema : Schema) (op : Operation) (member : op ∈ schema.creation) :
    (∃ turn : Table × (String → Bool), turn.1 ∈ schema.tables ∧
        op = .createTable (Diff.placed turn)) ∨
      ∃ t ∈ schema.tables, ∃ c ∈ t.constraints, op = .addConstraint t.name c := by
  rw [Schema.creation, creations_from_turns] at member
  have among (turn : Table × (String → Bool)) (inside : turn ∈ Schema.turnsFrom [] schema.tables) :
      turn.1 ∈ schema.tables := turns_from_tables [] schema.tables ▸ List.mem_map_of_mem inside
  rcases List.mem_append.mp member with created | deferred
  · obtain ⟨_, listed, rfl⟩ := List.mem_map.mp created
    obtain ⟨turn, inside, rfl⟩ := List.mem_map.mp listed
    exact .inl ⟨turn, among turn inside, rfl⟩
  · obtain ⟨turn, inside, own⟩ := List.mem_flatMap.mp deferred
    obtain ⟨c, blocked, rfl⟩ := List.mem_map.mp own
    exact .inr ⟨turn.1, among turn inside, c, (foreign_key_filtered _ _ c blocked).1, rfl⟩

section Schema

variable (dialect : Dialect) (schema : Schema) (wf : schema.WellFormed)

include wf

theorem creation_printable
    (fixed : ∀ t ∈ schema.tables, ∀ c ∈ t.columns, dialect.canonicalColumn c = .ok c) :
    ∀ op ∈ schema.creation, op.Printable dialect := by
  intro op member
  rcases creation_member schema op member with ⟨turn, among, rfl⟩ | ⟨t, among, c, own, rfl⟩
  · exact fixed turn.1 among
  · exact fun _ => (wf.tables t among).placed.constraints c own

variable (legible : ∀ t ∈ schema.tables, dialect.LegibleTable t)

include legible

theorem operation_states (op : Operation) (member : op ∈ schema.creation) (texts : List String)
    (written : dialect.render op = .ok texts) :
    List.Forall₂ dialect.States (dialect.declarations op) texts := by
  rcases creation_member schema op member with ⟨turn, among, rfl⟩ | ⟨t, among, c, own, rfl⟩
  · exact table_states dialect _ (without_well_formed turn.1 _ (wf.tables turn.1 among))
      (placed_legible dialect turn (legible turn.1 among)) texts written
  · exact addition_states dialect t (wf.tables t among) (legible t among) c own texts written

theorem creation_states (texts : List String)
    (written : dialect.renderAll schema.creation = .ok texts) :
    List.Forall₂ dialect.States (schema.creation.flatMap dialect.declarations) texts := by
  obtain ⟨each, mapped, rest⟩ := (bind_ok _ _ _).mp written
  cases rest
  rw [List.flatMap_def]
  refine List.rel_flatten (List.forall₂_map_left_iff.mpr ?_)
  refine (pairs_with _ _ _ _ (fun op member => member) ((map_m_ok _ _ _).mp mapped)).imp ?_
  exact fun op texts both => operation_states dialect schema wf legible op both.1 texts both.2

end Schema

-- A canonical image that can be written is read back, with an image that is equivalent to it.
theorem image_read_back (dialect : Dialect) (image : Schema) (wf : image.WellFormed)
    (images : ∀ t ∈ image.tables, dialect.Image t t)
    (accepts : ∀ t ∈ image.tables, dialect.Accepts t)
    (legible : ∀ t ∈ image.tables, dialect.LegibleTable t)
    (agrees : ∀ t ∈ image.tables, ∀ c ∈ t.columns, dialect.Agrees t c)
    (steady : ∀ t ∈ image.tables, ∀ c ∈ t.constraints, c.Steady) (texts : List String)
    (written : dialect.renderAll image.creation = .ok texts) :
    ∃ again copy, dialect.parse (script texts).toList = .ok again ∧
      dialect.canonicalize again = .ok copy ∧ copy.equivalent image = true := by
  obtain ⟨statements, declared, rfl, states⟩ := paired_members _ _ _
    (creation_states dialect image wf legible texts written)
  obtain ⟨ordered, drafts⟩ := creation_declares dialect image wf.distinct
  rw [← declared] at ordered drafts
  have read := script_read dialect statements states ordered
  have back : List.Forall₂ dialect.Redeclares image.tables
      ((Schema.turnsFrom [] image.tables).map dialect.final) := by
    have pairs : List.Forall₂ dialect.Redeclares ((Schema.turnsFrom [] image.tables).map Prod.fst)
        ((Schema.turnsFrom [] image.tables).map dialect.final) := by
      rw [List.forall₂_map_left_iff, List.forall₂_map_right_iff, List.forall₂_same]
      exact fun turn _ => final_redeclares dialect turn
    rw [turns_from_tables] at pairs
    exact pairs
  rw [← drafts] at back
  obtain ⟨again, copy, built, checked, canonical, same⟩ :=
    redeclared_schema dialect image _ wf images accepts agrees steady back
  refine ⟨again, copy, ?_, canonical, same⟩
  refine (bind_ok _ _ _).mpr ⟨_, read, (bind_ok _ _ _).mpr ⟨again, built, ?_⟩⟩
  exact (bind_ok _ _ _).mpr ⟨(), checked, rfl⟩

end SchemaDrift
