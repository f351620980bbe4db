import SchemaDrift.Proofs.Ddl.PrintedDocument
import SchemaDrift.Proofs.Dialect.Rendering
import SchemaDrift.Proofs.Plan.Creation
/-!
What the statements of a schema's creation add up to: the drafts of its tables, in their order, with
the indexes and the foreign keys that are added to each of them later.
-/

set_option autoImplicit false

namespace SchemaDrift

/-! ### The draft of a table -/

def Dialect.lines (dialect : Dialect) (table : Table) : List Line :=
  table.columns.map .column ++ (dialect.clauses table).map .constraint
    ++ (table.indexes.filter dialect.isInline).map .index

def Dialect.draft (dialect : Dialect) (table : Table) : TableDraft where
  name := table.name
  columns := table.columns.map dialect.columnBack
  primaryKeys := table.primaryKey.toList.map (dialect.readBack table.name)
  indexes := table.indexes.filter dialect.isInline
  constraints := table.constraints.map (dialect.readBack table.name)
  options := if dialect = .mysql then table.writtenOptions else []

section Lines

variable (dialect : Dialect) (table : String) (draft : TableDraft)

theorem columns_added (columns : List Column) :
    (columns.map Line.column).foldl (Line.add dialect table) draft
      = { draft with columns := draft.columns ++ columns.map dialect.columnBack } := by
  induction columns generalizing draft with
  | nil => simp
  | cons c columns ih =>
      rw [List.map_cons, List.foldl_cons, ih]
      simp [Line.add, TableDraft.addColumn]

theorem back_is_primary (c : Constraint) :
    (dialect.readBack table c).isPrimaryKey = c.isPrimaryKey := (bare_kind c).1

theorem constraint_added (c : Constraint) (other : c.isPrimaryKey = false) :
    draft.addConstraint (dialect.readBack table c)
      = { draft with constraints := draft.constraints ++ [dialect.readBack table c] } := by
  rw [TableDraft.addConstraint, back_is_primary, other, if_neg Bool.false_ne_true]

theorem constraints_added (constraints : List Constraint)
    (others : ∀ c ∈ constraints, c.isPrimaryKey = false) :
    (constraints.map Line.constraint).foldl (Line.add dialect table) draft
      = { draft with constraints := draft.constraints ++ constraints.map (dialect.readBack table) } := by
  induction constraints generalizing draft with
  | nil => simp
  | cons c constraints ih =>
      obtain ⟨first, later⟩ := List.forall_mem_cons.mp others
      rw [List.map_cons, List.foldl_cons, ih _ later, Line.add, constraint_added _ _ _ c first]
      simp

theorem key_added (key : Option Constraint) (primary : ∀ k ∈ key, k.isPrimaryKey = true) :
    (key.toList.map Line.constraint).foldl (Line.add dialect table) draft
      = { draft with
          primaryKeys := draft.primaryKeys ++ key.toList.map (dialect.readBack table) } := by
  cases key with
  | none => simp
  | some k =>
      have same := (back_is_primary dialect table k).trans (primary k rfl)
      simp [Line.add, TableDraft.addConstraint, same]

theorem indexes_added (indexes : List Index) :
    (indexes.map Line.index).foldl (Line.add dialect table) draft
      = { draft with indexes := draft.indexes ++ indexes } := by
  induction indexes generalizing draft with
  | nil => simp
  | cons i indexes ih =>
      rw [List.map_cons, List.foldl_cons, ih]
      simp [Line.add, TableDraft.addIndex]

theorem options_added (options : List (String × String)) :
    (options.map fun option => Suffix.option option.1 option.2).foldl Suffix.add draft
      = { draft with options := draft.options ++ options } := by
  induction options generalizing draft with
  | nil => simp
  | cons option options ih =>
      rw [List.map_cons, List.foldl_cons, ih]
      simp [Suffix.add, TableDraft.addOption]

end Lines

theorem spanner_key_back (table : String) (key : Constraint) (primary : key.isPrimaryKey = true) :
    Dialect.spanner.readBack table key = .primaryKey key.columns := by
  have kind : key.kind = .primaryKey := of_decide_eq_true primary
  rw [Dialect.readBack, Constraint.bare, kind, Dialect.writtenName?, if_pos primary]
  rfl

theorem table_declared (dialect : Dialect) (table : Table) (wf : table.WellFormed) :
    dialect.declared table (dialect.lines table) = dialect.draft table := by
  have primary : ∀ k ∈ table.primaryKey, k.isPrimaryKey = true := fun k found =>
    wf.placed.keys k (Option.mem_toList.mpr found)
  have others : ∀ c ∈ table.constraints, c.isPrimaryKey = false := wf.placed.constraints
  rw [Dialect.declared, Dialect.lines, List.foldl_append, List.foldl_append, columns_added,
    indexes_added]
  cases dialect with
  | postgres =>
      rw [Dialect.clauses, if_neg (by decide), List.map_append, List.foldl_append,
        key_added _ _ _ _ primary, constraints_added _ _ _ _ others]
      rfl
  | mysql =>
      rw [Dialect.clauses, if_neg (by decide), List.map_append, List.foldl_append,
        key_added _ _ _ _ primary, constraints_added _ _ _ _ others, Dialect.suffixes, options_added]
      rfl
  | spanner =>
      rw [Dialect.clauses, if_pos rfl, List.nil_append table.constraints,
        constraints_added _ _ _ _ others, Dialect.suffixes, List.foldl_cons, List.foldl_nil, Suffix.add,
        Table.primaryKeyColumns]
      unfold Dialect.draft
      cases key : table.primaryKey with
      | none => rfl
      | some k =>
          have some : k.columns ≠ [] := (wf.sound.keys k (by simp [Table.toDraft, key])).1
          rw [if_neg some, Option.toList_some, List.map_singleton,
            spanner_key_back table.name k (primary k key)]
          rfl

/-! ### Additions to declared tables -/

namespace Declaration

def target? : Declaration → Option String
  | table _ => none
  | index name _ | constraint name _ => some name

def change (draft : TableDraft) : Declaration → TableDraft
  | table _ => draft
  | index name i => if draft.name = name then draft.addIndex i else draft
  | constraint name c => if draft.name = name then draft.addConstraint c else draft

end Declaration

theorem change_name (draft : TableDraft) (declaration : Declaration) :
    (declaration.change draft).name = draft.name := by
  cases declaration with
  | table => rfl
  | index name i => simp only [Declaration.change, apply_ite TableDraft.name, TableDraft.addIndex, ite_self]
  | constraint name c =>
      simp only [Declaration.change, apply_ite TableDraft.name, TableDraft.addConstraint, ite_self]

theorem change_other (draft : TableDraft) (declaration : Declaration)
    (other : declaration.target? ≠ some draft.name) : declaration.change draft = draft := by
  have apart (name : String) (named : declaration.target? = some name) : draft.name ≠ name := by
    rintro rfl
    exact other named
  cases declaration with
  | table => rfl
  | index name i => exact if_neg (apart name rfl)
  | constraint name c => exact if_neg (apart name rfl)

theorem changes_name (draft : TableDraft) (declarations : List Declaration) :
    (declarations.foldl Declaration.change draft).name = draft.name := by
  induction declarations generalizing draft with
  | nil => rfl
  | cons declaration declarations ih => exact (ih _).trans (change_name draft declaration)

theorem changes_other (draft : TableDraft) (declarations : List Declaration)
    (others : ∀ d ∈ declarations, d.target? ≠ some draft.name) :
    declarations.foldl Declaration.change draft = draft := by
  induction declarations with
  | nil => rfl
  | cons declaration declarations ih =>
      obtain ⟨first, later⟩ := List.forall_mem_cons.mp others
      rw [List.foldl_cons, change_other draft declaration first]
      exact ih later

def SchemaDraft.names (schema : SchemaDraft) : List String := schema.tables.map TableDraft.name

theorem draft_present (schema : SchemaDraft) (name : String) (member : name ∈ schema.names) :
    (schema.table? name).isSome = true := by
  obtain ⟨d, inside, rfl⟩ := List.mem_map.mp member
  exact List.find?_isSome.mpr ⟨d, inside, decide_eq_true rfl⟩

theorem replace_found (name : String) (change : TableDraft → TableDraft) (tables : List TableDraft)
    (distinct : (tables.map TableDraft.name).Nodup) (table : TableDraft)
    (found : tables.find? (·.name = name) = some table) :
    SchemaDraft.replaceFirst name (change table) tables
      = tables.map fun d => if d.name = name then change d else d := by
  induction tables with
  | nil => cases found
  | cons first tables ih =>
      obtain ⟨fresh, distinct⟩ := List.nodup_cons.mp distinct
      rw [SchemaDraft.replaceFirst, List.map_cons]
      by_cases hit : first.name = name
      · rw [List.find?_cons_of_pos (by simpa using hit)] at found
        cases found
        rw [if_pos hit, if_pos hit, List.map_congr_left (g := id), List.map_id]
        intro d member
        refine if_neg fun same => fresh ?_
        exact List.mem_map.mpr ⟨d, member, same.trans hit.symm⟩
      · rw [List.find?_cons_of_neg (by simpa using hit)] at found
        rw [if_neg hit, if_neg hit, ih distinct found]

theorem update_tables (schema : SchemaDraft) (name : String) (change : TableDraft → TableDraft)
    (distinct : schema.names.Nodup) :
    (schema.update name change).tables
      = schema.tables.map fun d => if d.name = name then change d else d := by
  unfold SchemaDraft.update
  cases found : schema.table? name with
  | none =>
      rw [Option.elim_none, List.map_congr_left (g := id), List.map_id]
      intro d member
      have other := List.find?_eq_none.mp found d member
      exact if_neg fun same => other (decide_eq_true same)
  | some table => exact replace_found name change schema.tables distinct table found

theorem addition_tables (schema : SchemaDraft) (declaration : Declaration)
    (added : declaration.target?.isSome = true) (distinct : schema.names.Nodup) :
    (declaration.add schema).tables = schema.tables.map declaration.change := by
  cases declaration with
  | table => cases added
  | index name i => exact update_tables schema name _ distinct
  | constraint name c => exact update_tables schema name _ distinct

theorem names_kept (schema next : SchemaDraft) (change : TableDraft → TableDraft)
    (kept : ∀ d, (change d).name = d.name) (tables : next.tables = schema.tables.map change) :
    next.names = schema.names := by
  rw [SchemaDraft.names, tables, List.map_map]
  exact List.map_congr_left fun d _ => kept d

theorem additions_declare (schema : SchemaDraft) (additions : List Declaration)
    (there : ∀ d ∈ additions, ∃ name ∈ schema.names, d.target? = some name)
    (distinct : schema.names.Nodup) :
    InOrder schema additions ∧ (additions.foldl Declaration.add schema).tables
      = schema.tables.map fun draft => additions.foldl Declaration.change draft := by
  -- The induction is on the additions: each is one change of every table, for most of them none.
  induction additions generalizing schema with
  | nil => exact ⟨trivial, (List.map_id _).symm⟩
  | cons declaration additions ih =>
      obtain ⟨⟨name, member, named⟩, later⟩ := List.forall_mem_cons.mp there
      have tables := addition_tables schema declaration (by rw [named]; rfl) distinct
      have names := names_kept schema _ declaration.change (fun d => change_name d declaration) tables
      obtain ⟨ordered, final⟩ := ih (declaration.add schema) (names ▸ later) (names ▸ distinct)
      have fits : declaration.Fits schema := by
        cases declaration with
        | table => trivial
        | index n i =>
            cases named
            exact draft_present schema name member
        | constraint n c =>
            cases named
            exact draft_present schema name member
      refine ⟨⟨fits, ordered⟩, ?_⟩
      rw [List.foldl_cons, final, tables, List.map_map]
      rfl

/-! ### What is declared for an operation -/

def Dialect.declarations (dialect : Dialect) : Operation → List Declaration
  | .createTable t =>
    .table (dialect.draft t) :: (t.indexes.filter (!dialect.isInline ·)).map (.index t.name)
  | .addConstraint name c => [.constraint name (dialect.readBack name c)]
  | _ => []

def Dialect.created (dialect : Dialect) (t : Table) : TableDraft :=
  { dialect.draft t with
    indexes := t.indexes.filter dialect.isInline ++ t.indexes.filter (!dialect.isInline ·) }

theorem in_order_append (schema : SchemaDraft) (front back : List Declaration) :
    InOrder schema (front ++ back)
      ↔ InOrder schema front ∧ InOrder (front.foldl Declaration.add schema) back := by
  induction front generalizing schema with
  | nil => exact (iff_of_eq (true_and _)).symm
  | cons declaration front ih =>
      rw [List.cons_append, InOrder, InOrder, ih, List.foldl_cons, and_assoc]

theorem own_indexes (draft : TableDraft) (indexes : List Index) :
    (indexes.map (.index draft.name)).foldl Declaration.change draft
      = { draft with indexes := draft.indexes ++ indexes } := by
  induction indexes generalizing draft with
  | nil => simp
  | cons i indexes ih =>
      have first : Declaration.change draft (.index draft.name i) = draft.addIndex i := if_pos rfl
      rw [List.map_cons, List.foldl_cons, first]
      simpa [TableDraft.addIndex] using ih (draft.addIndex i)

theorem own_constraints (dialect : Dialect) (draft : TableDraft) (constraints : List Constraint)
    (others : ∀ c ∈ constraints, c.isPrimaryKey = false) :
    (constraints.map fun c => Declaration.constraint draft.name (dialect.readBack draft.name c)).foldl
        Declaration.change draft
      = { draft with
          constraints := draft.constraints ++ constraints.map (dialect.readBack draft.name) } := by
  induction constraints generalizing draft with
  | nil => simp
  | cons c constraints ih =>
      obtain ⟨plain, later⟩ := List.forall_mem_cons.mp others
      have first : Declaration.change draft (.constraint draft.name (dialect.readBack draft.name c))
          = { draft with constraints := draft.constraints ++ [dialect.readBack draft.name c] } :=
        (if_pos rfl).trans (constraint_added dialect draft.name draft c plain)
      rw [List.map_cons, List.foldl_cons, first]
      simpa using ih { draft with
        constraints := draft.constraints ++ [dialect.readBack draft.name c] } later

theorem table_created (dialect : Dialect) (t : Table) (schema : SchemaDraft)
    (distinct : (schema.names ++ [t.name]).Nodup) :
    InOrder schema (dialect.declarations (.createTable t)) ∧
      ((dialect.declarations (.createTable t)).foldl Declaration.add schema).tables
        = schema.tables ++ [dialect.created t] := by
  have names : (schema.addTable (dialect.draft t)).names = schema.names ++ [t.name] := by
    simp [SchemaDraft.names, SchemaDraft.addTable, Dialect.draft]
  obtain ⟨ordered, tables⟩ := additions_declare (schema.addTable (dialect.draft t))
    ((t.indexes.filter (!dialect.isInline ·)).map (.index t.name))
    (List.forall_mem_map.mpr fun i _ => ⟨t.name, by simp [names], rfl⟩) (names ▸ distinct)
  refine ⟨⟨trivial, ordered⟩, ?_⟩
  refine tables.trans ?_
  have old : schema.tables.map (fun d => ((t.indexes.filter (!dialect.isInline ·)).map
      (.index t.name)).foldl Declaration.change d) = schema.tables := by
    rw [List.map_congr_left (g := id), List.map_id]
    intro d member
    refine changes_other d _ (List.forall_mem_map.mpr fun i _ same => ?_)
    have apart := (List.nodup_append.mp distinct).2.2 d.name (List.mem_map_of_mem member) t.name
      (List.mem_singleton_self _)
    exact apart (Option.some.inj same).symm
  rw [SchemaDraft.addTable, List.map_append, old, List.map_singleton]
  congr 2
  exact own_indexes (dialect.draft t) _

theorem tables_created (dialect : Dialect) (tables : List Table) (schema : SchemaDraft)
    (distinct : (schema.names ++ tables.map Table.name).Nodup) :
    InOrder schema ((tables.map Operation.createTable).flatMap dialect.declarations) ∧
      (((tables.map Operation.createTable).flatMap dialect.declarations).foldl Declaration.add
        schema).tables = schema.tables ++ tables.map dialect.created := by
  induction tables generalizing schema with
  | nil => exact ⟨trivial, (List.append_nil _).symm⟩
  | cons t tables ih =>
      rw [List.map_cons, ← List.singleton_append, ← List.append_assoc] at distinct
      obtain ⟨first, one⟩ := table_created dialect t schema (List.nodup_append.mp distinct).1
      have names : ((dialect.declarations (.createTable t)).foldl Declaration.add schema).names
          = schema.names ++ [t.name] := by
        rw [SchemaDraft.names, one, List.map_append]
        rfl
      obtain ⟨ordered, all⟩ := ih _ (names ▸ distinct)
      rw [List.map_cons, List.flatMap_cons, in_order_append, List.foldl_append]
      refine ⟨⟨first, ordered⟩, all.trans ?_⟩
      rw [one, List.append_assoc]
      rfl

/-! ### The whole creation -/

theorem declared_targets (dialect : Dialect) (op : Operation) :
    ∀ d ∈ dialect.declarations op, d.target? = none ∨ d.target? = some op.table := by
  intro d member
  cases op with
  | createTable t =>
      rcases List.mem_cons.mp member with rfl | index
      · exact .inl rfl
      · obtain ⟨i, _, rfl⟩ := List.mem_map.mp index
        exact .inr rfl
  | addConstraint name c => exact .inr (List.mem_singleton.mp member ▸ rfl)
  | _ => cases member

theorem changes_of_table (dialect : Dialect) (ops : List Operation) (draft : TableDraft) :
    (ops.flatMap dialect.declarations).foldl Declaration.change draft
      = ((ops.filter (·.table = draft.name)).flatMap dialect.declarations).foldl Declaration.change
          draft := by
  induction ops generalizing draft with
  | nil => rfl
  | cons op ops ih =>
      rw [List.flatMap_cons, List.foldl_append]
      by_cases own : op.table = draft.name
      · rw [List.filter_cons_of_pos (by simpa using own), List.flatMap_cons, List.foldl_append, ih,
          changes_name]
      · rw [List.filter_cons_of_neg (by simpa using own), changes_other draft, ih]
        intro d member same
        rcases declared_targets dialect op d member with none | some
        · rw [none] at same
          cases same
        · rw [some] at same
          exact own (Option.some.inj same)

open CreationOrder in
def Dialect.final (dialect : Dialect) (turn : Table × (String → Bool)) : TableDraft :=
  { dialect.created (Diff.placed turn) with
    constraints := (dialect.created (Diff.placed turn)).constraints
      ++ (blocking turn.2 turn.1).map (dialect.readBack turn.1.name) }

theorem deferred_declares (dialect : Dialect) (turn : Table × (String → Bool)) :
    ((Diff.deferred turn.2 turn.1).flatMap dialect.declarations).foldl Declaration.change
      (dialect.created (Diff.placed turn)) = dialect.final turn := by
  have declarations : (Diff.deferred turn.2 turn.1).flatMap dialect.declarations
      = (CreationOrder.blocking turn.2 turn.1).map fun c =>
          Declaration.constraint turn.1.name (dialect.readBack turn.1.name c) := by
    rw [Diff.deferred, List.flatMap_map]
    exact List.flatMap_pure_eq_map ..
  have others : ∀ c ∈ CreationOrder.blocking turn.2 turn.1, c.isPrimaryKey = false := by
    intro c member
    have foreign := (foreign_key_filtered _ _ c member).2
    cases kind : c.kind <;> simp_all [Constraint.isForeignKey, Constraint.reference?,
      Constraint.isPrimaryKey]
  rw [declarations]
  exact own_constraints dialect (dialect.created (Diff.placed turn)) _ others

theorem creation_declares (dialect : Dialect) (schema : Schema) (distinct : schema.tableNames.Nodup) :
    InOrder {} (schema.creation.flatMap dialect.declarations) ∧
      ((schema.creation.flatMap dialect.declarations).foldl Declaration.add {}).tables
        = (Schema.turnsFrom [] schema.tables).map dialect.final := by
  rw [Schema.creation, creations_from_turns, List.flatMap_append, in_order_append, List.foldl_append]
  have source := turns_from_tables [] schema.tables
  generalize Schema.turnsFrom [] schema.tables = turns at source
  have names : (turns.map Diff.placed).map Table.name = schema.tableNames := by
    rw [Schema.tableNames, ← source, List.map_map, List.map_map]
    rfl
  obtain ⟨first, created⟩ := tables_created dialect (turns.map Diff.placed) {} (names ▸ distinct)
  generalize ((turns.map Diff.placed).map Operation.createTable).flatMap dialect.declarations = ds
    at first created
  have all : (ds.foldl Declaration.add {}).names = turns.map fun turn => turn.1.name := by
    rw [SchemaDraft.names, created, List.map_append, List.map_map, List.map_map]
    rfl
  have apart : (turns.map fun turn => turn.1.name).Nodup := by
    rw [List.map_map] at names
    exact names ▸ distinct
  obtain ⟨ordered, final⟩ := additions_declare (ds.foldl Declaration.add {})
    ((turns.flatMap fun turn => Diff.deferred turn.2 turn.1).flatMap dialect.declarations) (by
      intro d member
      obtain ⟨op, listed, inside⟩ := List.mem_flatMap.mp member
      obtain ⟨turn, among, own⟩ := List.mem_flatMap.mp listed
      obtain ⟨c, _, rfl⟩ := List.mem_map.mp own
      exact ⟨turn.1.name, all ▸ List.mem_map.mpr ⟨turn, among, rfl⟩, List.mem_singleton.mp inside ▸ rfl⟩)
    (all ▸ apart)
  refine ⟨⟨first, ordered⟩, final.trans ?_⟩
  rw [created]
  show ((turns.map Diff.placed).map dialect.created).map _ = _
  rw [List.map_map, List.map_map]
  refine List.map_congr_left fun turn member => ?_
  have own := deferred_on turns apart turn member
  exact (changes_of_table dialect _ _).trans
    ((congrArg (fun ops => (ops.flatMap dialect.declarations).foldl Declaration.change
      (dialect.created (Diff.placed turn))) own).trans (deferred_declares dialect turn))

end SchemaDrift
