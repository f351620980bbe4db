import SchemaDrift.Proofs.Schema.Apply
/-!
An operation touches only its own table. Each step reopens all tables, sorts them and builds them
again, and still all others come out as they were and in their order, also where ordinals repeat or
leave gaps.
-/

set_option autoImplicit false

namespace SchemaDrift

-- What an operation does to the list of tables. It touches one place, that of its own table.
inductive Schema.Touches (schema : Schema) (op : Operation) (next : Schema) : Prop
  | appends (created : Table) (creates : op.kind = .createTable) (named : created.name = op.table)
      (fresh : op.table ∉ schema.tableNames) (result : next.tables = schema.tables ++ [created])
  | takesOut (front back : List Table) (t : Table) (drops : op.kind = .dropTable)
      (named : t.name = op.table) (others : ∀ s ∈ front ++ back, s.name ≠ op.table)
      (whole : schema.tables = front ++ t :: back) (result : next.tables = front ++ back)
  | replaces (front back : List Table) (t u : Table) (inPlace : op.inPlace = true)
      (named : t.name = op.table) (same : u.name = op.table)
      (others : ∀ s ∈ front ++ back, s.name ≠ op.table)
      (whole : schema.tables = front ++ t :: back) (result : next.tables = front ++ u :: back)

/-! ### The place of a table -/

theorem table_placed (schema : Schema) (distinct : schema.tableNames.Nodup) (name : String) (t : Table)
    (found : schema.table? name = some t) :
    ∃ front back, schema.tables = front ++ t :: back ∧ ∀ s ∈ front ++ back, s.name ≠ name := by
  obtain ⟨member, named⟩ := table_found schema name t found
  obtain ⟨front, back, whole⟩ := List.append_of_mem member
  refine ⟨front, back, whole, fun s other same => ?_⟩
  have moved : schema.tableNames.Perm ((t :: (front ++ back)).map Table.name) := by
    rw [Schema.tableNames, whole]
    exact List.perm_middle.map Table.name
  have fresh := (List.nodup_cons.mp (moved.nodup_iff.mp distinct)).1
  exact fresh (List.mem_map.mpr ⟨s, other, same.trans named.symm⟩)

section Placed

variable (schema : Schema) (front back : List Table) (t : Table) (name : String)
  (whole : schema.tables = front ++ t :: back) (named : t.name = name)
  (others : ∀ s ∈ front ++ back, s.name ≠ name)

include whole named others

theorem with_table_placed (u : Table) (same : u.name = name) :
    (schema.withTable u).tables = front ++ u :: back := by
  have kept (l : List Table) (sub : l ⊆ front ++ back) :
      l.map (fun s => if s.name = u.name then u else s) = l := by
    refine (List.map_congr_left fun s member => ?_).trans (List.map_id l)
    rw [same, if_neg (others s (sub member))]
    rfl
  rw [Schema.withTable, whole, List.map_append, List.map_cons, if_pos (named.trans same.symm),
    kept front (List.subset_append_left front back), kept back (List.subset_append_right front back)]

theorem without_table_placed : (schema.withoutTable name).tables = front ++ back := by
  have kept (l : List Table) (sub : l ⊆ front ++ back) : l.filter (·.name ≠ name) = l :=
    List.filter_eq_self.mpr fun s member => by simpa using others s (sub member)
  rw [Schema.withoutTable, whole, List.filter_append, List.filter_cons_of_neg (by simpa using named),
    kept front (List.subset_append_left front back), kept back (List.subset_append_right front back)]

end Placed

/-! ### One operation -/

section Step

variable (rules : ApplyRules) (schema next : Schema) (wf : schema.WellFormed)

include wf

-- Whatever table is to be created, it gets an ordinal after all others, so sorting leaves it last.
theorem create_appends (t : Table) (applied : schema.applyOne rules (.createTable t) = .ok next) :
    t.name ∉ schema.tableNames ∧
      ∃ created, created.name = t.name ∧ next.tables = schema.tables ++ [created] := by
  obtain ⟨made, reached, rest⟩ := (bind_ok _ _ _).mp applied
  obtain ⟨_, _, same⟩ := (bind_ok _ _ _).mp rest
  cases same
  unfold Schema.applyCreate at reached
  dsimp only at reached
  split at reached
  · cases reached
  · obtain ⟨_, distinct, rfl, _⟩ := (schema_build_ok _ next).mp reached
    rw [SchemaDraft.addTable, List.map_append, draft_names] at distinct
    have fresh : t.name ∉ schema.tableNames := fun taken =>
      (List.nodup_append.mp distinct).2.2 t.name taken t.name (by simp [Table.toDraft]) rfl
    exact ⟨fresh, { t.toDraft.toTable 0 with ordinal := schema.toDraft.nextOrdinal }, rfl,
      added_tables schema t wf⟩

theorem other_step (op : Operation) (other : ¬∃ t, op = .createTable t)
    (applied : schema.applyOne rules op = .ok next) : schema.Step rules op next := by
  have payload : op.WellFormed := by
    cases op with
    | createTable t => exact absurd ⟨t, rfl⟩ other
    | _ => trivial
  exact ((apply_one_iff rules schema next op wf payload).mp applied).1

theorem apply_one_touches (op : Operation) (applied : schema.applyOne rules op = .ok next) :
    schema.Touches op next := by
  by_cases creates : ∃ t, op = .createTable t
  · obtain ⟨t, rfl⟩ := creates
    obtain ⟨fresh, created, named, result⟩ := create_appends rules schema next wf t applied
    exact .appends created rfl named fresh result
  · cases other_step rules schema next wf op creates applied with
    | create t => exact absurd ⟨t, rfl⟩ creates
    | drop name t found _ =>
        obtain ⟨front, back, whole, others⟩ := table_placed schema wf.distinct name t found
        have named := (table_found schema name t found).2
        exact .takesOut front back t rfl named others whole
          (without_table_placed schema front back t name whole named others)
    | change _ t u inPlace found becomes =>
        obtain ⟨front, back, whole, others⟩ := table_placed schema wf.distinct op.table t found
        have named := (table_found schema op.table t found).2
        have same := becomes_named schema t u op wf found becomes
        exact .replaces front back t u inPlace named same others whole
          (with_table_placed schema front back t op.table whole named others u same)

end Step

theorem touches_leaves_others (schema next : Schema) (op : Operation) (touches : schema.Touches op next)
    (keep : Table → Bool) (own : ∀ t, t.name = op.table → keep t = false) :
    next.tables.filter keep = schema.tables.filter keep := by
  cases touches with
  | appends created _ named _ result => simp [result, own created named]
  | takesOut front back t _ named _ whole result => simp [whole, result, own t named]
  | replaces front back t u _ named same _ whole result =>
      simp [whole, result, own t named, own u same]

theorem run_leaves_others (rules : ApplyRules) (schema result : Schema) (ops : List Operation)
    (wf : schema.WellFormed) (payload : ∀ op ∈ ops, op.WellFormed)
    (applied : schema.apply rules ops = .ok result) :
    result.tables.filter (·.name ∉ ops.map Operation.table)
      = schema.tables.filter (·.name ∉ ops.map Operation.table) := by
  let keep (t : Table) : Bool := t.name ∉ ops.map Operation.table
  have own (op : Operation) (member : op ∈ ops) (t : Table) (named : t.name = op.table) :
      keep t = false := by simpa [keep, named] using ⟨op, member, rfl⟩
  refine (run_keeps rules
    (fun s => s.WellFormed ∧ s.tables.filter keep = schema.tables.filter keep) ops ?_ schema result
    ⟨wf, rfl⟩ applied).2
  rintro op member before next ⟨beforeWf, same⟩ first
  have touches := apply_one_touches rules before next beforeWf op first
  exact ⟨apply_one_well_formed rules before next op beforeWf (payload op member) first,
    (touches_leaves_others before next op touches keep (own op member)).trans same⟩

-- All tables but the one that is named stay as they are, on the same side of its place. A new table
-- has its place after all others.
theorem operation_touches_own_table (rules : ApplyRules) (schema next : Schema) (op : Operation)
    (valid : schema.Validated) (applied : schema.apply rules [op] = .ok next) :
    ∃ (front back : List Table) (before after : Option Table),
      schema.tables = front ++ before.toList ++ back ∧ next.tables = front ++ after.toList ++ back ∧
      (∀ t ∈ front ++ back, t.name ≠ op.table) ∧
      (∀ t ∈ before.toList ++ after.toList, t.name = op.table) ∧
      (before.isSome = true ↔ op.kind ≠ .createTable) ∧
      (after.isSome = true ↔ op.kind ≠ .dropTable) ∧ (op.kind = .createTable → back = []) := by
  have wf := (validated_iff_well_formed schema).mp valid
  rw [apply_single_ok] at applied
  cases apply_one_touches rules schema next wf op applied with
  | appends created creates named fresh result =>
      refine ⟨schema.tables, [], none, some created, by simp, by simp [result], ?_, by simp [named],
        by simp [creates], by simp [creates], fun _ => rfl⟩
      intro t member same
      rw [List.append_nil] at member
      exact fresh (List.mem_map.mpr ⟨t, member, same⟩)
  | takesOut front back t drops named others whole result =>
      exact ⟨front, back, some t, none, by simp [whole], by simp [result], others, by simp [named],
        by simp [drops], by simp [drops], by simp [drops]⟩
  | replaces front back t u inPlace named same others whole result =>
      have kind : op.kind ≠ .createTable ∧ op.kind ≠ .dropTable := by
        cases op with
        | createTable | dropTable => cases inPlace
        | _ => simp [Operation.kind]
      exact ⟨front, back, some t, some u, by simp [whole], by simp [result], others,
        by simp [named, same], by simp [kind.1], by simp [kind.2], fun creates => absurd creates kind.1⟩

-- Shelves whose ordinals repeat and leave gaps, and a table that comes with the first ordinal.
namespace Archive

def table (name : String) (ordinal : Nat) : Table where
  name := name
  columns := [{ name := "id", type := { base := .bigInt }, nullable := true }]
  ordinal := ordinal

def schema : Schema := { tables := [table "map" 3, table "book" 3, table "reel" 7] }

def creation : Operation := .createTable (table "disc" 0)

def after : Schema :=
  { tables := [table "map" 3, table "book" 3, table "reel" 7, table "disc" 8] }

end Archive

theorem archive_grows_at_end : Archive.schema.Validated ∧
    Archive.schema.apply {} [Archive.creation] = .ok Archive.after ∧
    ∃ (front back : List Table) (before created : Option Table),
      Archive.schema.tables = front ++ before.toList ++ back ∧
      Archive.after.tables = front ++ created.toList ++ back ∧
      (∀ t ∈ front ++ back, t.name ≠ "disc") ∧
      (∀ t ∈ before.toList ++ created.toList, t.name = "disc") ∧
      (before.isSome = true ↔ Archive.creation.kind ≠ .createTable) ∧
      (created.isSome = true ↔ Archive.creation.kind ≠ .dropTable) ∧
      (Archive.creation.kind = .createTable → back = []) := by
  have valid : Archive.schema.Validated := ⟨Archive.schema.toDraft, by decide, rfl⟩
  exact ⟨valid, rfl,
    operation_touches_own_table {} Archive.schema Archive.after Archive.creation valid rfl⟩

end SchemaDrift
