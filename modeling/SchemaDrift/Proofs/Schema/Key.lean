import SchemaDrift.Proofs.Schema.Apply
/-!
What a table has for keys. The question is answered by comparing sets of columns, so the order of the
columns makes no difference, and neither does how often one is listed: a foreign key is accepted that
points at the column of a key twice.
-/

set_option autoImplicit false

namespace SchemaDrift

def TableDraft.keys (draft : TableDraft) : List (List String) :=
  draft.primaryKeys.map Constraint.columns
    ++ (draft.constraints.filter (·.kind = .unique)).map Constraint.columns
    ++ (draft.indexes.filter Index.unique).map Index.columnNames

def Table.IsKey (table : Table) (columns : List String) : Prop :=
  ∃ key ∈ table.keys, columns.Perm key

instance (table : Table) (columns : List String) : Decidable (table.IsKey columns) :=
  inferInstanceAs (Decidable (∃ key ∈ table.keys, columns.Perm key))

/-! ### Keys of a table and of its draft -/

theorem mem_keys (draft : TableDraft) (columns : List String) :
    columns ∈ draft.keys ↔ (∃ c ∈ draft.primaryKeys, c.columns = columns) ∨
      (∃ c ∈ draft.constraints, c.kind = .unique ∧ c.columns = columns) ∨
      ∃ i ∈ draft.indexes, i.unique = true ∧ i.columnNames = columns := by
  simp only [TableDraft.keys, List.mem_append, List.mem_map, List.mem_filter, decide_eq_true_eq,
    or_assoc, and_assoc]

theorem built_keys (draft : TableDraft) (position : Nat) (sound : draft.Sound) :
    (draft.toTable position).keys = draft.keys := by
  unfold Table.keys TableDraft.keys
  rw [← single_key draft.primaryKeys sound.singleKey]
  rfl

theorem key_lists (draft : TableDraft) (sound : draft.Sound) (columns : List String)
    (key : columns ∈ draft.keys) : Lists draft.columnNames columns := by
  rcases (mem_keys draft columns).mp key with
    ⟨c, member, rfl⟩ | ⟨c, member, unique, rfl⟩ | ⟨i, member, _, rfl⟩
  · exact sound.keys c member
  · have other : c.isCheck = false := by simp [Constraint.isCheck, unique]
    exact (sound.constraints c member).columns.resolve_left fun empty => by simp [other] at empty
  · exact sound.indexes i member

/-! ### Lists as sets -/

theorem same_members_iff {α : Type} [DecidableEq α] (k l : List α) :
    sameMembers k l = true ↔ ∀ a, a ∈ k ↔ a ∈ l := by
  simp only [sameMembers, Bool.and_eq_true, List.all_eq_true, decide_eq_true_eq]
  exact ⟨fun both a => ⟨both.1 a, both.2 a⟩, fun same => ⟨fun a => (same a).mp, fun a => (same a).mpr⟩⟩

theorem same_members_dedup {α : Type} [DecidableEq α] (k l : List α) (distinct : k.Nodup) :
    sameMembers k l = true ↔ l.dedup.Perm k := by
  rw [same_members_iff, List.perm_ext_iff_of_nodup (List.nodup_dedup l) distinct]
  simp only [List.mem_dedup]
  exact forall_congr' fun _ => iff_comm

section Built

variable (draft : TableDraft) (position : Nat) (sound : draft.Sound)

include sound

theorem built_key_distinct (key : List String) (member : key ∈ (draft.toTable position).keys) :
    key.Nodup := by
  rw [built_keys draft position sound] at member
  exact (key_lists draft sound key member).2.1

theorem has_key_dedup (columns : List String) :
    (draft.toTable position).hasKey columns = true ↔ (draft.toTable position).IsKey columns.dedup := by
  rw [Table.hasKey, List.any_eq_true]
  exact exists_congr fun key => and_congr_right fun member =>
    same_members_dedup key columns (built_key_distinct draft position sound key member)

theorem is_key_iff (columns : List String) : (draft.toTable position).IsKey columns ↔
    (draft.toTable position).hasKey columns = true ∧ columns.Nodup := by
  rw [has_key_dedup draft position sound columns]
  constructor
  · rintro ⟨key, member, perm⟩
    have distinct := perm.nodup_iff.mpr (built_key_distinct draft position sound key member)
    exact ⟨⟨key, member, by rwa [distinct.dedup]⟩, distinct⟩
  · rintro ⟨key, distinct⟩
    rwa [distinct.dedup] at key

end Built

/-! ### Foreign keys that are accepted -/

theorem introduced_points_at_key (rules : ApplyRules) (schema next : Schema) (op : Operation)
    (applied : schema.applyOne rules op = .ok next) (r : Reference) (introduced : r ∈ op.newReferences) :
    ∃ target, next.table? r.table = some target ∧ target.IsKey r.columns.dedup ∧
      (target.IsKey r.columns ↔ r.columns.Nodup) := by
  obtain ⟨draft, _, built, keyed⟩ := apply_one_redrafts rules schema next op applied
  have points := keyed r introduced
  rw [Schema.isKeyed, Option.any_eq_true] at points
  obtain ⟨target, there, key⟩ := points
  obtain ⟨d, _, sound, n, rfl⟩ := built_lookup draft next built r.table target there
  refine ⟨_, there, (has_key_dedup d n sound r.columns).mp key, ?_⟩
  rw [is_key_iff d n sound r.columns]
  exact and_iff_right key

-- A foreign key that is accepted points at a key unless it names a column of its target twice.
theorem has_key_ignores_repeats (draft : TableDraft) (position : Nat) (table : Table)
    (built : draft.build position = .ok table) (columns : List String) :
    (table.hasKey columns = true ↔ table.IsKey columns.dedup) ∧
      (table.IsKey columns ↔ table.hasKey columns = true ∧ columns.Nodup) ∧
      ∀ (rules : ApplyRules) (schema result : Schema) (front back : List Operation) (op : Operation),
        schema.apply rules (front ++ op :: back) = .ok result →
        ∃ next, schema.apply rules (front ++ [op]) = .ok next ∧ ∀ r ∈ op.newReferences,
          ∃ target, next.table? r.table = some target ∧ target.IsKey r.columns.dedup ∧
            (target.IsKey r.columns ↔ r.columns.Nodup) := by
  obtain ⟨sound, rfl⟩ := (table_build_ok draft position table).mp built
  refine ⟨has_key_dedup draft position sound columns, is_key_iff draft position sound columns, ?_⟩
  intro rules schema result front back op applied
  obtain ⟨between, begun, rest⟩ := (apply_append_ok _ _ _ _ _).mp applied
  obtain ⟨next, step, _⟩ := (apply_cons_ok _ _ _ _ _).mp rest
  exact ⟨next, (apply_append_ok _ _ _ _ _).mpr ⟨between, begun, (apply_single_ok _ _ _ _).mpr step⟩,
    introduced_points_at_key rules between next op step⟩

namespace Depot

def number (name : String) : Column := { name, type := { base := .bigInt } }

def stop : TableDraft where
  name := "stop"
  columns := [number "id", number "line", number "place"]
  primaryKeys := [.primaryKey ["id"]]
  constraints := [.unique ["line", "place"]]
  ordinal := some 0

def route (keys : List Constraint) : Table where
  name := "route"
  columns := [number "start", number "finish"]
  constraints := keys
  ordinal := 1

def schema (keys : List Constraint) : Schema := { tables := [stop.toTable 0, route keys] }

def key (columns : List String) : Constraint :=
  .foreignKey ["start", "finish"] { table := "stop", columns }

def addition (columns : List String) : Operation := .addConstraint "route" (key columns)

end Depot

theorem depot_reads_keys_in_any_order :
    Depot.stop.build 0 = .ok (Depot.stop.toTable 0) ∧
      (Depot.stop.toTable 0).hasKey ["place", "line"] = true ∧
      (Depot.stop.toTable 0).IsKey ["place", "line"] ∧
      (Depot.schema []).apply {} ([] ++ [Depot.addition ["place", "line"]])
        = .ok (Depot.schema [Depot.key ["place", "line"]]) ∧
      ∃ next, (Depot.schema []).apply {} ([] ++ [Depot.addition ["place", "line"]]) = .ok next ∧
        ∀ r ∈ (Depot.addition ["place", "line"]).newReferences,
          ∃ target, next.table? r.table = some target ∧ target.IsKey r.columns.dedup ∧
            (target.IsKey r.columns ↔ r.columns.Nodup) := by
  have isKey : (Depot.stop.toTable 0).IsKey ["place", "line"] := by decide
  obtain ⟨_, keys, accepted⟩ :=
    has_key_ignores_repeats Depot.stop 0 (Depot.stop.toTable 0) rfl ["place", "line"]
  exact ⟨rfl, (keys.mp isKey).1, isKey, rfl, accepted {} (Depot.schema [])
    (Depot.schema [Depot.key ["place", "line"]]) [] [] (Depot.addition ["place", "line"]) rfl⟩

theorem repeated_column_passes_for_key :
    Depot.stop.build 0 = .ok (Depot.stop.toTable 0) ∧
      (Depot.stop.toTable 0).hasKey ["id", "id"] = true ∧ ¬(Depot.stop.toTable 0).IsKey ["id", "id"] ∧
      (Depot.schema []).Validated ∧
      (Depot.schema []).apply {} [Depot.addition ["id", "id"]]
        = .ok (Depot.schema [Depot.key ["id", "id"]]) :=
  ⟨rfl, by decide, by decide, ⟨(Depot.schema []).toDraft, by decide, rfl⟩, rfl⟩

end SchemaDrift
