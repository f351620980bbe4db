import SchemaDrift.Proofs.Schema.Acceptance
import SchemaDrift.Proofs.Schema.Key
/-!
What operations do to the keys of their table. Each gives some and takes some, and the keys before
and after balance, unless the whole table is dropped.
-/

set_option autoImplicit false

namespace SchemaDrift

def Constraint.keys (c : Constraint) : List (List String) :=
  if c.kind = .primaryKey ∨ c.kind = .unique then [c.columns] else []

def Schema.keysOf (schema : Schema) (name : String) : List (List String) :=
  ((schema.table? name).map Table.keys).getD []

def Operation.givenKeys : Operation → List (List String)
  | createTable table => table.keys
  | addConstraint _ c => c.keys
  | addIndex _ index => if index.unique then [index.columnNames] else []
  | _ => []

-- An index is dropped by its name.
def Table.takenKeys (table : Table) : Operation → List (List String)
  | .dropConstraint _ c => c.keys
  | .dropIndex _ index =>
    ((table.indexes.filter (·.name = index.name)).filter Index.unique).map Index.columnNames
  | _ => []

def Schema.takenKeys (schema : Schema) (op : Operation) : List (List String) :=
  ((schema.table? op.table).map (·.takenKeys op)).getD []

theorem keyed_iff (schema : Schema) (r : Reference) : schema.isKeyed r = true ↔
    ∃ key ∈ schema.keysOf r.table, sameMembers key r.columns = true := by
  unfold Schema.isKeyed Schema.keysOf
  cases schema.table? r.table with
  | none => simp
  | some t => simp [Table.hasKey]

/-! ### One table -/

theorem alike_keys (a c : Constraint) (same : a.structurallyEq c = true) :
    (a.kind = .primaryKey ↔ c.kind = .primaryKey) ∧ (a.kind = .unique ↔ c.kind = .unique) ∧
      (c.kind = .primaryKey ∨ c.kind = .unique → a.columns = c.columns) := by
  unfold Constraint.structurallyEq at same
  cases first : a.kind <;> cases second : c.kind <;> simp_all

theorem named_keys (indexes : List Index) (name : String) (key : List String) :
    ((indexes.filter Index.unique).map Index.columnNames).count key =
      (((indexes.filter (·.name = name)).filter Index.unique).map Index.columnNames).count key +
      (((indexes.filter (·.name ≠ name)).filter Index.unique).map Index.columnNames).count key := by
  have parts := List.filter_append_perm (fun i : Index => decide (i.name = name)) indexes
  rw [← (((parts.filter Index.unique).map Index.columnNames).count_eq key)]
  simp

theorem changed_keys (t : Table) (op : Operation) (next : TableDraft) (inPlace : op.inPlace = true)
    (changed : t.toDraft.Changed op next) :
    (t.takenKeys op ++ next.keys).Perm (t.keys ++ op.givenKeys) := by
  have before : t.keys = t.toDraft.keys := rfl
  rw [before, List.perm_iff_count]
  intro key
  cases changed with
  | untouched _ whole => simp [inPlace] at whole
  | addColumn | dropColumn | alterColumn =>
      simp [Table.takenKeys, Operation.givenKeys, TableDraft.keys]
  | addKey table c primary =>
      have kind : c.kind = .primaryKey := of_decide_eq_true primary
      simp only [Table.takenKeys, Operation.givenKeys, TableDraft.keys, Constraint.keys, kind,
        List.count_append, List.map_append, List.map_cons, List.map_nil, List.nil_append, true_or,
        if_true]
      omega
  | addConstraint table c other =>
      have kind : c.kind ≠ .primaryKey := of_decide_eq_false other
      by_cases unique : c.kind = .unique
      · simp only [Table.takenKeys, Operation.givenKeys, TableDraft.keys, Constraint.keys, unique,
          List.count_append, List.map_append, List.map_cons, List.map_nil, List.nil_append, or_true,
          if_true, List.filter_append, List.filter_cons, List.filter_nil, decide_true]
        omega
      · simp [Table.takenKeys, Operation.givenKeys, TableDraft.keys, Constraint.keys, unique, kind]
  | addIndex table index =>
      cases unique : index.unique with
      | true =>
          simp only [Table.takenKeys, Operation.givenKeys, TableDraft.keys, unique,
            List.count_append, List.map_append, List.map_cons, List.map_nil, List.nil_append,
            if_true, List.filter_append, List.filter_cons, List.filter_nil]
          omega
      | false => simp [Table.takenKeys, Operation.givenKeys, TableDraft.keys, unique]
  | dropKey table c rest primary erased =>
      obtain ⟨front, a, back, whole, remaining, picked, _⟩ := erase_first_some _ _ _ erased
      obtain ⟨_, _, columns⟩ := alike_keys a c picked
      have kind : c.kind = .primaryKey := of_decide_eq_true primary
      simp only [Table.takenKeys, Operation.givenKeys, TableDraft.keys, Constraint.keys, kind, whole,
        remaining, columns (.inl kind), List.count_append, List.map_append, List.map_cons,
        List.count_cons, List.count_nil, List.append_nil, true_or, if_true]
      omega
  | dropConstraint table c rest other erased =>
      obtain ⟨front, a, back, whole, remaining, picked, _⟩ := erase_first_some _ _ _ erased
      obtain ⟨_, same, columns⟩ := alike_keys a c picked
      have kind : c.kind ≠ .primaryKey := of_decide_eq_false other
      by_cases unique : c.kind = .unique
      · simp only [Table.takenKeys, Operation.givenKeys, TableDraft.keys, Constraint.keys, unique,
          whole, remaining, columns (.inr unique), same.mpr unique, List.count_append,
          List.map_append, List.map_cons, List.count_cons, List.count_nil, List.append_nil, or_true,
          if_true, List.filter_append, List.filter_cons, decide_true]
        omega
      · simp [Table.takenKeys, Operation.givenKeys, TableDraft.keys, Constraint.keys, unique, kind,
          whole, remaining, same]
  | dropIndex table index present =>
      have parts := named_keys t.toDraft.indexes index.name key
      simp only [Table.takenKeys, Operation.givenKeys, TableDraft.keys, List.count_append,
        List.append_nil] at parts ⊢
      have own : t.toDraft.indexes = t.indexes := rfl
      rw [own] at parts ⊢
      omega

/-! ### One operation -/

theorem built_keys_of (draft : SchemaDraft) (schema : Schema) (built : draft.build = .ok schema)
    (name : String) : schema.keysOf name = ((draft.table? name).map TableDraft.keys).getD [] := by
  unfold Schema.keysOf
  cases found : schema.table? name with
  | some t =>
      obtain ⟨d, drafted, sound, n, rfl⟩ := built_lookup draft schema built name t found
      rw [drafted, Option.map_some, Option.map_some, Option.getD_some, Option.getD_some]
      exact built_keys d n sound
  | none =>
      obtain ⟨_, _, rfl, _⟩ := (schema_build_ok draft schema).mp built
      have absent : name ∉ draft.tables.map TableDraft.name := by
        rw [← (sorted_names draft.tables).mem_iff]
        exact (table_none_iff _ name).mp found
      have missing : draft.table? name = none := by
        rw [SchemaDraft.table?, List.find?_eq_none]
        exact fun d member same => absent (List.mem_map.mpr ⟨d, member, of_decide_eq_true same⟩)
      rw [missing]
      rfl

theorem draft_keys_of (schema : Schema) (name : String) :
    ((schema.toDraft.table? name).map TableDraft.keys).getD [] = schema.keysOf name := by
  rw [draft_lookup, Option.map_map]
  rfl

section Step

variable (rules : ApplyRules) (schema next : Schema) (op : Operation)
  (applied : schema.applyOne rules op = .ok next)

include applied

theorem keys_apart (name : String) (apart : op.table ≠ name) :
    next.keysOf name = schema.keysOf name := by
  obtain ⟨draft, redrafts, built, _⟩ := apply_one_redrafts rules schema next op applied
  rw [built_keys_of draft next built, ← draft_keys_of]
  cases redrafts with
  | create table =>
      have other : name ≠ table.name := apart.symm
      rw [add_table_lookup]
      simp [Table.toDraft, other]
  | drop gone =>
      have other : name ≠ gone := apart.symm
      rw [remove_table_lookup, if_neg other]
  | change _ table changed _ looked changes =>
      have named : changed.name = op.table :=
        (changed_keeps _ _ _ changes).1.trans (table_found schema _ table looked).2
      rw [← named, set_table_lookup, named, if_neg apart.symm]

theorem keys_balance (stays : op ≠ .dropTable op.table) :
    (schema.takenKeys op ++ next.keysOf op.table).Perm (schema.keysOf op.table ++ op.givenKeys) := by
  obtain ⟨draft, redrafts, built, _⟩ := apply_one_redrafts rules schema next op applied
  rw [built_keys_of draft next built]
  cases redrafts with
  | drop gone => exact absurd rfl stays
  | create table =>
      obtain ⟨_, distinct, _⟩ := (schema_build_ok _ next).mp built
      have fresh : schema.table? table.name = none := by
        rw [table_none_iff, ← draft_names]
        rw [SchemaDraft.addTable, List.map_append, List.nodup_append] at distinct
        exact fun taken => distinct.2.2 _ taken table.name List.mem_cons_self rfl
      have new : (Operation.createTable table).table = table.name := rfl
      rw [new, add_table_lookup, draft_lookup, fresh, Schema.takenKeys, Schema.keysOf, new, fresh]
      simp [Table.toDraft, Operation.givenKeys, TableDraft.keys, Table.keys]
  | change _ table changed inPlace looked changes =>
      have named : changed.name = op.table :=
        (changed_keeps _ _ _ changes).1.trans (table_found schema _ table looked).2
      rw [← named, set_table_lookup, if_pos rfl, named, draft_lookup, looked, Schema.takenKeys,
        Schema.keysOf, looked]
      exact changed_keys table op changed inPlace changes

theorem dropped_table_gone (name : String) (drops : op = .dropTable name) :
    next.table? name = none := by
  obtain ⟨draft, redrafts, built, _⟩ := apply_one_redrafts rules schema next op applied
  subst drops
  cases redrafts with
  | drop =>
      by_contra found
      obtain ⟨t, there⟩ := Option.ne_none_iff_exists'.mp found
      obtain ⟨d, drafted, _⟩ := built_lookup _ next built name t there
      rw [remove_table_lookup, if_pos rfl] at drafted
      cases drafted
  | change _ _ _ inPlace => cases inPlace

end Step

end SchemaDrift
