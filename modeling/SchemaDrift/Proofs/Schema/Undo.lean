import SchemaDrift.Proofs.Schema.Equivalence
import SchemaDrift.Proofs.Schema.Frame
/-!
Additions can be taken back. A column, an index and a table are dropped by their name, which was free
before, and leave the very schema. A constraint is dropped by its structure, and where the table had a
twin of it, the twin may go in its place, which leaves an equivalent schema.
-/

set_option autoImplicit false

namespace SchemaDrift

-- The drop that takes an addition back. A primary key is no such addition: its columns refuse NULL
-- from then on, also when it is dropped.
def Operation.undo? : Operation → Option Operation
  | createTable table => some (.dropTable table.name)
  | addColumn table column => some (.dropColumn table column.name)
  | addConstraint table c => if c.isPrimaryKey then none else some (.dropConstraint table c)
  | addIndex table index => some (.dropIndex table index)
  | _ => none

theorem filter_last {α : Type} (key : α → String) (l : List α) (last : α) (name : String)
    (named : key last = name) (others : ∀ a ∈ l, key a ≠ name) :
    (l ++ [last]).filter (key · ≠ name) = l := by
  rw [List.filter_append, List.filter_eq_self.mpr (by simpa using others)]
  simp [named]

theorem with_alike_shapes (schema : Schema) (t v : Table) (distinct : schema.tableNames.Nodup)
    (found : schema.table? v.name = some t) (alike : v.shape = t.shape) :
    tally Table.shape (schema.withTable v).tables = tally Table.shape schema.tables := by
  unfold tally Schema.withTable
  rw [List.map_map]
  refine congrArg _ (List.map_congr_left fun s member => ?_)
  dsimp only [Function.comp]
  by_cases own : s.name = v.name
  · rw [if_pos own, alike, table_unique schema distinct v.name t s found member own]
  · rw [if_neg own]

/-! ### One table -/

section Table

variable (t u : Table) (wf : t.WellFormed)

include wf

theorem becomes_reopened (op : Operation) (changed : u.toDraft.Changed op t.toDraft) :
    u.Becomes op t :=
  ⟨t.toDraft, changed, wf.sound, (build_reopened t 0 wf).symm⟩

theorem built_with_parts (constraints : List Constraint) (indexes : List Index) :
    TableDraft.toTable { t.toDraft with constraints, indexes } 0 = { t with constraints, indexes } :=
  congrArg (fun s : Table => { s with constraints, indexes }) (build_reopened t 0 wf)

theorem built_with_column (column : Column) : ∃ last : Column, last.name = column.name ∧
    TableDraft.toTable { t.toDraft with columns := t.columns ++ [column] } 0
      = { t with columns := t.columns ++ [last] } := by
  let grown : TableDraft := { t.toDraft with columns := t.columns ++ [column] }
  obtain ⟨last, named, columns⟩ : ∃ last : Column, last.name = column.name ∧
      (grown.toTable 0).columns = (t.toDraft.toTable 0).columns ++ [last] := by
    refine ⟨_, ?_, List.map_append⟩
    dsimp only
    split <;> rfl
  refine ⟨last, named, ?_⟩
  calc grown.toTable 0 = { t.toDraft.toTable 0 with columns := (grown.toTable 0).columns } := rfl
    _ = { t with columns := t.columns ++ [last] } := by rw [columns, build_reopened t 0 wf]

theorem column_taken_back (table : String) (column : Column)
    (becomes : t.Becomes (.addColumn table column) u) :
    u.Becomes (.dropColumn table column.name) t := by
  obtain ⟨draft, changed, _, rfl⟩ := becomes
  cases changed with
  | untouched _ whole => cases whole
  | addColumn _ _ fresh =>
      obtain ⟨last, named, built⟩ := built_with_column t wf column
      have others (c : Column) (member : c ∈ t.columns) : c.name ≠ column.name := fun same =>
        fresh (List.mem_map.mpr ⟨c, member, same⟩)
      have drops : TableDraft.Changed { t.toDraft with columns := t.columns ++ [last] }
          (.dropColumn table column.name)
          { t.toDraft with columns := (t.columns ++ [last]).filter (·.name ≠ column.name) } :=
        .dropColumn table column.name (by simp [TableDraft.columnNames, named])
      rw [filter_last Column.name t.columns last column.name named others] at drops
      exact becomes_reopened t _ wf _ (built ▸ drops)

theorem index_taken_back (table : String) (index : Index)
    (becomes : t.Becomes (.addIndex table index) u) : u.Becomes (.dropIndex table index) t := by
  obtain ⟨draft, changed, sound, rfl⟩ := becomes
  cases changed with
  | untouched _ whole => cases whole
  | addIndex =>
      have distinct : ((t.indexes ++ [index]).map Index.name).Nodup := sound.indexesDistinct
      rw [List.map_append, List.nodup_append] at distinct
      have others (i : Index) (member : i ∈ t.indexes) : i.name ≠ index.name :=
        distinct.2.2 i.name (List.mem_map_of_mem member) index.name (by simp)
      have drops : TableDraft.Changed { t.toDraft with indexes := t.indexes ++ [index] }
          (.dropIndex table index)
          { t.toDraft with indexes := (t.indexes ++ [index]).filter (·.name ≠ index.name) } :=
        .dropIndex table index (by simp)
      rw [filter_last Index.name t.indexes index index.name rfl others] at drops
      exact becomes_reopened t _ wf _ (built_with_parts t wf t.constraints _ ▸ drops)

theorem constraint_taken_back (table : String) (c : Constraint) (other : c.isPrimaryKey = false)
    (becomes : t.Becomes (.addConstraint table c) u) :
    ∃ v, u.Becomes (.dropConstraint table c) v ∧ v.shape = t.shape := by
  obtain ⟨draft, changed, sound, rfl⟩ := becomes
  cases changed with
  | untouched _ whole => cases whole
  | addKey _ _ primary =>
      rw [other] at primary
      cases primary
  | addConstraint =>
      have picks (d : Constraint) : d.structurallyEq c = true ↔ d.shape = c.shape := constraint_agree d c
      obtain ⟨rest, erased⟩ := erase_first_present Constraint.shape c.shape _ picks
        (t.constraints ++ [c]) (by simp)
      have gone := erase_first_tally Constraint.shape c.shape _ picks _ rest erased
      rw [tally_append, tally_cons, tally_nil, add_comm, Multiset.cons_add, zero_add,
        Multiset.cons_inj_right] at gone
      have fewer : TableDraft.Sound { t.toDraft with constraints := rest } :=
        sound_fewer { t.toDraft with constraints := t.constraints ++ [c] } _ rest _ sound
          (List.Sublist.refl _) (erase_first_sublist _ _ _ erased) (List.Sublist.refl _)
      have drops : TableDraft.Changed { t.toDraft with constraints := t.constraints ++ [c] }
          (.dropConstraint table c) { t.toDraft with constraints := rest } :=
        .dropConstraint table c rest other erased
      exact ⟨{ t with constraints := rest }, ⟨_, built_with_parts t wf _ t.indexes ▸ drops, fewer,
        (built_with_parts t wf rest t.indexes).symm⟩,
        congrArg (fun shapes => { t.shape with constraints := shapes }) gone.symm⟩

end Table

/-! ### One operation -/

theorem undo_drops (op undo : Operation) (undoes : op.undo? = some undo) :
    undo.table = op.table ∧ undo.inPlace = op.inPlace ∧ undo.WellFormed ∧ undo.newReferences = [] := by
  cases op with
  | createTable | addColumn | addIndex =>
      cases undoes
      exact ⟨rfl, rfl, trivial, rfl⟩
  | addConstraint table c =>
      obtain ⟨_, same⟩ := Option.ite_none_left_eq_some.mp undoes
      cases same
      exact ⟨rfl, rfl, trivial, rfl⟩
  | _ => cases undoes

theorem change_taken_back (t u : Table) (op undo : Operation) (wf : t.WellFormed)
    (inPlace : op.inPlace = true) (undoes : op.undo? = some undo) (becomes : t.Becomes op u) :
    ∃ v, u.Becomes undo v ∧ v.shape = t.shape ∧ (op.kind ≠ .addConstraint → v = t) := by
  cases op with
  | createTable => cases inPlace
  | addColumn table column =>
      cases undoes
      exact ⟨t, column_taken_back t u wf table column becomes, rfl, fun _ => rfl⟩
  | addIndex table index =>
      cases undoes
      exact ⟨t, index_taken_back t u wf table index becomes, rfl, fun _ => rfl⟩
  | addConstraint table c =>
      obtain ⟨other, same⟩ := Option.ite_none_left_eq_some.mp undoes
      cases same
      obtain ⟨v, drops, alike⟩ :=
        constraint_taken_back t u wf table c (Bool.eq_false_iff.mpr other) becomes
      exact ⟨v, drops, alike, fun never => absurd rfl never⟩
  | _ => cases undoes

section Step

variable (rules : ApplyRules) (schema next : Schema) (wf : schema.WellFormed)

include wf

theorem creation_taken_back (t : Table) (applied : schema.applyOne rules (.createTable t) = .ok next) :
    next.applyOne {} (.dropTable t.name) = .ok schema := by
  obtain ⟨fresh, created, named, result⟩ := create_appends rules schema next wf t applied
  have whole : next.toDraft.tables = schema.toDraft.tables ++ [created.toDraft] := by
    simp only [Schema.toDraft, result, List.map_append, List.map_cons, List.map_nil]
  have others (d : TableDraft) (member : d ∈ schema.toDraft.tables) : d.name ≠ t.name := by
    intro same
    have listed : d.name ∈ schema.toDraft.tables.map TableDraft.name := List.mem_map_of_mem member
    rw [draft_names, same] at listed
    exact fresh listed
  have present : next.toDraft.hasTable t.name = true := by
    simp [SchemaDraft.hasTable, whole, Table.toDraft, named]
  have removed : next.toDraft.removeTable? t.name = some schema.toDraft := by
    rw [SchemaDraft.removeTable?, if_pos present, whole,
      filter_last TableDraft.name _ created.toDraft t.name named others]
  have dropped : next.applyDrop {} t.name = .ok schema := by
    unfold Schema.applyDrop
    rw [removed]
    exact schema_reopened schema wf
  exact (bind_ok _ _ _).mpr ⟨schema, dropped, (bind_ok _ _ _).mpr
    ⟨(), (check_keys_ok schema _).mpr (by simp [Operation.newReferences]), rfl⟩⟩

theorem part_taken_back (op undo : Operation) (inPlace : op.inPlace = true)
    (undoes : op.undo? = some undo) (applied : schema.applyOne rules op = .ok next) :
    ∃ last, next.applyOne rules undo = .ok last ∧ last.WellFormed ∧
      tally Table.shape last.tables = tally Table.shape schema.tables ∧
      (op.kind ≠ .addConstraint → last = schema) := by
  have payload := in_place_payload op inPlace
  obtain ⟨target, kept, undoPayload, plain⟩ := undo_drops op undo undoes
  have nextWf := apply_one_well_formed rules schema next op wf payload applied
  obtain ⟨step, _, _⟩ := (apply_one_iff rules schema next op wf payload).mp applied
  cases step with
  | create | drop => cases inPlace
  | change _ t u _ found becomes =>
      obtain ⟨member, named⟩ := table_found schema op.table t found
      obtain ⟨v, drops, alike, same⟩ :=
        change_taken_back t u op undo (wf.tables t member) inPlace undoes becomes
      have name := becomes_named schema t u op wf found becomes
      have own : v.name = op.table := (congrArg TableShape.name alike).trans named
      have there : (schema.withTable u).table? undo.table = some u := by
        rw [with_table_lookup, target, if_pos name.symm, found, Option.map_some]
      have again := with_table_again schema u v (name.trans own.symm)
      rw [← own] at found
      have shapes := with_alike_shapes schema t v wf.distinct found alike
      have resolved : (schema.withTable v).Resolved :=
        alike_resolved schema _ (with_table_names schema v ▸ wf.distinct) shapes.symm wf.resolved
      have undone : (schema.withTable u).applyOne rules undo = .ok (schema.withTable v) := by
        rw [apply_one_iff rules _ _ undo nextWf undoPayload, plain, ← again]
        exact ⟨.change undo u v (kept.trans inPlace) there drops, again.symm ▸ resolved, by simp⟩
      refine ⟨_, undone, apply_one_well_formed rules _ _ undo nextWf undoPayload undone, shapes,
        fun other => ?_⟩
      rw [same other]
      exact with_table_own schema wf.distinct t member

theorem operation_taken_back (op undo : Operation) (undoes : op.undo? = some undo)
    (applied : schema.applyOne {} op = .ok next) :
    ∃ last, next.applyOne {} undo = .ok last ∧ last.WellFormed ∧
      tally Table.shape last.tables = tally Table.shape schema.tables ∧
      (op.kind ≠ .addConstraint → last = schema) := by
  by_cases inPlace : op.inPlace = true
  · exact part_taken_back {} schema next wf op undo inPlace undoes applied
  · cases op with
    | createTable t =>
        cases undoes
        exact ⟨schema, creation_taken_back {} schema next wf t applied, wf, rfl, fun _ => rfl⟩
    | dropTable => cases undoes
    | _ => exact absurd rfl inPlace

end Step

-- A run of additions other than constraints, taken back from the last to the first. With constraints
-- this fails: a twin of a check may list other columns, and those that it lists cannot be dropped.
theorem run_taken_back (schema result : Schema) (ops undos : List Operation) (wf : schema.WellFormed)
    (payload : ∀ op ∈ ops, op.WellFormed) (plain : ∀ op ∈ ops, op.kind ≠ .addConstraint)
    (undoes : List.Forall₂ (fun op undo => op.undo? = some undo) ops undos)
    (applied : schema.apply {} ops = .ok result) : result.apply {} undos.reverse = .ok schema := by
  induction undoes generalizing schema with
  | nil =>
      cases applied
      rfl
  | @cons op undo ops undos first _ ih =>
      obtain ⟨next, begun, rest⟩ := (apply_cons_ok _ _ _ _ _).mp applied
      have nextWf := apply_one_well_formed {} schema next op wf (payload op (by simp)) begun
      have back := ih next nextWf (fun o member => payload o (by simp [member]))
        (fun o member => plain o (by simp [member])) rest
      obtain ⟨last, undone, _, _, same⟩ := operation_taken_back schema next wf op undo first begun
      rw [same (plain op (by simp))] at undone
      rw [List.reverse_cons]
      exact (apply_append_ok _ _ _ _ _).mpr ⟨next, back, (apply_single_ok _ _ _ _).mpr undone⟩

theorem addition_taken_back (schema next : Schema) (op undo : Operation) (valid : schema.Validated)
    (undoes : op.undo? = some undo) (applied : schema.apply {} [op] = .ok next) :
    ∃ last, next.apply {} [undo] = .ok last ∧ last.equivalent schema = true ∧
      (op.kind ≠ .addConstraint → last = schema) := by
  have wf := (validated_iff_well_formed schema).mp valid
  rw [apply_single_ok] at applied
  obtain ⟨last, undone, lastWf, alike, same⟩ :=
    operation_taken_back schema next wf op undo undoes applied
  exact ⟨last, (apply_single_ok _ _ _ _).mpr undone,
    (schema_equivalent_iff last schema lastWf wf).mpr alike, same⟩

-- A check that comes a second time, under another name and about other columns. The first of the two
-- is dropped, and the second is left in its place.
namespace Ledger

def number (name : String) : Column := { name, type := { base := .integer } }

def positive (name column : String) : Constraint where
  name := some name
  columns := [column]
  kind := .check "amount > 0"

def schema (checks : List Constraint) : Schema where
  tables :=
    [{ name := "entry"
       columns := [number "amount", number "fee"]
       constraints := checks
       ordinal := 0 }]

def addition : Operation := .addConstraint "entry" (positive "again" "fee")

def undo : Operation := .dropConstraint "entry" (positive "again" "fee")

end Ledger

theorem ledger_keeps_one_check :
    (Ledger.schema [Ledger.positive "first" "amount"]).Validated ∧
      Ledger.addition.undo? = some Ledger.undo ∧
      (Ledger.schema [Ledger.positive "first" "amount"]).apply {} [Ledger.addition] =
        .ok (Ledger.schema [Ledger.positive "first" "amount", Ledger.positive "again" "fee"]) ∧
      ∃ last,
        (Ledger.schema [Ledger.positive "first" "amount", Ledger.positive "again" "fee"]).apply {}
          [Ledger.undo] = .ok last ∧
        last.equivalent (Ledger.schema [Ledger.positive "first" "amount"]) = true ∧
        (Ledger.addition.kind ≠ .addConstraint →
          last = Ledger.schema [Ledger.positive "first" "amount"]) := by
  have valid : (Ledger.schema [Ledger.positive "first" "amount"]).Validated :=
    ⟨(Ledger.schema [Ledger.positive "first" "amount"]).toDraft, by decide, rfl⟩
  exact ⟨valid, rfl, rfl, addition_taken_back _ _ Ledger.addition Ledger.undo valid rfl rfl⟩

end SchemaDrift
