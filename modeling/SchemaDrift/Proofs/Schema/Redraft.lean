import SchemaDrift.Proofs.Schema.Change
import SchemaDrift.Proofs.Schema.Rebuild
/-!
What an operation builds, for every schema and every payload: the draft of the schema with one table
added, removed or changed. What it comes to when all tables are well formed is `Schema.Step`.
-/

set_option autoImplicit false

namespace SchemaDrift

inductive Schema.Redrafts (schema : Schema) : Operation → SchemaDraft → Prop
  | create (table : Table) :
      Redrafts schema (.createTable table) (schema.toDraft.addTable
        { table.toDraft with ordinal := some schema.toDraft.nextOrdinal })
  | drop (name : String) :
      Redrafts schema (.dropTable name) { tables := schema.toDraft.tables.filter (·.name ≠ name) }
  | change (op : Operation) (table : Table) (changed : TableDraft) (inPlace : op.inPlace = true)
      (found : schema.table? op.table = some table) (changes : table.toDraft.Changed op changed) :
      Redrafts schema op (schema.toDraft.setTable op.table changed)

theorem apply_create_redrafts (schema next : Schema) (t : Table)
    (created : schema.applyCreate t = .ok next) :
    ∃ draft, schema.Redrafts (.createTable t) draft ∧ draft.build = .ok next := by
  unfold Schema.applyCreate at created
  dsimp only at created
  split at created
  · cases created
  · exact ⟨_, .create t, created⟩

theorem apply_drop_redrafts (schema next : Schema) (rules : ApplyRules) (name : String)
    (dropped : schema.applyDrop rules name = .ok next) :
    ∃ draft, schema.Redrafts (.dropTable name) draft ∧ draft.build = .ok next := by
  unfold Schema.applyDrop SchemaDraft.removeTable? at dropped
  dsimp only at dropped
  by_cases present : schema.toDraft.hasTable name = true
  · rw [if_pos present] at dropped
    split at dropped
    · cases dropped
    · rename_i same
      cases same
      exact ⟨_, .drop name, dropped⟩
    · cases dropped
  · rw [if_neg present] at dropped
    split at dropped
    · cases dropped
    · rename_i same
      cases same
    · cases dropped

theorem apply_change_redrafts (schema next : Schema) (op : Operation) (inPlace : op.inPlace = true)
    (made : schema.applyChange op = .ok next) :
    ∃ draft, schema.Redrafts op draft ∧ draft.build = .ok next := by
  unfold Schema.applyChange at made
  rw [draft_lookup] at made
  cases found : schema.table? op.table with
  | none =>
      rw [found] at made
      cases made
  | some t =>
      simp only [found, Option.map_some] at made
      cases changed : op.change? t.toDraft with
      | none =>
          rw [changed] at made
          cases made
      | some draft =>
          rw [changed] at made
          exact ⟨_, .change op t draft inPlace found (changed_of_change _ _ _ changed), made⟩

theorem check_keys_ok (schema : Schema) (op : Operation) :
    schema.checkKeys op = .ok () ↔ ∀ r ∈ op.newReferences, schema.isKeyed r = true := by
  unfold Schema.checkKeys
  cases found : op.newReferences.find? (!schema.isKeyed ·) with
  | none =>
      refine ⟨fun _ r member => ?_, fun _ => rfl⟩
      simpa using List.find?_eq_none.mp found r member
  | some r =>
      refine ⟨by simp, fun keyed => ?_⟩
      have unkeyed := List.find?_some found
      rw [keyed r (List.mem_of_find?_eq_some found)] at unkeyed
      cases unkeyed

theorem apply_one_redrafts (rules : ApplyRules) (schema next : Schema) (op : Operation)
    (applied : schema.applyOne rules op = .ok next) :
    ∃ draft, schema.Redrafts op draft ∧ draft.build = .ok next ∧
      ∀ r ∈ op.newReferences, next.isKeyed r = true := by
  have ends (x : Except SchemaError Schema)
      (run : (x >>= fun changed => changed.checkKeys op >>= fun _ => .ok changed) = .ok next) :
      x = .ok next ∧ ∀ r ∈ op.newReferences, next.isKeyed r = true := by
    obtain ⟨changed, reached, rest⟩ := (bind_ok _ _ _).mp run
    obtain ⟨_, checked, same⟩ := (bind_ok _ _ _).mp rest
    cases same
    exact ⟨reached, (check_keys_ok _ op).mp checked⟩
  cases op with
  | createTable t =>
      obtain ⟨reached, keyed⟩ := ends _ applied
      obtain ⟨draft, redrafts, built⟩ := apply_create_redrafts schema next t reached
      exact ⟨draft, redrafts, built, keyed⟩
  | dropTable name =>
      obtain ⟨reached, keyed⟩ := ends _ applied
      obtain ⟨draft, redrafts, built⟩ := apply_drop_redrafts schema next rules name reached
      exact ⟨draft, redrafts, built, keyed⟩
  | _ =>
      obtain ⟨reached, keyed⟩ := ends _ applied
      obtain ⟨draft, redrafts, built⟩ := apply_change_redrafts schema next _ rfl reached
      exact ⟨draft, redrafts, built, keyed⟩

/-! ### Tables of the draft and tables of what it builds -/

section Built

variable (draft : SchemaDraft) (schema : Schema) (built : draft.build = .ok schema)

include built

theorem built_mem (t : Table) (member : t ∈ schema.tables) :
    ∃ d ∈ draft.tables, d.Sound ∧ ∃ n, t = d.toTable n := by
  obtain ⟨sounds, _, rfl, _⟩ := (schema_build_ok draft schema).mp built
  obtain ⟨d, inside, n, same⟩ :=
    tables_from_mem 0 draft.tables t ((sort_perm _).mem_iff.mp member)
  exact ⟨d, inside, sounds d inside, n, same⟩

theorem built_lookup (name : String) (t : Table) (found : schema.table? name = some t) :
    ∃ d, draft.table? name = some d ∧ d.Sound ∧ ∃ n, t = d.toTable n := by
  obtain ⟨_, distinct, _⟩ := (schema_build_ok draft schema).mp built
  obtain ⟨member, named⟩ := table_found schema name t found
  obtain ⟨d, inside, sound, n, rfl⟩ := built_mem draft schema built t member
  have own : d.name = name := named
  exact ⟨d, own ▸ find_unique TableDraft.name draft.tables distinct d inside, sound, n, rfl⟩

end Built

theorem add_table_lookup (draft : SchemaDraft) (d : TableDraft) (name : String) :
    (draft.addTable d).table? name
      = (draft.table? name).or (if name = d.name then some d else none) := by
  unfold SchemaDraft.table? SchemaDraft.addTable
  rw [List.find?_append]
  congr 1
  by_cases same : name = d.name <;> simp [same, eq_comm]

theorem remove_table_lookup (draft : SchemaDraft) (gone name : String) :
    SchemaDraft.table? { tables := draft.tables.filter (·.name ≠ gone) } name
      = if name = gone then none else draft.table? name := by
  unfold SchemaDraft.table?
  rw [List.find?_filter]
  by_cases same : name = gone
  · rw [if_pos same, List.find?_eq_none]
    intro d _
    simp [same]
  · rw [if_neg same]
    congr 1
    funext d
    by_cases hit : d.name = name <;> simp [hit, same]

theorem set_table_lookup (draft : SchemaDraft) (d : TableDraft) (name : String) :
    (draft.setTable d.name d).table? name
      = if name = d.name then (draft.table? name).map fun _ => d else draft.table? name := by
  unfold SchemaDraft.table? SchemaDraft.setTable
  dsimp only
  induction draft.tables with
  | nil => simp [SchemaDraft.replaceFirst]
  | cons t tables ih =>
      rw [SchemaDraft.replaceFirst]
      by_cases replaced : t.name = d.name
      · rw [if_pos replaced, List.find?_cons, List.find?_cons]
        by_cases hit : d.name = name
        · simp [hit, replaced]
        · simp [hit, replaced, Ne.symm hit]
      · rw [if_neg replaced, List.find?_cons, List.find?_cons]
        by_cases hit : t.name = name
        · have other : name ≠ d.name := hit ▸ replaced
          simp [hit, other]
        · simpa [hit] using ih

end SchemaDrift
