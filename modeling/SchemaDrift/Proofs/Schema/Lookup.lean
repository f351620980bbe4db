import SchemaDrift.Proofs.Schema.WellFormed
import SchemaDrift.Schema.Apply
/-!
Looking up tables by name, and the three ways in which an operation changes the tables of a schema.
-/

set_option autoImplicit false

namespace SchemaDrift

namespace Schema

def withTable (schema : Schema) (table : Table) : Schema :=
  { tables := schema.tables.map fun t => if t.name = table.name then table else t }

def withoutTable (schema : Schema) (name : String) : Schema :=
  { tables := schema.tables.filter (·.name ≠ name) }

def withNew (schema : Schema) (table : Table) : Schema :=
  { tables := schema.tables ++ [{ table with ordinal := schema.toDraft.nextOrdinal }] }

end Schema

theorem table_found (schema : Schema) (name : String) (t : Table)
    (found : schema.table? name = some t) : t ∈ schema.tables ∧ t.name = name :=
  ⟨List.mem_of_find?_eq_some found, by simpa using List.find?_some found⟩

theorem table_none_iff (schema : Schema) (name : String) :
    schema.table? name = none ↔ name ∉ schema.tableNames := by
  simp [Schema.table?, Schema.tableNames]

theorem has_table_iff (schema : Schema) (name : String) :
    schema.hasTable name = true ↔ name ∈ schema.tableNames := by
  simp [Schema.hasTable, Schema.tableNames]

theorem has_table_some (schema : Schema) (name : String) :
    schema.hasTable name = true ↔ ∃ t, schema.table? name = some t := by
  rw [has_table_iff, ← Option.ne_none_iff_exists', Ne, table_none_iff, not_not]

theorem has_table_none (schema : Schema) (name : String) :
    schema.hasTable name = false ↔ schema.table? name = none := by
  rw [Bool.eq_false_iff, Ne, has_table_iff, table_none_iff]

theorem find_unique {α : Type} (key : α → String) (l : List α) (distinct : (l.map key).Nodup) (a : α)
    (member : a ∈ l) : l.find? (key · = key a) = some a := by
  induction l with
  | nil => cases member
  | cons b l ih =>
      obtain ⟨fresh, distinct⟩ := List.nodup_cons.mp distinct
      rcases List.mem_cons.mp member with same | later
      · simp [same]
      · have different : key b ≠ key a := fun same =>
          fresh (List.mem_map.mpr ⟨a, later, same.symm⟩)
        rw [List.find?_cons_of_neg (by simpa using different)]
        exact ih distinct later

theorem table_of_mem (schema : Schema) (distinct : schema.tableNames.Nodup) (t : Table)
    (member : t ∈ schema.tables) : schema.table? t.name = some t :=
  find_unique Table.name schema.tables distinct t member

theorem table_unique (schema : Schema) (distinct : schema.tableNames.Nodup) (name : String)
    (t u : Table) (found : schema.table? name = some t) (member : u ∈ schema.tables)
    (named : u.name = name) : u = t := by
  have looked := table_of_mem schema distinct u member
  rw [named, found] at looked
  exact (Option.some.inj looked).symm

theorem with_table_lookup (schema : Schema) (u : Table) (name : String) :
    (schema.withTable u).table? name =
      if name = u.name then (schema.table? name).map fun _ => u else schema.table? name := by
  unfold Schema.table? Schema.withTable
  induction schema.tables with
  | nil => simp
  | cons t tables ih =>
      rw [List.map_cons, List.find?_cons, List.find?_cons]
      by_cases replaced : t.name = u.name
      · rw [if_pos replaced]
        by_cases hit : u.name = name
        · simp [hit, replaced]
        · simpa [hit, replaced] using ih
      · rw [if_neg replaced]
        by_cases hit : t.name = name
        · have other : name ≠ u.name := hit ▸ replaced
          simp [hit, other]
        · simpa [hit] using ih

theorem with_table_names (schema : Schema) (u : Table) :
    (schema.withTable u).tableNames = schema.tableNames := by
  simp only [Schema.tableNames, Schema.withTable, List.map_map]
  apply List.map_congr_left
  intro t _
  dsimp only [Function.comp]
  by_cases same : t.name = u.name
  · rw [if_pos same]
    exact same.symm
  · rw [if_neg same]

theorem with_table_mem (schema : Schema) (u t : Table)
    (member : t ∈ (schema.withTable u).tables) : t = u ∨ t ∈ schema.tables ∧ t.name ≠ u.name := by
  obtain ⟨s, found, same⟩ := List.mem_map.mp member
  by_cases replaced : s.name = u.name
  · exact .inl (by rw [← same, if_pos replaced])
  · rw [if_neg replaced] at same
    exact .inr ⟨same ▸ found, same ▸ replaced⟩

theorem with_table_comm (schema : Schema) (u v : Table) (apart : u.name ≠ v.name) :
    (schema.withTable u).withTable v = (schema.withTable v).withTable u := by
  simp only [Schema.withTable, List.map_map, Schema.mk.injEq]
  refine List.map_congr_left fun t _ => ?_
  by_cases first : t.name = u.name
  · simp [first, apart]
  · by_cases second : t.name = v.name
    · simp [second, apart.symm]
    · simp [first, second]

theorem with_table_again (schema : Schema) (u v : Table) (same : u.name = v.name) :
    (schema.withTable u).withTable v = schema.withTable v := by
  simp only [Schema.withTable, List.map_map, Schema.mk.injEq]
  refine List.map_congr_left fun t _ => ?_
  by_cases replaced : t.name = v.name <;> simp [replaced, same]

theorem with_table_own (schema : Schema) (distinct : schema.tableNames.Nodup) (t : Table)
    (member : t ∈ schema.tables) : schema.withTable t = schema := by
  refine congrArg Schema.mk ((List.map_congr_left fun s inside => ?_).trans (List.map_id _))
  by_cases own : s.name = t.name
  · rw [if_pos own]
    exact (table_unique schema distinct t.name t s (table_of_mem schema distinct t member) inside own).symm
  · rw [if_neg own]
    rfl

theorem without_table_lookup (schema : Schema) (gone name : String) :
    (schema.withoutTable gone).table? name = if name = gone then none else schema.table? name := by
  unfold Schema.table? Schema.withoutTable
  rw [List.find?_filter]
  by_cases same : name = gone
  · rw [if_pos same, List.find?_eq_none]
    intro t _
    simp [same]
  · rw [if_neg same]
    congr 1
    funext t
    by_cases hit : t.name = name <;> simp [hit, same]

theorem with_new_lookup (schema : Schema) (u : Table) (name : String) :
    (schema.withNew u).table? name = (schema.table? name).or
      (if name = u.name then some { u with ordinal := schema.toDraft.nextOrdinal } else none) := by
  unfold Schema.table? Schema.withNew
  rw [List.find?_append]
  congr 1
  by_cases same : name = u.name <;> simp [same, eq_comm]

/-! ### Other tables keep their references -/

theorem with_table_resolves (schema : Schema) (u v : Table) (r : Reference)
    (found : schema.table? v.name = some u) (resolves : schema.Resolves r)
    (kept : r.table = v.name → ∀ name ∈ r.columns, name ∈ u.columnNames → name ∈ v.columnNames) :
    (schema.withTable v).Resolves r := by
  obtain ⟨target, there, columns⟩ := resolves
  by_cases own : r.table = v.name
  · rw [own, found] at there
    cases there
    exact ⟨v, by rw [with_table_lookup, if_pos own, own, found]; rfl,
      fun name member => kept own name member (columns name member)⟩
  · exact ⟨target, by rw [with_table_lookup, if_neg own, there], columns⟩

theorem with_new_resolves (schema : Schema) (t : Table) (r : Reference)
    (resolves : schema.Resolves r) : (schema.withNew t).Resolves r := by
  obtain ⟨target, there, columns⟩ := resolves
  exact ⟨target, by rw [with_new_lookup, there]; rfl, columns⟩

theorem without_table_resolves (schema : Schema) (name : String) (r : Reference)
    (resolves : schema.Resolves r) (other : r.table ≠ name) :
    (schema.withoutTable name).Resolves r := by
  obtain ⟨target, there, columns⟩ := resolves
  exact ⟨target, by rw [without_table_lookup, if_neg other, there], columns⟩

end SchemaDrift
