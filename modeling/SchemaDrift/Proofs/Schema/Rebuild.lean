import SchemaDrift.Proofs.Schema.Build
import SchemaDrift.Proofs.Schema.Lookup
/-!
Building a well-formed schema again after one of its tables was replaced, removed or added: all
other tables come out as they were and in their order.
-/

set_option autoImplicit false

namespace SchemaDrift

section Replace

variable (name : String) (changed : TableDraft)

theorem replace_first_names (tables : List TableDraft) (named : changed.name = name) :
    (SchemaDraft.replaceFirst name changed tables).map TableDraft.name
      = tables.map TableDraft.name := by
  induction tables with
  | nil => rfl
  | cons t tables ih =>
      rw [SchemaDraft.replaceFirst]
      by_cases hit : t.name = name
      · simp [hit, named]
      · simp [hit, ih]

theorem replace_first_mem (tables : List TableDraft) (d : TableDraft)
    (member : d ∈ SchemaDraft.replaceFirst name changed tables) : d = changed ∨ d ∈ tables := by
  induction tables with
  | nil => cases member
  | cons t tables ih =>
      rw [SchemaDraft.replaceFirst] at member
      split at member
      · rcases List.mem_cons.mp member with same | later
        · exact .inl same
        · exact .inr (by simp [later])
      · rcases List.mem_cons.mp member with same | later
        · exact .inr (by simp [same])
        · rcases ih later with same | old
          · exact .inl same
          · exact .inr (by simp [old])

theorem replace_first_present (tables : List TableDraft)
    (found : name ∈ tables.map TableDraft.name) :
    changed ∈ SchemaDraft.replaceFirst name changed tables := by
  induction tables with
  | nil => cases found
  | cons t tables ih =>
      rw [SchemaDraft.replaceFirst]
      by_cases hit : t.name = name
      · simp [hit]
      · rw [if_neg hit]
        rcases List.mem_cons.mp found with same | later
        · exact absurd same.symm hit
        · exact List.mem_cons_of_mem t (ih later)

theorem replace_first_built (position : Nat) (tables : List Table)
    (wf : ∀ t ∈ tables, t.WellFormed) (distinct : (tables.map Table.name).Nodup)
    (fixed : changed.ordinal.isSome = true) :
    tablesFrom position (SchemaDraft.replaceFirst name changed (tables.map Table.toDraft)) =
      tables.map fun t => if t.name = name then changed.toTable 0 else t := by
  have anywhere (n : Nat) : changed.toTable n = changed.toTable 0 := by
    obtain ⟨ordinal, same⟩ := Option.isSome_iff_exists.mp fixed
    simp only [TableDraft.toTable, same, Option.getD_some]
  induction tables generalizing position with
  | nil => rfl
  | cons t tables ih =>
      obtain ⟨fresh, distinct⟩ := List.nodup_cons.mp distinct
      have others : ∀ u ∈ tables, u.WellFormed := fun u member => wf u (by simp [member])
      rw [List.map_cons, SchemaDraft.replaceFirst, List.map_cons]
      by_cases hit : t.name = name
      · have untouched : tables.map (fun u => if u.name = name then changed.toTable 0 else u)
            = tables := by
          rw [List.map_congr_left (g := id), List.map_id]
          intro u member
          have other : u.name ≠ name := fun same =>
            fresh (List.mem_map.mpr ⟨u, member, same.trans hit.symm⟩)
          rw [if_neg other]
          rfl
        rw [if_pos (show t.toDraft.name = name from hit), if_pos hit, tablesFrom, anywhere,
          tables_from_reopened _ _ others, untouched]
      · rw [if_neg (show t.toDraft.name ≠ name from hit), if_neg hit, tablesFrom,
          build_reopened t position (wf t (by simp)), ih (position + 1) others distinct]

end Replace

theorem draft_lookup (schema : Schema) (name : String) :
    schema.toDraft.table? name = (schema.table? name).map Table.toDraft := by
  simp only [SchemaDraft.table?, Schema.toDraft, Schema.table?, List.find?_map]
  rfl

theorem draft_names (schema : Schema) :
    schema.toDraft.tables.map TableDraft.name = schema.tableNames := by
  simp only [Schema.toDraft, Schema.tableNames, List.map_map]
  rfl

theorem draft_sound (schema : Schema) (wf : schema.WellFormed) (d : TableDraft)
    (member : d ∈ schema.toDraft.tables) : d.Sound := by
  obtain ⟨t, found, same⟩ := List.mem_map.mp member
  exact same ▸ (wf.tables t found).sound

theorem with_table_ordered (schema : Schema) (t u : Table) (wf : schema.WellFormed)
    (found : schema.table? u.name = some t) (fixed : u.ordinal = t.ordinal) :
    (schema.withTable u).tables.Pairwise fun a b => a.ordinal ≤ b.ordinal := by
  have kept : ∀ s ∈ schema.tables, (if s.name = u.name then u else s).ordinal = s.ordinal := by
    intro s inside
    by_cases hit : s.name = u.name
    · rw [if_pos hit, table_unique schema wf.distinct u.name t s found inside hit]
      exact fixed
    · rw [if_neg hit]
  unfold Schema.withTable
  rw [List.pairwise_map]
  refine wf.ordered.imp_of_mem fun {a b} first second less => ?_
  rw [kept a first, kept b second]
  exact less

theorem set_table_build_ok (schema next : Schema) (t : Table) (changed : TableDraft)
    (wf : schema.WellFormed) (found : schema.table? t.name = some t) (named : changed.name = t.name)
    (fixed : changed.ordinal = some t.ordinal) :
    (schema.toDraft.setTable t.name changed).build = .ok next ↔
      changed.Sound ∧ next = schema.withTable (changed.toTable 0) ∧ next.Resolved := by
  have member := (table_found schema t.name t found).1
  have target : (changed.toTable 0).name = t.name := named
  have built := replace_first_built t.name changed 0 schema.tables wf.tables wf.distinct
    (by simp [fixed])
  -- The ordinals are the old ones, so sorting leaves the tables where they are.
  have ordered := with_table_ordered schema t (changed.toTable 0) wf (target ▸ found)
    (by simp only [TableDraft.toTable, fixed, Option.getD_some])
  have same : Schema.mk (SchemaDraft.sortByOrdinal (tablesFrom 0
      (schema.toDraft.setTable t.name changed).tables)) = schema.withTable (changed.toTable 0) := by
    rw [show tablesFrom 0 (schema.toDraft.setTable t.name changed).tables
      = (schema.withTable (changed.toTable 0)).tables from built.trans (by rw [Schema.withTable, target])]
    exact congrArg Schema.mk (sort_of_ordered _ ordered)
  rw [schema_build_ok, same]
  constructor
  · rintro ⟨sounds, _, rfl, resolved⟩
    refine ⟨sounds changed (replace_first_present t.name changed _ ?_), rfl, resolved⟩
    rw [draft_names]
    exact List.mem_map.mpr ⟨t, member, rfl⟩
  · rintro ⟨sound, rfl, resolved⟩
    refine ⟨fun d inside => ?_, ?_, rfl, resolved⟩
    · rcases replace_first_mem t.name changed _ d inside with fresh | old
      · exact fresh ▸ sound
      · exact draft_sound schema wf d old
    · rw [SchemaDraft.setTable, replace_first_names t.name changed _ named, draft_names]
      exact wf.distinct

theorem remove_table_build_ok (schema next : Schema) (name : String) (wf : schema.WellFormed) :
    SchemaDraft.build { tables := schema.toDraft.tables.filter (·.name ≠ name) } = .ok next ↔
      next = schema.withoutTable name ∧ next.Resolved := by
  have kept : schema.toDraft.tables.filter (·.name ≠ name)
      = (schema.withoutTable name).tables.map Table.toDraft := by
    simp only [Schema.toDraft, Schema.withoutTable, List.filter_map]
    rfl
  have sub : (schema.withoutTable name).tables.Sublist schema.tables := List.filter_sublist
  have same : Schema.mk (SchemaDraft.sortByOrdinal (tablesFrom 0
      ((schema.withoutTable name).tables.map Table.toDraft))) = schema.withoutTable name := by
    rw [tables_from_reopened 0 _ fun t member => wf.tables t (sub.subset member),
      sort_of_ordered _ (wf.ordered.sublist sub)]
  rw [schema_build_ok, kept, same]
  constructor
  · rintro ⟨_, _, rfl, resolved⟩
    exact ⟨rfl, resolved⟩
  · rintro ⟨rfl, resolved⟩
    refine ⟨fun d inside => ?_, ?_, rfl, resolved⟩
    · rw [← kept] at inside
      exact draft_sound schema wf d (List.mem_filter.mp inside).1
    · rw [List.map_map]
      exact (wf.distinct.sublist (sub.map Table.name))

theorem ordinal_bound (position : Nat) (drafts : List TableDraft) (d : TableDraft) (n : Nat)
    (member : d ∈ drafts) (fixed : d.ordinal = some n) :
    n < SchemaDraft.ordinalBound position drafts := by
  induction drafts generalizing position with
  | nil => cases member
  | cons draft drafts ih =>
      rw [SchemaDraft.ordinalBound]
      rcases List.mem_cons.mp member with same | later
      · subst same
        rw [fixed, Option.getD_some]
        omega
      · have below := ih (position + 1) later
        omega

theorem with_new_ordered (schema : Schema) (t : Table) (wf : schema.WellFormed) :
    (schema.withNew t).tables.Pairwise fun a b => a.ordinal ≤ b.ordinal := by
  refine List.pairwise_append.mpr ⟨wf.ordered, List.pairwise_singleton _ _, ?_⟩
  intro a inside b single
  rw [List.mem_singleton.mp single]
  exact Nat.le_of_lt (ordinal_bound 0 schema.toDraft.tables a.toDraft a.ordinal
    (List.mem_map.mpr ⟨a, inside, rfl⟩) rfl)

theorem tables_from_append (position : Nat) (front back : List TableDraft) :
    tablesFrom position (front ++ back)
      = tablesFrom position front ++ tablesFrom (position + front.length) back := by
  induction front generalizing position with
  | nil => rfl
  | cons d front ih =>
      rw [List.cons_append, tablesFrom, ih, tablesFrom, List.length_cons, List.cons_append]
      congr 3
      omega

-- A table that was never checked is built here as well, after all others.
theorem added_tables (schema : Schema) (t : Table) (wf : schema.WellFormed) :
    SchemaDraft.sortByOrdinal (tablesFrom 0 (schema.toDraft.addTable
      { t.toDraft with ordinal := some schema.toDraft.nextOrdinal }).tables)
      = (schema.withNew (t.toDraft.toTable 0)).tables := by
  have built := tables_from_reopened 0 schema.tables wf.tables
  simp only [SchemaDraft.addTable, tables_from_append, tablesFrom]
  rw [show tablesFrom 0 schema.toDraft.tables = schema.tables from built]
  exact sort_of_ordered _ (with_new_ordered schema (t.toDraft.toTable 0) wf)

theorem add_table_build_ok (schema next : Schema) (t : Table) (wf : schema.WellFormed)
    (tableWf : t.WellFormed) (fresh : t.name ∉ schema.tableNames) :
    (schema.toDraft.addTable { t.toDraft with ordinal := some schema.toDraft.nextOrdinal }).build
        = .ok next ↔
      next = schema.withNew t ∧ next.Resolved := by
  rw [schema_build_ok, added_tables schema t wf, build_reopened t 0 tableWf]
  constructor
  · rintro ⟨_, _, rfl, resolved⟩
    exact ⟨rfl, resolved⟩
  · rintro ⟨rfl, resolved⟩
    refine ⟨fun d inside => ?_, ?_, rfl, resolved⟩
    · rcases List.mem_append.mp inside with old | new
      · exact draft_sound schema wf d old
      · rw [List.mem_singleton.mp new]
        exact sound_columns t.toDraft _ _ rfl tableWf.sound
    · simp only [SchemaDraft.addTable, List.map_append, draft_names, List.map_cons, List.map_nil]
      refine List.nodup_append.mpr ⟨wf.distinct, List.nodup_singleton _, ?_⟩
      intro a inside b single same
      have last : b = t.name := List.mem_singleton.mp single
      exact fresh (last ▸ same ▸ inside)

end SchemaDrift
