import SchemaDrift.Proofs.Result
import SchemaDrift.Proofs.Schema.WellFormed
/-!
What building a schema draft accepts and gives. Building a well-formed schema again gives the very
schema, so validated and well-formed schemas are the same.
-/

set_option autoImplicit false

namespace SchemaDrift

def tablesFrom (position : Nat) : List TableDraft → List Table
  | [] => []
  | draft :: drafts => draft.toTable position :: tablesFrom (position + 1) drafts

theorem tables_from_mem (position : Nat) (drafts : List TableDraft) (t : Table)
    (member : t ∈ tablesFrom position drafts) : ∃ d ∈ drafts, ∃ n, t = d.toTable n := by
  induction drafts generalizing position with
  | nil => cases member
  | cons draft drafts ih =>
      rcases List.mem_cons.mp member with same | later
      · exact ⟨draft, by simp, position, same⟩
      · obtain ⟨d, found, n, same⟩ := ih (position + 1) later
        exact ⟨d, by simp [found], n, same⟩

theorem tables_from_names (position : Nat) (drafts : List TableDraft) :
    (tablesFrom position drafts).map Table.name = drafts.map TableDraft.name := by
  induction drafts generalizing position with
  | nil => rfl
  | cons draft drafts ih => rw [tablesFrom, List.map_cons, List.map_cons, ih]; rfl

theorem build_tables_ok (seen : List String) (position : Nat) (drafts : List TableDraft)
    (tables : List Table) :
    SchemaDraft.buildTables seen position drafts = .ok tables ↔
      (∀ d ∈ drafts, d.Sound) ∧ (drafts.map TableDraft.name).Nodup ∧ (∀ d ∈ drafts, d.name ∉ seen) ∧
        tables = tablesFrom position drafts := by
  induction drafts generalizing seen position tables with
  | nil => simp [SchemaDraft.buildTables, tablesFrom, eq_comm]
  | cons draft drafts ih =>
      rw [SchemaDraft.buildTables]
      by_cases repeated : draft.name ∈ seen
      · rw [if_pos repeated]
        exact ⟨by simp, fun h => absurd repeated (h.2.2.1 draft (by simp))⟩
      · rw [if_neg repeated, bind_ok, List.map_cons, List.nodup_cons]
        constructor
        · rintro ⟨table, first, others⟩
          obtain ⟨rest, found, same⟩ := (bind_ok _ _ _).mp others
          cases same
          obtain ⟨sound, built⟩ := (table_build_ok draft position table).mp first
          obtain ⟨sounds, distinct, apart, rests⟩ := (ih _ _ _).mp found
          refine ⟨List.forall_mem_cons.mpr ⟨sound, sounds⟩, ⟨?_, distinct⟩,
            List.forall_mem_cons.mpr ⟨repeated, fun d member before => ?_⟩, ?_⟩
          · intro again
            obtain ⟨d, member, same⟩ := List.mem_map.mp again
            exact apart d member (by simp [same])
          · exact apart d member (by simp [before])
          · rw [tablesFrom, built, rests]
        · rintro ⟨sounds, ⟨fresh, distinct⟩, apart, same⟩
          subst same
          refine ⟨draft.toTable position,
            (table_build_ok _ _ _).mpr ⟨sounds draft (by simp), rfl⟩, (bind_ok _ _ _).mpr
              ⟨tablesFrom (position + 1) drafts, (ih _ _ _).mpr ⟨?_, distinct, ?_, rfl⟩, rfl⟩⟩
          · exact fun d member => sounds d (by simp [member])
          · intro d member before
            rcases List.mem_cons.mp before with same | earlier
            · exact fresh (List.mem_map.mpr ⟨d, member, same⟩)
            · exact apart d (by simp [member]) earlier

/-! ### The order of tables -/

theorem sort_is_insertion (tables : List Table) :
    SchemaDraft.sortByOrdinal tables = tables.insertionSort fun a b => a.ordinal ≤ b.ordinal := by
  have insert (table : Table) (l : List Table) : SchemaDraft.insertByOrdinal table l =
      l.orderedInsert (fun a b => a.ordinal ≤ b.ordinal) table := by
    induction l with
    | nil => rfl
    | cons t l ih => rw [SchemaDraft.insertByOrdinal, List.orderedInsert_cons, ih]
  induction tables with
  | nil => rfl
  | cons t tables ih =>
      rw [List.insertionSort_cons, ← ih, ← insert]
      rfl

theorem sort_perm (tables : List Table) : (SchemaDraft.sortByOrdinal tables).Perm tables := by
  rw [sort_is_insertion]
  exact List.perm_insertionSort _ tables

theorem sort_ordered (tables : List Table) :
    (SchemaDraft.sortByOrdinal tables).Pairwise fun a b => a.ordinal ≤ b.ordinal := by
  rw [sort_is_insertion]
  have total : Std.Total fun a b : Table => a.ordinal ≤ b.ordinal := ⟨fun a b => Nat.le_total _ _⟩
  have trans : IsTrans Table fun a b => a.ordinal ≤ b.ordinal := ⟨fun _ _ _ => Nat.le_trans⟩
  exact List.pairwise_insertionSort _ tables

theorem sort_of_ordered (tables : List Table)
    (ordered : tables.Pairwise fun a b => a.ordinal ≤ b.ordinal) :
    SchemaDraft.sortByOrdinal tables = tables := by
  rw [sort_is_insertion]
  exact ordered.insertionSort_eq

/-! ### References -/

theorem reference_fault_none (tables : List Table) (r : Reference) :
    SchemaDraft.referenceFault? tables r = none ↔ Schema.Resolves { tables } r := by
  unfold SchemaDraft.referenceFault? Schema.Resolves Schema.table?
  cases found : tables.find? (·.name = r.table) with
  | none => simp
  | some target =>
      simp only [Option.map_eq_none_iff, List.find?_eq_none, Bool.not_eq_true, Bool.not_eq_false',
        Option.some.injEq, exists_eq_left', mem_column_names]

theorem check_references_ok (tables : List Table) :
    SchemaDraft.checkReferences tables = .ok () ↔ Schema.Resolved { tables } := by
  have each (t : Table) : SchemaDraft.tableReferenceFault? tables t = none ↔
      ∀ c ∈ t.constraints, ∀ r, c.reference? = some r → Schema.Resolves { tables } r := by
    unfold SchemaDraft.tableReferenceFault? Table.foreignKeys
    simp only [List.findSome?_eq_none_iff, List.mem_filterMap, List.mem_filter, reference_fault_none]
    constructor
    · intro resolves c member r points
      exact resolves r ⟨c, ⟨member, by simp [Constraint.isForeignKey, points]⟩, points⟩
    · rintro resolves r ⟨c, ⟨member, _⟩, points⟩
      exact resolves c member r points
  unfold SchemaDraft.checkReferences
  cases fault : tables.findSome? fun t =>
      (SchemaDraft.tableReferenceFault? tables t).map (t.name, ·) with
  | none =>
      simp only [List.findSome?_eq_none_iff, Option.map_eq_none_iff, each] at fault
      exact ⟨fun _ => fault, fun _ => rfl⟩
  | some found =>
      refine ⟨by simp, fun resolved => ?_⟩
      obtain ⟨t, member, faulty⟩ := List.exists_of_findSome?_eq_some fault
      rw [(each t).mpr (resolved t member)] at faulty
      cases faulty

/-! ### Schemas -/

theorem schema_build_ok (draft : SchemaDraft) (schema : Schema) :
    draft.build = .ok schema ↔
      (∀ d ∈ draft.tables, d.Sound) ∧ (draft.tables.map TableDraft.name).Nodup ∧
        schema = { tables := SchemaDraft.sortByOrdinal (tablesFrom 0 draft.tables) } ∧
        schema.Resolved := by
  unfold SchemaDraft.build
  rw [bind_ok]
  constructor
  · rintro ⟨tables, built, rest⟩
    obtain ⟨_, checked, same⟩ := (bind_ok _ _ _).mp rest
    cases same
    obtain ⟨sounds, distinct, _, rfl⟩ := (build_tables_ok _ _ _ _).mp built
    exact ⟨sounds, distinct, rfl, (check_references_ok _).mp checked⟩
  · rintro ⟨sounds, distinct, rfl, resolved⟩
    exact ⟨_, (build_tables_ok _ _ _ _).mpr ⟨sounds, distinct, by simp, rfl⟩,
      (bind_ok _ _ _).mpr ⟨(), (check_references_ok _).mpr resolved, rfl⟩⟩

theorem schema_build_well_formed (draft : SchemaDraft) (schema : Schema)
    (placed : ∀ d ∈ draft.tables, d.Placed) (built : draft.build = .ok schema) :
    schema.WellFormed := by
  obtain ⟨sounds, distinct, rfl, resolved⟩ := (schema_build_ok draft schema).mp built
  have perm := sort_perm (tablesFrom 0 draft.tables)
  refine ⟨fun t member => ?_, ?_, resolved, sort_ordered _⟩
  · obtain ⟨d, found, n, same⟩ := tables_from_mem 0 draft.tables t (perm.mem_iff.mp member)
    rw [same]
    exact built_well_formed d n (sounds d found) (placed d found)
  · refine ((perm.map Table.name).nodup_iff).mpr ?_
    rw [tables_from_names]
    exact distinct

theorem tables_from_reopened (position : Nat) (tables : List Table)
    (wf : ∀ t ∈ tables, t.WellFormed) : tablesFrom position (tables.map Table.toDraft) = tables := by
  induction tables generalizing position with
  | nil => rfl
  | cons t tables ih =>
      rw [List.map_cons, tablesFrom, build_reopened t position (wf t (by simp)),
        ih (position + 1) fun u member => wf u (by simp [member])]

theorem schema_reopened (schema : Schema) (wf : schema.WellFormed) :
    schema.toDraft.build = .ok schema := by
  refine (schema_build_ok _ _).mpr ⟨?_, ?_, ?_, wf.resolved⟩
  · intro d member
    obtain ⟨t, found, same⟩ := List.mem_map.mp member
    rw [← same]
    exact (wf.tables t found).sound
  · have names : (schema.toDraft.tables.map TableDraft.name) = schema.tableNames := by
      simp [Schema.toDraft, Schema.tableNames, Table.toDraft, Function.comp_def]
    rw [names]
    exact wf.distinct
  · change schema = ⟨SchemaDraft.sortByOrdinal (tablesFrom 0 (schema.tables.map Table.toDraft))⟩
    rw [tables_from_reopened 0 schema.tables wf.tables, sort_of_ordered _ wf.ordered]

theorem validated_iff_well_formed (schema : Schema) : schema.Validated ↔ schema.WellFormed := by
  constructor
  · rintro ⟨draft, placed, built⟩
    exact schema_build_well_formed draft schema placed built
  · intro wf
    refine ⟨schema.toDraft, fun d member => ?_, schema_reopened schema wf⟩
    obtain ⟨t, found, same⟩ := List.mem_map.mp member
    rw [← same]
    exact (wf.tables t found).placed

end SchemaDrift
