import SchemaDrift.Proofs.Schema.Build
import SchemaDrift.Proofs.Schema.Lookup
import SchemaDrift.Proofs.Schema.Shape
/-!
Equivalence of tables and of schemas is equality of their shapes: what is left of them without order,
without the names of constraints and indexes, and without what the database does not see. So it is an
equivalence relation, although each comparison looks for partners on one side only.
-/

set_option autoImplicit false

namespace SchemaDrift

def Column.shape (column : Column) : Column :=
  { column with annotations := [], rawDefinition := none }

structure TableShape where
  name : String
  columns : Multiset Column
  key : List String
  constraints : Multiset Shape
  indexes : Multiset (Bool × List IndexColumn)

def Table.shape (table : Table) : TableShape where
  name := table.name
  columns := tally Column.shape table.columns
  key := table.primaryKeyColumns
  constraints := tally Constraint.shape table.constraints
  indexes := tally Index.shape table.indexes

theorem column_agree (a b : Column) : a.sameDefinition b = true ↔ a.shape = b.shape := by
  simp [Column.sameDefinition, Column.shape, and_assoc]

theorem perm_of_subset {α : Type} (k l : List α) (distinct : k.Nodup) (sub : k ⊆ l)
    (lengths : k.length = l.length) : k.Perm l :=
  (List.subperm_of_subset distinct sub).perm_of_length_le lengths.ge

theorem found_alike_iff {α κ : Type} (name : α → String) (shape : α → κ)
    (named : ∀ a b, shape a = shape b → name a = name b) (k l : List α)
    (distinct : (k.map name).Nodup) (others : (l.map name).Nodup) :
    (k.length = l.length ∧ ∀ a ∈ k, ∃ b, l.find? (name · = name a) = some b ∧ shape a = shape b) ↔
      tally shape k = tally shape l := by
  rw [tally, tally, Multiset.coe_eq_coe]
  constructor
  · rintro ⟨lengths, found⟩
    refine perm_of_subset _ _ ?_ ?_ (by simpa using lengths)
    · refine (List.nodup_map_iff_inj_on (List.Nodup.of_map name distinct)).mpr fun a inA b inB same => ?_
      exact List.inj_on_of_nodup_map distinct inA inB (named a b same)
    · intro s member
      obtain ⟨a, inside, rfl⟩ := List.mem_map.mp member
      obtain ⟨b, looked, same⟩ := found a inside
      exact List.mem_map.mpr ⟨b, List.mem_of_find?_eq_some looked, same.symm⟩
  · intro perm
    refine ⟨by simpa using perm.length_eq, fun a inside => ?_⟩
    obtain ⟨b, member, same⟩ := List.mem_map.mp (perm.subset (List.mem_map_of_mem inside))
    refine ⟨b, ?_, same.symm⟩
    rw [← named b a same]
    exact find_unique name l others b member

theorem table_equivalent_iff (a b : Table) (distinct : a.columnNames.Nodup)
    (others : b.columnNames.Nodup) : a.equivalent b = true ↔ a.shape = b.shape := by
  have columns := found_alike_iff Column.name Column.shape
    (fun c d same => show c.shape.name = d.shape.name by rw [same]) a.columns b.columns distinct others
  simp only [Table.equivalent, Bool.and_eq_true, decide_eq_true_eq, List.all_eq_true,
    Option.any_eq_true, column_agree, Table.column?,
    same_multiset_iff Constraint.shape _ constraint_agree, same_multiset_iff Index.shape _ index_agree]
  rw [Table.shape, Table.shape, TableShape.mk.injEq, ← columns]
  simp only [and_assoc]

theorem alike_column_names (a b : Table) (alike : a.shape = b.shape) :
    a.columnNames.Perm b.columnNames := by
  refine Multiset.coe_eq_coe.mp ?_
  have names (t : Table) : (↑t.columnNames : Multiset String) = t.shape.columns.map Column.name := by
    simp [Table.columnNames, Table.shape, tally, Function.comp_def, Column.shape]
  rw [names, names, alike]

theorem alike_resolved (a b : Schema) (distinct : b.tableNames.Nodup)
    (shapes : tally Table.shape a.tables = tally Table.shape b.tables) (resolved : a.Resolved) :
    b.Resolved := by
  intro u member d own q points
  obtain ⟨t, inside, alike⟩ := alike_member Table.shape a.tables b.tables shapes u member
  obtain ⟨c, listed, same⟩ := alike_member Constraint.shape t.constraints u.constraints
    (congrArg TableShape.constraints alike) d own
  obtain ⟨r, pointed, table, columns⟩ := same_target d c q same.symm points
  obtain ⟨target, there, names⟩ := resolved t inside c listed r pointed
  obtain ⟨found, named⟩ := table_found a r.table target there
  obtain ⟨v, present, turned⟩ := alike_member Table.shape b.tables a.tables shapes.symm target found
  have name : v.name = q.table := ((congrArg TableShape.name turned).trans named).trans table
  refine ⟨v, name ▸ table_of_mem b distinct v present, fun column among => ?_⟩
  exact (alike_column_names v target turned).mem_iff.mpr (names column (columns ▸ among))

theorem schema_shapes_iff (a b : Schema) (distinct : a.tableNames.Nodup) (others : b.tableNames.Nodup)
    (columns : ∀ t ∈ a.tables, t.columnNames.Nodup) (otherColumns : ∀ t ∈ b.tables, t.columnNames.Nodup) :
    a.equivalent b = true ↔ tally Table.shape a.tables = tally Table.shape b.tables := by
  rw [← found_alike_iff Table.name Table.shape (fun t u same => (TableShape.mk.inj same).1) a.tables
    b.tables distinct others]
  simp only [Schema.equivalent, Bool.and_eq_true, decide_eq_true_eq, List.all_eq_true,
    Option.any_eq_true, Schema.table?]
  refine and_congr_right fun _ => forall₂_congr fun t member => exists_congr fun u =>
    and_congr_right fun found => ?_
  exact table_equivalent_iff t u (columns t member) (otherColumns u (List.mem_of_find?_eq_some found))

theorem schema_equivalent_iff (a b : Schema) (wf : a.WellFormed) (otherWf : b.WellFormed) :
    a.equivalent b = true ↔ tally Table.shape a.tables = tally Table.shape b.tables :=
  schema_shapes_iff a b wf.distinct otherWf.distinct
    (fun t member => (wf.tables t member).sound.columnsDistinct)
    (fun t member => (otherWf.tables t member).sound.columnsDistinct)

theorem equivalent_symm (a b : Schema) (wf : a.WellFormed) (otherWf : b.WellFormed)
    (same : a.equivalent b = true) : b.equivalent a = true :=
  (schema_equivalent_iff b a otherWf wf).mpr ((schema_equivalent_iff a b wf otherWf).mp same).symm

theorem equivalent_refl (a : Schema) (wf : a.WellFormed) : a.equivalent a = true :=
  (schema_equivalent_iff a a wf wf).mpr rfl

theorem equivalent_trans (a b c : Schema) (wf : a.WellFormed) (middleWf : b.WellFormed)
    (otherWf : c.WellFormed) (first : a.equivalent b = true) (second : b.equivalent c = true) :
    a.equivalent c = true := by
  rw [schema_equivalent_iff a b wf middleWf] at first
  rw [schema_equivalent_iff b c middleWf otherWf] at second
  rw [schema_equivalent_iff a c wf otherWf]
  exact first.trans second

theorem agree_equivalence {α κ : Type} (key : α → κ) (same : α → α → Bool)
    (agree : ∀ a b, same a b = true ↔ key a = key b) :
    Equivalence fun a b => same a b = true where
  refl a := (agree a a).mpr rfl
  symm {a b} equal := (agree b a).mpr ((agree a b).mp equal).symm
  trans {a b c} first second := (agree a c).mpr (((agree a b).mp first).trans ((agree b c).mp second))

-- Schemas are equivalent as in any equivalence relation. The greedy comparison of lists finds out
-- whether the members can be paired off at all, in whatever order the lists hold them.
theorem equivalent_is_equivalence :
    Equivalence (fun a b : {s : Schema // s.Validated} => a.1.equivalent b.1 = true) ∧
      Equivalence (fun a b : Constraint => a.structurallyEq b = true) ∧
      Equivalence (fun a b : Index => a.structurallyEq b = true) ∧
      (∀ k l : List Constraint, sameMultiset Constraint.structurallyEq k l = true ↔
        Multiset.Rel (fun a b => a.structurallyEq b = true) (↑k : Multiset Constraint) ↑l) ∧
      (∀ k l : List Index, sameMultiset Index.structurallyEq k l = true ↔
        Multiset.Rel (fun a b => a.structurallyEq b = true) (↑k : Multiset Index) ↑l) := by
  have wf (s : {s : Schema // s.Validated}) : s.1.WellFormed := (validated_iff_well_formed s.1).mp s.2
  refine ⟨⟨fun a => ?_, fun {a b} same => ?_, fun {a b c} first second => ?_⟩,
    agree_equivalence Constraint.shape _ constraint_agree,
    agree_equivalence Index.shape _ index_agree,
    same_multiset_rel Constraint.shape _ constraint_agree,
    same_multiset_rel Index.shape _ index_agree⟩
  · exact equivalent_refl a.1 (wf a)
  · exact equivalent_symm a.1 b.1 (wf a) (wf b) same
  · exact equivalent_trans a.1 b.1 c.1 (wf a) (wf b) (wf c) first second

/-! ### Order and names -/

def Constraint.unnamed (constraint : Constraint) : Constraint := { constraint with name := none }

def Index.unnamed (index : Index) : Index := { index with name := "" }

-- The same table but for the order of its parts and the names of constraints and indexes.
structure Table.Rearranges (a b : Table) : Prop where
  name : a.name = b.name
  columns : a.columns.Perm b.columns
  key : a.primaryKey.map Constraint.unnamed = b.primaryKey.map Constraint.unnamed
  constraints : (a.constraints.map Constraint.unnamed).Perm (b.constraints.map Constraint.unnamed)
  indexes : (a.indexes.map Index.unnamed).Perm (b.indexes.map Index.unnamed)

def Schema.Rearranges (a b : Schema) : Prop :=
  ∃ tables, tables.Perm b.tables ∧ List.Forall₂ Table.Rearranges a.tables tables

theorem tally_through {α β κ : Type} (shape : α → κ) (strip : α → β) (of : β → κ)
    (through : ∀ a, of (strip a) = shape a) (k l : List α)
    (perm : (k.map strip).Perm (l.map strip)) : tally shape k = tally shape l := by
  have same (m : List α) : m.map shape = (m.map strip).map of := by
    rw [List.map_map]
    exact List.map_congr_left fun a _ => (through a).symm
  rw [tally, tally, same, same, Multiset.coe_eq_coe]
  exact perm.map of

theorem unnamed_shape (c : Constraint) : c.unnamed.shape = c.shape := rfl

theorem rearranged_shape (a b : Table) (same : a.Rearranges b) : a.shape = b.shape := by
  have keys (t : Table) : t.primaryKeyColumns
      = (t.primaryKey.map Constraint.unnamed).elim [] Constraint.columns := by
    unfold Table.primaryKeyColumns
    cases t.primaryKey <;> rfl
  rw [Table.shape, Table.shape, same.name, keys a, same.key, ← keys b, tally_perm _ same.columns,
    tally_through Constraint.shape Constraint.unnamed _ unnamed_shape _ _ same.constraints,
    tally_through Index.shape Index.unnamed Index.shape (fun _ => rfl) _ _ same.indexes]

theorem rearranged_tally (a b : Schema) (same : a.Rearranges b) :
    tally Table.shape a.tables = tally Table.shape b.tables := by
  obtain ⟨tables, perm, pairs⟩ := same
  rw [← tally_perm Table.shape perm, tally, tally, Multiset.coe_eq_coe]
  refine List.Perm.of_eq ?_
  clear perm
  generalize a.tables = old at pairs
  induction pairs with
  | nil => rfl
  | cons first _ ih => rw [List.map_cons, List.map_cons, rearranged_shape _ _ first, ih]

end SchemaDrift
