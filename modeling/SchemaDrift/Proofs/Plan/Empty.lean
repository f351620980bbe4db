import SchemaDrift.Proofs.Dialect.Image
import SchemaDrift.Proofs.Plan.Convergence
/-!
Plans without operations: there is nothing to do exactly where the two canonical images are
equivalent. Order, and the names of constraints and indexes, never give work.
-/

set_option autoImplicit false

namespace SchemaDrift

open Stages

theorem unmatched_of_same {α κ : Type} (key : α → κ) (same : α → α → Bool)
    (agree : ∀ a b, same a b = true ↔ key a = key b) (old new : List α)
    (equal : tally key old = tally key new) : unmatched same old new = ([], []) := by
  have picks (a b : α) : same a b = true ↔ key b = key a := (agree a b).trans eq_comm
  induction old generalizing new with
  | nil =>
      cases new with
      | nil => rfl
      | cons => simp at equal
  | cons a old ih =>
      obtain ⟨rest, erased⟩ := erase_first_present key (key a) (same a) (picks a) new (by simp [← equal])
      have others := erase_first_tally key (key a) (same a) (picks a) new rest erased
      rw [unmatched, erased]
      refine ih rest ((Multiset.cons_inj_right (key a)).mp ?_)
      rw [← others, ← equal, tally_cons]

theorem map_m_constant {ε α β : Type} (f : α → Except ε β) (b : β) (l : List α)
    (each : ∀ a ∈ l, f a = .ok b) : l.mapM f = .ok (l.map fun _ => b) := by
  rw [map_m_ok, List.forall₂_map_right_iff]
  exact List.forall₂_same.mpr each

/-! ### Tables of one shape -/

section Alike

variable (dialect : Dialect) (current desired : Table) (alike : current.shape = desired.shape)

include alike

theorem alike_has_column (name : String) : current.hasColumn name = desired.hasColumn name := by
  rw [Bool.eq_iff_iff, mem_column_names, mem_column_names]
  exact (alike_column_names current desired alike).mem_iff

theorem alike_column_stage (wf : current.WellFormed) (otherWf : desired.WellFormed) :
    Diff.columnStage dialect current desired = .ok [] := by
  have present (column : Column) (table other : Table) (member : column ∈ table.columns)
      (has : ∀ name, table.hasColumn name = other.hasColumn name) :
      (!other.hasColumn column.name) = false := by
    rw [← has, (mem_column_names table column.name).mpr (List.mem_map_of_mem member), Bool.not_true]
  have drops : Diff.columnDrops current desired = [] := by
    rw [Diff.columnDrops, List.filter_eq_nil_iff.mpr, List.map_nil]
    intro column member
    simp [present column current desired member (alike_has_column current desired alike)]
  have additions : Diff.columnAdditions current desired = [] := by
    rw [Diff.columnAdditions, List.filter_eq_nil_iff.mpr, List.map_nil]
    intro column member
    simp [present column desired current member fun name =>
      (alike_has_column current desired alike name).symm]
  have found := ((found_alike_iff Column.name Column.shape
    (fun c d same => show c.shape.name = d.shape.name by rw [same]) desired.columns current.columns
    otherWf.sound.columnsDistinct wf.sound.columnsDistinct).mpr
      (congrArg TableShape.columns alike.symm)).2
  have changes : desired.columns.mapM (Diff.columnChange dialect current desired.name)
      = .ok (desired.columns.map fun _ => []) := by
    refine map_m_constant _ _ _ fun column member => ?_
    obtain ⟨old, looked, same⟩ := found column member
    rw [Diff.columnChange, show current.column? column.name = some old from looked]
    exact if_pos ((column_agree old column).mpr same.symm)
  rw [Diff.columnStage, changes, drops, additions]
  simp [bind, Except.bind]

theorem alike_table_stages (wf : current.WellFormed) (otherWf : desired.WellFormed) :
    Diff.tableStages dialect current desired = .ok {} := by
  have columns := alike_column_stage dialect current desired alike wf otherWf
  have keys : Diff.keyStages dialect current desired = .ok {} :=
    if_pos (congrArg TableShape.key alike)
  have constraints : Diff.constraintStages current desired = {} := by
    rw [Diff.constraintStages, unmatched_of_same Constraint.shape _ constraint_agree _ _
      (congrArg TableShape.constraints alike)]
    rfl
  have indexes : Diff.indexStages current desired = {} := by
    rw [Diff.indexStages, unmatched_of_same Index.shape _ index_agree _ _
      (congrArg TableShape.indexes alike)]
    rfl
  rw [Diff.tableStages, columns, keys, constraints, indexes]
  rfl

end Alike

/-! ### Schemas of one shape -/

theorem alike_names (a b : Schema)
    (same : tally Table.shape a.tables = tally Table.shape b.tables) (name : String) :
    a.hasTable name = b.hasTable name := by
  have names (schema : Schema) : (↑schema.tableNames : Multiset String)
      = (tally Table.shape schema.tables).map TableShape.name := by
    simp [Schema.tableNames, tally, Function.comp_def, Table.shape]
  have perm : a.tableNames.Perm b.tableNames := by
    refine Multiset.coe_eq_coe.mp ?_
    rw [names, names, same]
  rw [Bool.eq_iff_iff, has_table_iff, has_table_iff]
  exact perm.mem_iff

theorem alike_stages (dialect : Dialect) (source destination : Schema) (wf : source.WellFormed)
    (otherWf : destination.WellFormed)
    (same : tally Table.shape source.tables = tally Table.shape destination.tables) :
    Diff.stages dialect source destination = .ok {} := by
  have names := alike_names source destination same
  have dropped : destination.tables.filter (Diff.droppedNames source destination ·.name) = [] := by
    refine List.filter_eq_nil_iff.mpr fun t _ => ?_
    simp [Diff.droppedNames, names]
  have created : Diff.newTables source destination = [] := by
    refine List.filter_eq_nil_iff.mpr fun t member => ?_
    have present : source.hasTable t.name = true :=
      (has_table_iff source t.name).mpr (List.mem_map_of_mem member)
    simp [← names, present]
  have found := ((found_alike_iff Table.name Table.shape (fun t u equal => (TableShape.mk.inj equal).1)
    source.tables destination.tables wf.distinct otherWf.distinct).mpr same).2
  have common : Diff.commonStages dialect source destination = .ok (source.tables.map fun _ => {}) := by
    refine map_m_constant _ _ _ fun desired member => ?_
    obtain ⟨current, looked, alike⟩ := found desired member
    have inside := List.mem_of_find?_eq_some looked
    rw [show destination.table? desired.name = some current from looked]
    exact alike_table_stages dialect current desired alike.symm (otherWf.tables current inside)
      (wf.tables desired member)
  have order : Diff.creationStages [] = {} := by
    rw [Diff.creationStages, creationOrder, CreationOrder.ofRemaining]
    rfl
  unfold Diff.newTables at created
  unfold Diff.droppedNames at dropped
  rw [Diff.stages, common]
  dsimp only [bind, Except.bind]
  rw [created, dropped, concat_empty, order]
  rfl

theorem diff_of_stages (dialect : Dialect) (source destination S D : Schema) (stages : Stages)
    (sourceImage : dialect.canonicalize source = .ok S)
    (destinationImage : dialect.canonicalize destination = .ok D)
    (staged : Diff.stages dialect S D = .ok stages) :
    diff dialect source destination = .ok { operations := stages.operations } := by
  rw [diff, sourceImage, destinationImage]
  dsimp only [bind, Except.bind, Except.mapError]
  rw [staged]

theorem empty_of_same (dialect : Dialect) (source destination S D : Schema)
    (sourceValid : source.Validated) (destinationValid : destination.Validated)
    (sourceImage : dialect.canonicalize source = .ok S)
    (destinationImage : dialect.canonicalize destination = .ok D)
    (same : tally Table.shape S.tables = tally Table.shape D.tables) :
    diff dialect source destination = .ok {} := by
  have sourceWf := image_well_formed dialect source S sourceValid sourceImage
  have destinationWf := image_well_formed dialect destination D destinationValid destinationImage
  exact diff_of_stages dialect source destination S D {} sourceImage destinationImage
    (alike_stages dialect S D sourceWf destinationWf same)

theorem same_of_empty (dialect : Dialect) (source destination S D : Schema)
    (sourceValid : source.Validated) (destinationValid : destination.Validated)
    (sourceImage : dialect.canonicalize source = .ok S)
    (destinationImage : dialect.canonicalize destination = .ok D)
    (planned : diff dialect source destination = .ok {}) : D.equivalent S = true := by
  have cut := cut_of_diff dialect source destination S D D {} [] [] sourceValid destinationValid
    sourceImage destinationImage planned rfl rfl
  exact done_equivalent dialect S D D [] cut

-- There is nothing to do exactly where the images are equivalent. So a schema needs no change to
-- become itself, or itself in another order and with other names.
theorem empty_plan_iff (dialect : Dialect) (source destination S D : Schema)
    (sourceValid : source.Validated) (destinationValid : destination.Validated)
    (sourceImage : dialect.canonicalize source = .ok S)
    (destinationImage : dialect.canonicalize destination = .ok D) :
    (diff dialect source destination = .ok {} ↔ S.equivalent D = true) ∧
      diff dialect source source = .ok {} ∧
      (source.Rearranges destination → diff dialect source destination = .ok {}) := by
  have sourceWf := (validated_iff_well_formed S).mp
    (canonicalize_validated dialect source S sourceValid sourceImage)
  have destinationWf := (validated_iff_well_formed D).mp
    (canonicalize_validated dialect destination D destinationValid destinationImage)
  refine ⟨⟨fun planned => ?_, fun same => ?_⟩, ?_, fun rearranged => ?_⟩
  · exact equivalent_symm D S destinationWf sourceWf (same_of_empty dialect source destination S D
      sourceValid destinationValid sourceImage destinationImage planned)
  · exact empty_of_same dialect source destination S D sourceValid destinationValid sourceImage
      destinationImage ((schema_equivalent_iff S D sourceWf destinationWf).mp same)
  · exact empty_of_same dialect source source S S sourceValid sourceValid sourceImage sourceImage rfl
  · exact empty_of_same dialect source destination S D sourceValid destinationValid sourceImage
      destinationImage (images_equivalent dialect source destination S D sourceValid destinationValid
        sourceImage destinationImage (rearranged_tally source destination rearranged))

-- Customers with a unique phone number: by an index, and by a constraint of another name.
def Shop.indexed : Schema where
  tables := [{ Shop.customer with
    indexes := [{ Index.ascending "by_phone" ["phone"] with unique := true }] }]

def Shop.constrained : Schema where
  tables := [{ Shop.customer with
    columns := Shop.customer.columns.reverse
    constraints := [Constraint.unique ["phone"]] }]

theorem unique_either_way : diff .mysql Shop.indexed Shop.constrained = .ok {} ∧
    diff .mysql Shop.indexed Shop.indexed = .ok {} := by
  obtain ⟨indexed, first⟩ : ∃ image, Dialect.mysql.canonicalize Shop.indexed = .ok image := ⟨_, rfl⟩
  obtain ⟨constrained, second⟩ : ∃ image, Dialect.mysql.canonicalize Shop.constrained = .ok image :=
    ⟨_, rfl⟩
  have empty := empty_plan_iff .mysql Shop.indexed Shop.constrained _ _
    ⟨Shop.indexed.toDraft, by decide, rfl⟩ ⟨Shop.constrained.toDraft, by decide, rfl⟩ first second
  have same : indexed.equivalent constrained = true := by
    cases first
    cases second
    decide
  exact ⟨empty.1.mpr same, empty.2.1⟩

end SchemaDrift
