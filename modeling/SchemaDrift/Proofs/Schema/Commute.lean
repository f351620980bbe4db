import SchemaDrift.Proofs.Schema.Apply
import SchemaDrift.Proofs.Schema.Shape
/-!
Operations on different tables commute. Unless a table or a foreign key comes or goes, all that an
operation depends on is its own table and the columns of it that foreign keys point at, and a change
of another table leaves both as they were.
-/

set_option autoImplicit false

namespace SchemaDrift

-- Neither a table nor a foreign key comes or goes.
structure Operation.Local (op : Operation) : Prop where
  inPlace : op.inPlace = true
  plain : op.foreignKey? = none

namespace Schema

def foreignKeys (schema : Schema) : List Constraint := schema.tables.flatMap Table.foreignKeys

def PointsAt (schema : Schema) (table column : String) : Prop :=
  ∃ c ∈ schema.foreignKeys, ∃ r, c.reference? = some r ∧ r.table = table ∧ column ∈ r.columns

structure Alters (schema : Schema) (op : Operation) (next : Table) : Prop where
  becomes : ∃ t, schema.table? op.table = some t ∧ t.Becomes op next
  pointed : ∀ column, schema.PointsAt op.table column → column ∈ next.columnNames

end Schema

/-! ### Foreign keys stay -/

theorem mem_foreign_keys (schema : Schema) (c : Constraint) : c ∈ schema.foreignKeys ↔
    ∃ t ∈ schema.tables, c ∈ t.constraints ∧ c.isForeignKey = true := by
  simp only [Schema.foreignKeys, Table.foreignKeys, List.mem_flatMap, List.mem_filter]

theorem erased_foreign_keys (c : Constraint) (l rest : List Constraint)
    (plain : c.isForeignKey = false) (erased : eraseFirst? (·.structurallyEq c) l = some rest) :
    rest.filter Constraint.isForeignKey = l.filter Constraint.isForeignKey := by
  obtain ⟨front, d, back, rfl, rfl, picked, _⟩ := erase_first_some _ _ _ erased
  have other : d.isForeignKey = false := by
    rw [← shape_foreign_key, (constraint_agree d c).mp picked, shape_foreign_key, plain]
  simp [other]

theorem changed_foreign_keys (draft next : TableDraft) (op : Operation)
    (plain : op.foreignKey? = none) (changed : draft.Changed op next) :
    next.constraints.filter Constraint.isForeignKey
      = draft.constraints.filter Constraint.isForeignKey := by
  cases changed with
  | untouched | addColumn | dropColumn | alterColumn | addKey | dropKey | addIndex | dropIndex => rfl
  | addConstraint table c other =>
      have own : c.isForeignKey = false := by simpa [Operation.foreignKey?] using plain
      simp [own]
  | dropConstraint table c rest other erased =>
      have own : c.isForeignKey = false := by simpa [Operation.foreignKey?] using plain
      exact erased_foreign_keys c _ rest own erased

theorem becomes_foreign_keys (t u : Table) (op : Operation) (plain : op.foreignKey? = none)
    (becomes : t.Becomes op u) : u.foreignKeys = t.foreignKeys := by
  obtain ⟨draft, changed, _, rfl⟩ := becomes
  exact changed_foreign_keys t.toDraft draft op plain changed

section Replaced

variable (schema : Schema) (t u : Table) (wf : schema.WellFormed)
  (found : schema.table? u.name = some t) (same : u.foreignKeys = t.foreignKeys)

include wf found same

theorem with_table_foreign_keys : (schema.withTable u).foreignKeys = schema.foreignKeys := by
  unfold Schema.foreignKeys Schema.withTable
  rw [List.flatMap_map]
  refine List.flatMap_congr fun s member => ?_
  by_cases own : s.name = u.name
  · rw [if_pos own, same, table_unique schema wf.distinct u.name t s found member own]
  · rw [if_neg own]

theorem with_table_points_at (table column : String) :
    (schema.withTable u).PointsAt table column ↔ schema.PointsAt table column := by
  unfold Schema.PointsAt
  rw [with_table_foreign_keys schema t u wf found same]

theorem with_table_resolved_iff : (schema.withTable u).Resolved ↔
    ∀ column, schema.PointsAt u.name column → column ∈ u.columnNames := by
  have keys := with_table_foreign_keys schema t u wf found same
  constructor
  · rintro resolved column ⟨c, own, r, points, target, listed⟩
    obtain ⟨s, member, inside, _⟩ := (mem_foreign_keys _ c).mp (keys ▸ own)
    obtain ⟨v, there, columns⟩ := resolved s member c inside r points
    rw [target, with_table_lookup, if_pos rfl, found] at there
    cases there
    exact columns column listed
  · intro pointed s member c inside r points
    have listed : c ∈ (schema.withTable u).foreignKeys :=
      (mem_foreign_keys _ c).mpr ⟨s, member, inside, by simp [Constraint.isForeignKey, points]⟩
    rw [keys] at listed
    obtain ⟨before, old, own, _⟩ := (mem_foreign_keys _ c).mp listed
    exact with_table_resolves schema t u r found (wf.resolved before old c own r points)
      fun target name names _ => pointed name ⟨c, listed, r, points, target, names⟩

end Replaced

/-! ### One operation -/

theorem local_references (op : Operation) (own : op.Local) : op.newReferences = [] := by
  have plain := own.plain
  cases op with
  | createTable => cases own.inPlace
  | addConstraint table c =>
      have other : c.isForeignKey = false := by simpa [Operation.foreignKey?] using plain
      have points : c.reference? = none := by simpa [Constraint.isForeignKey] using other
      rw [Operation.newReferences, points, Option.toList_none]
  | _ => rfl

theorem local_resolved_iff (schema : Schema) (t u : Table) (op : Operation) (wf : schema.WellFormed)
    (own : op.Local) (found : schema.table? op.table = some t) (becomes : t.Becomes op u) :
    (schema.withTable u).Resolved ↔
      ∀ column, schema.PointsAt op.table column → column ∈ u.columnNames := by
  have named := becomes_named schema t u op wf found becomes
  rw [← named] at found ⊢
  exact with_table_resolved_iff schema t u wf found (becomes_foreign_keys t u op own.plain becomes)

theorem local_step_iff (rules : ApplyRules) (schema next : Schema) (op : Operation)
    (wf : schema.WellFormed) (own : op.Local) :
    schema.applyOne rules op = .ok next ↔ ∃ u, schema.Alters op u ∧ next = schema.withTable u := by
  rw [apply_one_iff rules schema next op wf (in_place_payload op own.inPlace), local_references op own]
  constructor
  · rintro ⟨step, resolved, _⟩
    cases step with
    | create | drop => cases own.inPlace
    | change _ t u _ found becomes =>
        exact ⟨u, ⟨⟨t, found, becomes⟩,
          (local_resolved_iff schema t u op wf own found becomes).mp resolved⟩, rfl⟩
  · rintro ⟨u, ⟨⟨t, found, becomes⟩, pointed⟩, rfl⟩
    exact ⟨.change op t u own.inPlace found becomes,
      (local_resolved_iff schema t u op wf own found becomes).mpr pointed, by simp⟩

theorem alters_elsewhere (schema : Schema) (a b : Operation) (u v : Table) (wf : schema.WellFormed)
    (own : a.Local) (apart : a.table ≠ b.table) (first : schema.Alters a u) :
    (schema.withTable u).Alters b v ↔ schema.Alters b v := by
  obtain ⟨t, found, becomes⟩ := first.becomes
  have named := becomes_named schema t u a wf found becomes
  have looked : (schema.withTable u).table? b.table = schema.table? b.table := by
    rw [with_table_lookup, if_neg fun hit => apart (hit.trans named).symm]
  have pointed := with_table_points_at schema t u wf (named.symm ▸ found)
    (becomes_foreign_keys t u a own.plain becomes) b.table
  constructor
  · rintro ⟨changes, kept⟩
    exact ⟨looked ▸ changes, fun column points => kept column ((pointed column).mpr points)⟩
  · rintro ⟨changes, kept⟩
    exact ⟨looked.symm ▸ changes, fun column points => kept column ((pointed column).mp points)⟩

/-! ### Two operations -/

section Pair

variable (rules : ApplyRules) (schema result : Schema) (a b : Operation) (wf : schema.WellFormed)
  (first : a.Local) (second : b.Local) (apart : a.table ≠ b.table)

include wf first second apart

-- Whether both succeed, and what they come to, does not depend on which of them is first.
theorem local_pair_iff : schema.apply rules [a, b] = .ok result ↔
    ∃ u v, schema.Alters a u ∧ schema.Alters b v ∧
      result = (schema.withTable u).withTable v := by
  rw [apply_cons_ok]
  simp only [apply_single_ok]
  constructor
  · rintro ⟨next, begun, ended⟩
    have nextWf := apply_one_well_formed rules schema next a wf (in_place_payload a first.inPlace) begun
    obtain ⟨u, alters, rfl⟩ := (local_step_iff rules schema next a wf first).mp begun
    obtain ⟨v, later, rfl⟩ := (local_step_iff rules _ result b nextWf second).mp ended
    exact ⟨u, v, alters, (alters_elsewhere schema a b u v wf first apart alters).mp later, rfl⟩
  · rintro ⟨u, v, alters, later, rfl⟩
    have begun := (local_step_iff rules schema _ a wf first).mpr ⟨u, alters, rfl⟩
    have nextWf := apply_one_well_formed rules schema _ a wf (in_place_payload a first.inPlace) begun
    exact ⟨_, begun, (local_step_iff rules _ _ b nextWf second).mpr
      ⟨v, (alters_elsewhere schema a b u v wf first apart alters).mpr later, rfl⟩⟩

theorem local_pair_swap (swapped : schema.apply rules [a, b] = .ok result) :
    schema.apply rules [b, a] = .ok result := by
  obtain ⟨u, v, alters, later, rfl⟩ :=
    (local_pair_iff rules schema result a b wf first second apart).mp swapped
  obtain ⟨t, found, becomes⟩ := alters.becomes
  obtain ⟨s, there, turns⟩ := later.becomes
  have names : u.name ≠ v.name := by
    rw [becomes_named schema t u a wf found becomes, becomes_named schema s v b wf there turns]
    exact apart
  exact (local_pair_iff rules schema _ b a wf second first apart.symm).mpr
    ⟨v, u, later, alters, with_table_comm schema u v names⟩

end Pair

/-! ### Whole runs -/

inductive Reordered : List Operation → List Operation → Prop
  | refl (ops : List Operation) : Reordered ops ops
  | swap (a b : Operation) (ops : List Operation) (first : a.Local) (second : b.Local)
      (apart : a.table ≠ b.table) : Reordered (a :: b :: ops) (b :: a :: ops)
  | cons (op : Operation) {ops others : List Operation} (rest : Reordered ops others) :
      Reordered (op :: ops) (op :: others)
  | trans {ops middle others : List Operation} (first : Reordered ops middle)
      (second : Reordered middle others) : Reordered ops others

theorem reordered_perm (ops others : List Operation) (reordered : Reordered ops others) :
    ops.Perm others := by
  induction reordered with
  | refl => exact .refl _
  | swap a b ops => exact .swap b a ops
  | cons op _ ih => exact ih.cons op
  | trans _ _ front back => exact front.trans back

theorem reordered_symm (ops others : List Operation) (reordered : Reordered ops others) :
    Reordered others ops := by
  induction reordered with
  | refl => exact .refl _
  | swap a b ops first second apart => exact .swap b a ops second first apart.symm
  | cons op _ ih => exact .cons op ih
  | trans _ _ front back => exact .trans back front

theorem reordered_run (rules : ApplyRules) (schema result : Schema) (ops others : List Operation)
    (reordered : Reordered ops others) (wf : schema.WellFormed) (payload : ∀ op ∈ ops, op.WellFormed)
    (applied : schema.apply rules ops = .ok result) : schema.apply rules others = .ok result := by
  induction reordered generalizing schema with
  | refl => exact applied
  | swap a b ops first second apart =>
      obtain ⟨between, begun, rest⟩ := (apply_append_ok schema result rules [a, b] ops).mp applied
      exact (apply_append_ok schema result rules [b, a] ops).mpr
        ⟨between, local_pair_swap rules schema between a b wf first second apart begun, rest⟩
  | cons op _ ih =>
      obtain ⟨next, begun, rest⟩ := (apply_cons_ok _ _ _ _ _).mp applied
      have nextWf := apply_one_well_formed rules schema next op wf (payload op (by simp)) begun
      exact (apply_cons_ok _ _ _ _ _).mpr
        ⟨next, begun, ih next nextWf (fun o member => payload o (by simp [member])) rest⟩
  | trans front _ first second =>
      have members := (reordered_perm _ _ front).symm.subset
      exact second schema wf (fun o member => payload o (members member))
        (first schema wf payload applied)

theorem apart_operations_commute (rules : ApplyRules) (schema result : Schema) (a b : Operation)
    (valid : schema.Validated) (first : a.Local) (second : b.Local) (apart : a.table ≠ b.table) :
    schema.apply rules [a, b] = .ok result ↔ schema.apply rules [b, a] = .ok result := by
  have wf := (validated_iff_well_formed schema).mp valid
  have swapped : Reordered [a, b] [b, a] := .swap a b [] first second apart
  have payload (o : Operation) (member : o ∈ [a, b]) : o.WellFormed := by
    rcases List.mem_pair.mp member with rfl | rfl
    · exact in_place_payload _ first.inPlace
    · exact in_place_payload _ second.inPlace
  constructor
  · exact reordered_run rules schema result [a, b] [b, a] swapped wf payload
  · exact reordered_run rules schema result [b, a] [a, b] (reordered_symm _ _ swapped) wf
      fun o member => payload o ((reordered_perm _ _ swapped).mem_iff.mpr member)

-- Items point at their shelf by its number, and both ends of the foreign key are widened.
namespace Warehouse

def number (base : BaseType) : Column := { name := "shelf_number", type := { base } }

def schema (shelf item : BaseType) : Schema where
  tables :=
    [{ name := "shelf"
       columns := [number shelf]
       primaryKey := some (.primaryKey ["shelf_number"])
       ordinal := 0 },
      { name := "item"
        columns := [number item]
        constraints := [.foreignKey ["shelf_number"] { table := "shelf", columns := ["shelf_number"] }]
        ordinal := 1 }]

def widen (table : String) : Operation := .alterColumnType table (number .integer) (number .bigInt)

end Warehouse

theorem warehouse_widens_either_way :
    (Warehouse.schema .integer .integer).Validated ∧
      (Warehouse.widen "shelf").Local ∧ (Warehouse.widen "item").Local ∧
      (Warehouse.schema .integer .integer).apply {} [Warehouse.widen "shelf", Warehouse.widen "item"]
        = .ok (Warehouse.schema .bigInt .bigInt) ∧
      (Warehouse.schema .integer .integer).apply {} [Warehouse.widen "item", Warehouse.widen "shelf"]
        = .ok (Warehouse.schema .bigInt .bigInt) := by
  have valid : (Warehouse.schema .integer .integer).Validated :=
    ⟨(Warehouse.schema .integer .integer).toDraft, by decide, rfl⟩
  have own (table : String) : (Warehouse.widen table).Local := ⟨rfl, rfl⟩
  exact ⟨valid, own "shelf", own "item", rfl, (apart_operations_commute {} _ _ (Warehouse.widen "shelf")
    (Warehouse.widen "item") valid (own "shelf") (own "item") (by decide)).mp rfl⟩

end SchemaDrift
