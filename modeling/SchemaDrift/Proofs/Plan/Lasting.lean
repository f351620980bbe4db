import SchemaDrift.Proofs.Plan.Collision
/-!
What outlasts the drops of a plan. At any time a table that the plan found has what lasts of it, what
is still to be dropped, and what has been added so far.
-/

set_option autoImplicit false

namespace SchemaDrift

open CreationOrder

namespace Diff

def pared (current desired : Table) : Table :=
  { current with
    primaryKey := if current.primaryKeyColumns = desired.primaryKeyColumns then current.primaryKey
      else none
    constraints := kept current desired
    indexes := keptIndexes current desired }

def lasting (dialect : Dialect) (source destination : Schema) (current : Table) : Table :=
  match source.table? current.name with
  | some desired => pared current desired
  | none => stripped dialect (droppedNames source destination) current

-- The schema when all keys, constraints and indexes have been dropped, and nothing else yet.
def midway (dialect : Dialect) (source destination : Schema) : Schema where
  tables := destination.tables.map (lasting dialect source destination)

end Diff

section Pared

variable (cur des : Table)

theorem strike_tally (l cs : List Constraint)
    (present : tally Constraint.shape l ≤ tally Constraint.shape cs) :
    tally Constraint.shape (l.foldl strike cs) + tally Constraint.shape l
      = tally Constraint.shape cs := by
  induction l generalizing cs with
  | nil => simp
  | cons c l ih =>
      rw [tally_cons] at present ⊢
      have member : c.shape ∈ tally Constraint.shape cs :=
        Multiset.mem_of_le present (Multiset.mem_cons_self _ _)
      obtain ⟨rest, erased⟩ := erase_first_present Constraint.shape c.shape _
        (constraint_agree · c) cs member
      have balance := erase_first_tally Constraint.shape c.shape _ (constraint_agree · c) cs rest erased
      have struck : strike cs c = rest := by rw [strike, erased, Option.getD_some]
      rw [balance, Multiset.cons_le_cons_iff] at present
      rw [List.foldl_cons, struck, Multiset.add_cons, ih rest present, balance]

theorem strike_sublist (l cs : List Constraint) : (l.foldl strike cs).Sublist cs := by
  induction l generalizing cs with
  | nil => exact List.Sublist.refl _
  | cons c l ih =>
      refine (ih (strike cs c)).trans ?_
      rw [strike]
      cases erased : eraseFirst? (·.structurallyEq c) cs with
      | none => exact List.Sublist.refl _
      | some rest => exact erase_first_sublist _ _ _ erased

theorem kept_tally : tally Constraint.shape (Diff.kept cur des)
      + tally Constraint.shape
        (unmatched Constraint.structurallyEq cur.constraints des.constraints).1
    = tally Constraint.shape cur.constraints := by
  have sub := (unmatched_sublist Constraint.structurallyEq cur.constraints des.constraints).1
  have order := tally_filter Constraint.shape Constraint.isForeignKey
    (unmatched Constraint.structurallyEq cur.constraints des.constraints).1
  rw [← tally_append] at order
  rw [← order]
  exact strike_tally _ _ (order.trans_le (tally_sublist _ sub))

theorem kept_indexes_balance (wf : cur.WellFormed) : (↑(Diff.keptIndexes cur des) : Multiset Index)
    + ↑(unmatched Index.structurallyEq cur.indexes des.indexes).1 = ↑cur.indexes := by
  have sub := (unmatched_sublist Index.structurallyEq cur.indexes des.indexes).1
  have less : Diff.keptIndexes cur des
      = cur.indexes.diff (unmatched Index.structurallyEq cur.indexes des.indexes).1 :=
    wf.sound.indexesDistinct.of_map.sdiff_eq_filter.symm
  rw [less, ← Multiset.coe_sub, tsub_add_cancel_of_le (Multiset.coe_le.mpr sub.subperm)]

theorem pared_well_formed (wf : cur.WellFormed) : (Diff.pared cur des).WellFormed := by
  have constraints := strike_sublist ((unmatched Constraint.structurallyEq cur.constraints
    des.constraints).1.filter Constraint.isForeignKey ++ (unmatched Constraint.structurallyEq
      cur.constraints des.constraints).1.filter (!·.isForeignKey)) cur.constraints
  have indexes : (Diff.keptIndexes cur des).Sublist cur.indexes := List.filter_sublist
  by_cases same : cur.primaryKeyColumns = des.primaryKeyColumns
  · have whole : Diff.pared cur des
        = { cur with constraints := Diff.kept cur des, indexes := Diff.keptIndexes cur des } := by
      rw [Diff.pared, if_pos same]
    rw [whole]
    exact fewer_well_formed cur _ _ wf constraints indexes
  · have keyless : (Diff.pared cur des).primaryKey = none := by rw [Diff.pared, if_neg same]
    have draft : (Diff.pared cur des).toDraft = { cur.toDraft with
        primaryKeys := [], constraints := Diff.kept cur des, indexes := Diff.keptIndexes cur des } := by
      simp only [Table.toDraft, keyless]
      rfl
    refine ⟨?_, ?_, fun c _ inKey => ?_⟩
    · rw [draft]
      exact sound_fewer cur.toDraft [] _ _ wf.sound (List.nil_sublist _) constraints indexes
    · rw [draft]
      exact ⟨by simp, fun c member => wf.placed.constraints c (constraints.subset member)⟩
    · simp [Table.primaryKeyColumns, keyless] at inKey

end Pared

/-! ### What a plan drops of a table -/

theorem total_stages {κ : Type} (amount : Operation → Multiset κ) (a b : Stages) :
    total amount (a ++ b).operations = total amount a.operations + total amount b.operations := by
  rw [← total_append]
  exact ((operations_append a b).map amount).sum_eq

theorem total_apart {κ ι : Type} (account : Account κ ι) (ops : List Operation) (subject : Subject)
    (own : ∀ op ∈ ops, op.subject = subject) (other : account.subject ≠ subject) :
    total account.dropped ops = 0 :=
  total_empty _ ops fun op member => (account.apart op (own op member ▸ other.symm)).1

section Made

variable (n : String)

theorem drops_shapes (l : List Constraint) :
    total Operation.droppedShapes (l.map (Operation.dropConstraint n)) = tally Constraint.shape l :=
  total_map _ _ Constraint.shape (fun _ => rfl) l

theorem drops_indexes (l : List Index) :
    total Operation.droppedIndexes (l.map (Operation.dropIndex n)) = ↑l := by
  rw [total_map Operation.droppedIndexes (Operation.dropIndex n) id (fun _ => rfl) l, tally, List.map_id]

theorem adds_no_drops (l : List Constraint) (k : List Index) :
    total Operation.droppedShapes (l.map (Operation.addConstraint n)) = 0 ∧
      total Operation.droppedIndexes (k.map (Operation.addIndex n)) = 0 := by
  constructor
  · refine total_empty _ _ fun op member => ?_
    obtain ⟨c, _, rfl⟩ := List.mem_map.mp member
    rfl
  · refine total_empty _ _ fun op member => ?_
    obtain ⟨index, _, rfl⟩ := List.mem_map.mp member
    rfl

end Made

section Kept

variable (dialect : Dialect) (cur des : Table) (stages : Stages)
  (staged : Diff.tableStages dialect cur des = .ok stages)

theorem key_stages_dropped (keys : Stages) (keyed : Diff.keyStages dialect cur des = .ok keys) :
    tally Constraint.shape (Diff.pared cur des).primaryKey.toList
      + total Operation.droppedShapes keys.operations
      = tally Constraint.shape cur.primaryKey.toList := by
  unfold Diff.keyStages at keyed
  by_cases same : cur.primaryKeyColumns = des.primaryKeyColumns
  · rw [if_pos same] at keyed
    cases keyed
    rw [Diff.pared, if_pos same]
    exact add_zero _
  · rw [if_neg same] at keyed
    split at keyed
    · cases keyed
      rw [Diff.pared, if_neg same]
      simp only [Stages.operations, List.append_nil, List.nil_append, total_append, drops_shapes,
        (adds_no_drops des.name des.primaryKey.toList []).1, Option.toList_none, tally_nil, zero_add,
        add_zero]
    · cases keyed

theorem constraint_stages_dropped : total Operation.droppedShapes
      (Diff.constraintStages cur des).operations
    = tally Constraint.shape
      (unmatched Constraint.structurallyEq cur.constraints des.constraints).1 := by
  simp only [Diff.constraintStages, Stages.operations, List.append_nil, total_append, drops_shapes,
    (adds_no_drops des.name _ []).1, add_zero]
  exact tally_filter _ _ _

theorem index_stages_dropped : total Operation.droppedIndexes (Diff.indexStages cur des).operations
    = ↑(unmatched Index.structurallyEq cur.indexes des.indexes).1 := by
  simp only [Diff.indexStages, Stages.operations, List.append_nil, List.nil_append, total_append,
    drops_indexes, (adds_no_drops des.name [] _).2, add_zero]

include staged

theorem pared_shapes : tally Constraint.shape (Diff.pared cur des).declared
    + total Operation.droppedShapes stages.operations = tally Constraint.shape cur.declared := by
  obtain ⟨columnChanges, keys, columns, keyed, rfl⟩ := table_stages_ok dialect cur des stages staged
  have columnPart := total_apart Account.shapes ({ columnChanges } : Stages).operations .column
    (fun op member => stage_three_subject op
      (column_stage_turns dialect cur des _ columns op (by simpa [Stages.operations] using member)).1)
    (by decide)
  have indexPart := total_apart Account.shapes _ .index (index_stages_subject cur des) (by decide)
  have keyPart := key_stages_dropped dialect cur des keys keyed
  have others := kept_tally cur des
  simp only [Account.shapes] at columnPart indexPart
  simp only [total_stages, columnPart, indexPart, constraint_stages_dropped, zero_add, add_zero,
    Table.declared, tally_append, ← keyPart, ← others]
  change _ + tally _ (Diff.kept cur des) + _ = _
  abel

theorem pared_indexes (wf : cur.WellFormed) : (↑(Diff.pared cur des).indexes : Multiset Index)
    + total Operation.droppedIndexes stages.operations = ↑cur.indexes := by
  obtain ⟨columnChanges, keys, columns, keyed, rfl⟩ := table_stages_ok dialect cur des stages staged
  have columnPart := total_apart Account.indexes ({ columnChanges } : Stages).operations .column
    (fun op member => stage_three_subject op
      (column_stage_turns dialect cur des _ columns op (by simpa [Stages.operations] using member)).1)
    (by decide)
  have keyPart := total_apart Account.indexes _ .constraint
    (key_stages_subject dialect cur des keys keyed) (by decide)
  have constraintPart := total_apart Account.indexes _ .constraint (constraint_stages_subject cur des)
    (by decide)
  simp only [Account.indexes] at columnPart keyPart constraintPart
  simp only [total_stages, columnPart, keyPart, constraintPart, index_stages_dropped, zero_add]
  exact kept_indexes_balance cur des wf

end Kept

section Leaving

variable (dialect : Dialect) (dropped : String → Bool) (cur : Table)

theorem stripped_shapes : tally Constraint.shape (Diff.stripped dialect dropped cur).declared
    + total Operation.droppedShapes (Diff.leaving dialect dropped cur)
      = tally Constraint.shape cur.declared := by
  have indexes := total_apart Account.shapes _ .index
    (fun op member => (leaving_indexes dialect dropped cur op member).1) (by decide)
  simp only [Account.shapes] at indexes
  rw [Diff.leaving, total_append, drops_shapes, indexes, add_zero, Table.declared, Table.declared,
    tally_append, tally_append, ← without_tally dropped cur]
  change tally _ cur.primaryKey.toList + tally _ (without cur (blocking dropped cur)).constraints + _ = _
  abel

theorem stripped_indexes : (↑(Diff.stripped dialect dropped cur).indexes : Multiset Index)
    + total Operation.droppedIndexes (Diff.leaving dialect dropped cur) = ↑cur.indexes := by
  have keys := total_apart Account.indexes _ .constraint
    (fun op member => (leaving_keys dialect dropped cur op member).1) (by decide)
  simp only [Account.indexes] at keys
  rw [Diff.leaving, total_append, keys, zero_add, Diff.stripped]
  cases dialect.dropsIndexesWithTable with
  | true => simp
  | false => simp [drops_indexes]

end Leaving

/-! ### What a table has at a cut of the plan -/

-- What a table that was `cur` has of an account when the front of its operations is done and the
-- back is to come; `base` is what all drops leave of it.
structure Account.Lasts {κ ι : Type} (account : Account κ ι) (cur base now : Table)
    (front back : List Operation) : Prop where
  before : account.state now + total account.dropped front
    = account.state cur + total account.added front
  after : account.state now
    = account.state base + total account.dropped back + total account.added front

theorem lasts_of_run {κ ι : Type} (account : Account κ ι) (cur base u : Table)
    (front back : List Operation) (goal : Multiset ι) (wf : cur.WellFormed) (run : cur.Run front u)
    (reaches : account.Reaches (account.state cur) (front ++ back) goal)
    (whole : account.state base + total account.dropped (front ++ back) = account.state cur) :
    account.Lasts cur base u front back := by
  have balance := run_balance account cur u wf front back goal run reaches
  refine ⟨balance, add_right_cancel (b := total account.dropped front) ?_⟩
  rw [balance, ← whole, total_append]
  abel

section Cut

variable (dialect : Dialect) (source destination reached : Schema) (front back : List Operation)
  (cut : Cut dialect source destination front back reached)

include cut

theorem cut_lasting (n : String) (cur u : Table) (existed : destination.table? n = some cur)
    (found : reached.table? n = some u) :
    Account.shapes.Lasts cur (Diff.lasting dialect source destination cur) u
        (front.filter (·.table = n)) (back.filter (·.table = n)) ∧
      Account.indexes.Lasts cur (Diff.lasting dialect source destination cur) u
        (front.filter (·.table = n)) (back.filter (·.table = n)) := by
  have progress := cut_progress dialect source destination reached front back cut n
  obtain ⟨inside, named⟩ := table_found destination n cur existed
  have curWf := cut.destinationWf.tables cur inside
  have desWf := (table_well_formed dialect source destination reached front back cut n · |>.2)
  rw [Diff.lasting, named]
  rw [existed, found] at progress
  generalize front.filter (·.table = n) = done at progress
  generalize back.filter (·.table = n) = owed at progress
  generalize source.table? n = after at progress desWf
  cases progress with
  | kept _ des _ stages _ _ staged whole run owes =>
      have start := table_stages_owe dialect cur des stages curWf (desWf des rfl) staged
      have shapes := pared_shapes dialect cur des stages staged
      have indexes := pared_indexes dialect cur des stages staged curWf
      rw [whole] at start shapes indexes
      exact ⟨lasts_of_run _ cur _ u done owed _ curWf run start.shapes shapes,
        lasts_of_run _ cur _ u done owed _ curWf run start.indexes indexes⟩
  | leaving _ _ _ owed whole run owes =>
      have start := leaving_owe dialect (Diff.droppedNames source destination) cur
      have shapes := stripped_shapes dialect (Diff.droppedNames source destination) cur
      have indexes := stripped_indexes dialect (Diff.droppedNames source destination) cur
      rw [whole] at start shapes indexes
      -- The drop of the table itself counts on neither account.
      have last {κ ι : Type} (account : Account κ ι) (base : Table) (apart : account.subject ≠ .table)
          (lasts : account.Lasts cur base u done owed) :
          account.Lasts cur base u done (owed ++ [.dropTable cur.name]) := by
        refine ⟨lasts.before, ?_⟩
        rw [total_append,
          total_apart account [.dropTable cur.name] .table (by simp [Operation.subject]) apart, add_zero]
        exact lasts.after
      exact ⟨last _ _ (by decide) (lasts_of_run _ cur _ u done owed _ curWf run start.shapes shapes),
        last _ _ (by decide) (lasts_of_run _ cur _ u done owed _ curWf run start.indexes indexes)⟩

end Cut

end SchemaDrift
