import SchemaDrift.Proofs.Plan.Kept
/-!
When what a plan adds bears a name that is taken. Old and new elements are paired by structure, so one
that stays keeps its old name, and the source may use that name for another; nothing else collides.
-/

set_option autoImplicit false

namespace SchemaDrift

open CreationOrder

namespace Operation

def droppedIndex? : Operation → Option Index
  | dropIndex _ index => some index
  | _ => none

def addedIndex? : Operation → Option Index
  | addIndex _ index => some index
  | _ => none

end Operation

def Diff.keptIndexes (current desired : Table) : List Index :=
  let removed := (unmatched Index.structurallyEq current.indexes desired.indexes).1
  current.indexes.filter (· ∉ removed)

theorem total_optional {κ : Type} (amount : Operation → Multiset κ) (f : Operation → Option κ)
    (each : ∀ op, amount op = ↑(f op).toList) (ops : List Operation) :
    total amount ops = ↑(ops.filterMap f) := by
  induction ops with
  | nil => rfl
  | cons op ops ih =>
      rw [total_cons, each, ih]
      cases made : f op with
      | none => rw [List.filterMap_cons_none made, Option.toList_none, Multiset.coe_nil, zero_add]
      | some k => rw [List.filterMap_cons_some made]; rfl

theorem other_keys {α : Type} (key : α → String) (front back whole : List α) (a : α)
    (parts : (↑(front ++ a :: back) : Multiset α) ≤ ↑whole) (distinct : (whole.map key).Nodup) :
    ∀ b ∈ front, key b ≠ key a := by
  have apart : ((front ++ a :: back).map key).Nodup :=
    Multiset.coe_nodup.mp (Multiset.nodup_of_le (Multiset.map_le_map parts)
      (Multiset.coe_nodup.mpr distinct))
  rw [List.map_append, List.map_cons] at apart
  intro b member
  exact (List.nodup_append.mp apart).2.2 _ (List.mem_map_of_mem member) _ List.mem_cons_self

section Stages

variable (dialect : Dialect) (cur des : Table) (stages : Stages)
  (staged : Diff.tableStages dialect cur des = .ok stages)

include staged

theorem dropped_indexes : stages.operations.filterMap Operation.droppedIndex?
    = (unmatched Index.structurallyEq cur.indexes des.indexes).1 := by
  rw [index_operations dialect cur des stages staged Operation.droppedIndex?
    fun op other => by cases op <;> first | rfl | exact absurd rfl other]
  simp [Diff.indexStages, Stages.operations, List.filterMap_map, Function.comp_def,
    Operation.droppedIndex?]

theorem added_indexes : stages.operations.filterMap Operation.addedIndex?
    = (unmatched Index.structurallyEq cur.indexes des.indexes).2 := by
  rw [index_operations dialect cur des stages staged Operation.addedIndex?
    fun op other => by cases op <;> first | rfl | exact absurd rfl other]
  simp [Diff.indexStages, Stages.operations, List.filterMap_map, Function.comp_def,
    Operation.addedIndex?]

theorem kept_and_added (curWf : cur.WellFormed) (desWf : des.WellFormed) (u : Table)
    (front back : List Operation) (whole : stages.operations = front ++ back)
    (run : cur.Run front u) (late : ∀ op ∈ back, 2 ≤ op.stage) :
    (↑u.indexes : Multiset Index)
      = ↑(Diff.keptIndexes cur des) + ↑(front.filterMap Operation.addedIndex?) := by
  have owes := table_stages_owe dialect cur des stages curWf desWf staged
  rw [whole] at owes
  have balance := run_balance Account.indexes cur u curWf front back _ run owes.indexes
  have removed : front.filterMap Operation.droppedIndex?
      = (unmatched Index.structurallyEq cur.indexes des.indexes).1 := by
    rw [← dropped_indexes dialect cur des stages staged, whole, List.filterMap_append]
    have none : back.filterMap Operation.droppedIndex? = [] := by
      refine List.filterMap_eq_nil_iff.mpr fun op member => ?_
      have after := late op member
      cases op with
      | dropIndex => exact absurd after (by simp [Operation.stage])
      | _ => rfl
    rw [none, List.append_nil]
  have sub := (unmatched_sublist Index.structurallyEq cur.indexes des.indexes).1
  have distinct : cur.indexes.Nodup := curWf.sound.indexesDistinct.of_map
  have stays : (↑cur.indexes : Multiset Index) = ↑(Diff.keptIndexes cur des)
      + ↑(unmatched Index.structurallyEq cur.indexes des.indexes).1 := by
    have less : Diff.keptIndexes cur des
        = cur.indexes.diff (unmatched Index.structurallyEq cur.indexes des.indexes).1 :=
      distinct.sdiff_eq_filter.symm
    rw [less, ← Multiset.coe_sub, tsub_add_cancel_of_le (Multiset.coe_le.mpr sub.subperm)]
  rw [total_optional _ Operation.droppedIndex? (by intro op; cases op <;> rfl),
    total_optional _ Operation.addedIndex? (by intro op; cases op <;> rfl), removed] at balance
  change (↑u.indexes : Multiset Index) + _ = ↑cur.indexes + _ at balance
  refine add_right_cancel (b := ↑(unmatched Index.structurallyEq cur.indexes des.indexes).1) ?_
  rw [balance, stays]
  abel

end Stages

theorem gained_of_goal (cur des : Table) :
    (↑(Diff.gained cur des) : Multiset Constraint) ≤ ↑des.constraints := by
  have sub := (unmatched_sublist Constraint.structurallyEq cur.constraints des.constraints).2
  have order : (Diff.gained cur des).Perm
      (unmatched Constraint.structurallyEq cur.constraints des.constraints).2 :=
    List.perm_append_comm.trans (List.filter_append_perm Constraint.isForeignKey _)
  exact Multiset.coe_le.mpr (order.subperm.trans sub.subperm)

-- A table that was created has its own constraints but those that are still deferred.
theorem created_constraints (des u : Table) (pending : String → Bool) (ordinal : Nat)
    (first later : List Constraint) (desWf : des.WellFormed)
    (split : blocking pending des = first ++ later)
    (run : Table.Run { without des (blocking pending des) with ordinal }
      (first.map (.addConstraint des.name)) u) :
    (↑(u.constraints ++ later) : Multiset Constraint) = ↑des.constraints := by
  have keys : ∀ c ∈ first, c.isPrimaryKey = false := by
    intro c member
    have own := foreign_key_filtered des pending c (by rw [split]; simp [member])
    exact desWf.placed.constraints c own.1
  have sorted := (deferred_owe des pending ordinal).sorted
  rw [Diff.deferred, split, List.map_append] at sorted
  have constraints := run_constraints _ u _ run
  rw [fold_constraints _ _ (List.pairwise_append.mp sorted).1, struck_adds, gained_adds _ _ keys,
    List.foldl_nil] at constraints
  rw [constraints, List.append_assoc, ← split]
  change (↑((without des (blocking pending des)).constraints ++ _) : Multiset Constraint) = _
  rw [without_blocking, blocking_filter]
  exact Multiset.coe_eq_coe.mpr (List.perm_append_comm.trans (List.filter_append_perm _ _))

section Cut

variable (dialect : Dialect) (source destination reached : Schema) (front rest : List Operation)

theorem index_taken (n : String) (index : Index)
    (cut : Cut dialect source destination front (.addIndex n index :: rest) reached) :
    ∃ cur des u, destination.table? n = some cur ∧ source.table? n = some des ∧
      reached.table? n = some u ∧
      ((∃ j ∈ u.indexes, j.name = index.name) ↔
        ∃ j ∈ Diff.keptIndexes cur des, j.name = index.name) := by
  obtain ⟨cur, des, u, stages, existed, wanted, found, staged, whole, run, owes⟩ :=
    cut_kept dialect source destination reached front rest _ cut (by simp [Operation.stage])
      (by simp [Operation.stage])
  have curWf := cut.destinationWf.tables cur (table_found destination n cur existed).1
  have desWf := cut.sourceWf.tables des (table_found source n des wanted).1
  refine ⟨cur, des, u, existed, wanted, found, ?_⟩
  have balance := kept_and_added dialect cur des stages staged curWf desWf u _ _ whole run
    (late_rest u des _ _ 2 owes (by simp [Operation.stage]))
  have parts := added_indexes dialect cur des stages staged
  rw [whole, List.filterMap_append, List.filterMap_cons_some (by rfl)] at parts
  have sub := (unmatched_sublist Index.structurallyEq cur.indexes des.indexes).2
  have fresh := other_keys Index.name _ _ des.indexes index
    (parts ▸ Multiset.coe_le.mpr sub.subperm) desWf.sound.indexesDistinct
  have members (j : Index) : j ∈ u.indexes ↔ j ∈ Diff.keptIndexes cur des ∨
      j ∈ (front.filter (·.table = n)).filterMap Operation.addedIndex? := by
    rw [← Multiset.mem_coe, balance, Multiset.mem_add, Multiset.mem_coe, Multiset.mem_coe]
    rfl
  constructor
  · rintro ⟨j, present, same⟩
    rcases (members j).mp present with stays | added
    · exact ⟨j, stays, same⟩
    · exact absurd same (fresh j added)
  · rintro ⟨j, stays, same⟩
    exact ⟨j, (members j).mpr (.inl stays), same⟩

-- When a constraint is added, its table has what was kept and other constraints of the goal.
theorem constraints_before (n : String) (c : Constraint) (other : c.isPrimaryKey = false)
    (cut : Cut dialect source destination front (.addConstraint n c :: rest) reached) :
    ∃ u des gained later, reached.table? n = some u ∧ source.table? n = some des ∧
      u.constraints = (destination.table? n).elim [] (Diff.kept · des) ++ gained ∧
      (↑(gained ++ c :: later) : Multiset Constraint) ≤ ↑des.constraints := by
  have third : 2 ≤ (Operation.addConstraint n c).stage := by
    simp only [Operation.stage]
    split <;> omega
  have tables := table_well_formed dialect source destination reached front _ cut n
  cases cut_next dialect source destination reached front rest _ cut with
  | kept cur des u stages existed wanted found staged whole run owes =>
      have curWf := (tables cur).1 existed
      have desWf := (tables des).2 wanted
      have parts := table_stages_gained dialect cur des stages curWf desWf staged
      rw [whole, List.filterMap_append, List.filterMap_cons_some (gained_other n c other)] at parts
      have balance := kept_and_gained dialect cur des stages curWf desWf staged u _ _ whole run
        (late_rest u des _ _ 2 owes third)
      rw [show destination.table? n = some cur from existed]
      exact ⟨u, des, _, _, found, wanted, balance, parts ▸ gained_of_goal cur des⟩
  | created des u pending ordinal first new wanted found whole run =>
      obtain ⟨first, second, split, rfl, remains⟩ := List.map_eq_append_iff.mp whole
      obtain ⟨d, later, rfl, same, _⟩ := List.map_eq_cons_iff.mp remains
      cases same
      rw [show destination.table? des.name = none from new]
      exact ⟨u, des, u.constraints, later, found, wanted, rfl, le_of_eq (created_constraints des u
        pending ordinal first (c :: later) ((tables des).2 wanted) split run)⟩
  | awaited _ _ _ _ creates => cases creates
  | leaving cur _ _ _ _ own =>
      have stage := leaving_stages dialect _ cur _ own
      omega
  | dropped _ _ _ _ _ drops => cases drops

theorem constraint_taken (n : String) (c : Constraint) (other : c.isPrimaryKey = false)
    (distinct : ∀ t ∈ source.tables, (t.constraints.map (·.effectiveName t.name)).Nodup)
    (cut : Cut dialect source destination front (.addConstraint n c :: rest) reached) :
    ∃ u des, reached.table? n = some u ∧ source.table? n = some des ∧
      ((∃ k ∈ u.constraints, k.effectiveName n = c.effectiveName n) ↔
        ∃ cur, destination.table? n = some cur ∧
          ∃ k ∈ Diff.kept cur des, k.effectiveName n = c.effectiveName n) := by
  obtain ⟨u, des, gained, later, found, wanted, constraints, parts⟩ :=
    constraints_before dialect source destination reached front rest n c other cut
  obtain ⟨member, named⟩ := table_found source n des wanted
  have fresh := other_keys (·.effectiveName n) gained later des.constraints c parts
    (named ▸ distinct des member)
  refine ⟨u, des, found, wanted, ?_⟩
  constructor
  · rintro ⟨k, present, same⟩
    rw [constraints] at present
    rcases List.mem_append.mp present with stays | added
    · cases existed : destination.table? n with
      | none =>
          rw [existed] at stays
          cases stays
      | some cur =>
          rw [existed] at stays
          exact ⟨cur, rfl, k, stays, same⟩
    · exact absurd same (fresh k added)
  · rintro ⟨cur, existed, k, stays, same⟩
    refine ⟨k, ?_, same⟩
    rw [constraints, existed]
    exact List.mem_append.mpr (.inl stays)

end Cut

-- What a plan adds bears a name that is taken exactly when something that stays in place has it.
theorem addition_collides_iff (dialect : Dialect) (source destination S D M : Schema) (plan : Plan)
    (front rest : List Operation) (op : Operation) (sourceValid : source.Validated)
    (destinationValid : destination.Validated) (sourceImage : dialect.canonicalize source = .ok S)
    (destinationImage : dialect.canonicalize destination = .ok D)
    (distinct : ∀ t ∈ S.tables, (t.constraints.map (·.effectiveName t.name)).Nodup)
    (planned : diff dialect source destination = .ok plan)
    (parts : plan.operations = front ++ op :: rest)
    (applied : D.apply dialect.applyRules front = .ok M) :
    (∀ n index, op = .addIndex n index →
      ∃ cur des u, D.table? n = some cur ∧ S.table? n = some des ∧ M.table? n = some u ∧
        ((∃ j ∈ u.indexes, j.name = index.name) ↔
          ∃ j ∈ Diff.keptIndexes cur des, j.name = index.name)) ∧
    ∀ n c, op = .addConstraint n c → c.isPrimaryKey = false →
      ∃ u des, M.table? n = some u ∧ S.table? n = some des ∧
        ((∃ k ∈ u.constraints, k.effectiveName n = c.effectiveName n) ↔
          ∃ cur, D.table? n = some cur ∧
            ∃ k ∈ Diff.kept cur des, k.effectiveName n = c.effectiveName n) := by
  have cut := cut_of_diff dialect source destination S D M plan front (op :: rest) sourceValid
    destinationValid sourceImage destinationImage planned parts applied
  constructor
  · rintro n index rfl
    exact index_taken dialect S D M front rest n index cut
  · rintro n c rfl other
    exact constraint_taken dialect S D M front rest n c other distinct cut

theorem shop_names_are_free : ∃ M u,
    Shop.before.apply Dialect.spanner.applyRules (Shop.plan.operations.take 4) = .ok M ∧
      M.table? "customer" = some u ∧ ¬∃ j ∈ u.indexes, j.name = "by_email" := by
  have reached : ∃ M, Shop.before.apply Dialect.spanner.applyRules (Shop.plan.operations.take 4)
      = .ok M := ⟨_, rfl⟩
  obtain ⟨M, applied⟩ := reached
  obtain ⟨indexes, _⟩ := addition_collides_iff .spanner Shop.after Shop.before Shop.after Shop.before M
    Shop.plan (Shop.plan.operations.take 4) (Shop.plan.operations.drop 5) _ Shop.after_validated
    Shop.before_validated rfl rfl (by decide) Shop.planned rfl applied
  obtain ⟨cur, des, u, existed, wanted, found, taken⟩ := indexes "customer" _ rfl
  have old : Shop.customer = cur := Option.some.inj existed
  have new : Shop.renewed = des := Option.some.inj wanted
  subst old new
  refine ⟨M, u, applied, found, fun collides => ?_⟩
  have stays := taken.mp collides
  revert stays
  decide

/-! ### An index that gives up its name to another -/

namespace Handover

def indexed (indexes : List Index) : Schema where
  tables := [{ name := "t", columns := [Shop.number "a", Shop.number "b"], indexes, ordinal := 0 }]

def before : Schema := indexed [Index.ascending "x" ["a"]]

def after : Schema := indexed [Index.ascending "y" ["a"], Index.ascending "x" ["b"]]

def plan : Plan where
  operations := [.addIndex "t" (Index.ascending "x" ["b"])]

end Handover

theorem handover_collides : Handover.after.Validated ∧ Handover.before.Validated ∧
    Dialect.postgres.canonicalize Handover.before = .ok Handover.before ∧
    diff .postgres Handover.after Handover.before = .ok Handover.plan ∧
    (∃ u, Handover.before.table? "t" = some u ∧ ∃ j ∈ u.indexes, j.name = "x") ∧
    Handover.before.apply Dialect.postgres.applyRules Handover.plan.operations
      = .error (.validation "t" (.duplicateIndex "x")) :=
  ⟨⟨Handover.after.toDraft, by decide, rfl⟩, ⟨Handover.before.toDraft, by decide, rfl⟩, rfl, by cbv,
    ⟨_, rfl, by decide⟩, rfl⟩

end SchemaDrift
