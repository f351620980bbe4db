import SchemaDrift.Proofs.Plan.Part
import SchemaDrift.Proofs.Schema.Run
/-!
A plan cut in two: how far each table has come when the first part is done, and what it owes.
-/

set_option autoImplicit false

namespace SchemaDrift

open CreationOrder

def Diff.stripped (dialect : Dialect) (dropped : String → Bool) (table : Table) : Table :=
  { without table (blocking dropped table) with
    indexes := if dialect.dropsIndexesWithTable then table.indexes else [] }

theorem without_sublist (table : Table) (split : List Constraint) :
    (without table split).constraints.Sublist table.constraints :=
  List.filter_sublist

theorem without_well_formed (table : Table) (split : List Constraint) (wf : table.WellFormed) :
    (without table split).WellFormed :=
  fewer_well_formed table _ _ wf (without_sublist table split) (List.Sublist.refl _)

theorem stripped_well_formed (dialect : Dialect) (dropped : String → Bool) (table : Table)
    (wf : table.WellFormed) : (Diff.stripped dialect dropped table).WellFormed := by
  refine fewer_well_formed table _ _ wf (without_sublist table _) ?_
  split
  · exact List.Sublist.refl _
  · exact List.nil_sublist _

theorem without_tally (pending : String → Bool) (table : Table) :
    tally Constraint.shape (blocking pending table)
      + tally Constraint.shape (without table (blocking pending table)).constraints
      = tally Constraint.shape table.constraints := by
  rw [without_blocking, blocking_filter]
  exact tally_filter Constraint.shape _ table.constraints

theorem same_columns_settled (goal : Table) (ops : List Operation) (c : Column)
    (member : c ∈ goal.columns) : c.Settled goal ops :=
  .inr ⟨c, member, same_definition_refl c⟩

theorem deferred_owe (des : Table) (pending : String → Bool) (ordinal : Nat) :
    Table.Owes { without des (blocking pending des) with ordinal } (Diff.deferred pending des) des := by
  have each : ∀ op ∈ Diff.deferred pending des,
      op.subject = .constraint ∧ op.stage = 6 ∧ op.Turns (without des (blocking pending des)) des := by
    intro op member
    obtain ⟨c, inside, rfl⟩ := List.mem_map.mp member
    obtain ⟨own, foreign⟩ := foreign_key_filtered des pending c inside
    exact ⟨rfl, by simp [Operation.stage, foreign], List.mem_append.mpr (.inr own)⟩
  have subjects := fun op member => (each op member).1
  refine owes_of_turns _ des _ (fun op member => ?_) ?_ ?_ ?_ ?_
    fun c member => same_columns_settled des _ c member
  · have turn := (each op member).2.2
    cases op <;> exact turn
  · exact List.pairwise_of_forall_mem_list fun a ma b mb => by
      rw [(each a ma).2.1, (each b mb).2.1]
  · have dropped : total Operation.droppedShapes (Diff.deferred pending des) = 0 :=
      total_empty _ _ fun op member => by
        obtain ⟨c, _, rfl⟩ := List.mem_map.mp member
        rfl
    have added : total Operation.addedShapes (Diff.deferred pending des)
        = tally Constraint.shape (blocking pending des) :=
      total_map _ _ Constraint.shape (fun _ => rfl) _
    have split := without_tally pending des
    refine ⟨(congrArg (· ≤ _) dropped).mpr (Multiset.zero_le _), ?_⟩
    simp only [Account.shapes, Multiset.map_id, dropped, added, zero_add, Table.declared,
      tally_append, ← split]
    change tally _ des.primaryKey.toList + _ + _ = _
    abel
  · exact reaches_apart Account.indexes _ .constraint subjects (by decide) _ _ rfl
  · exact reaches_apart Account.names _ .constraint subjects (by decide) _ _ (Multiset.map_id _)

theorem leaving_sorted (dialect : Dialect) (dropped : String → Bool) (cur : Table) :
    (Diff.leaving dialect dropped cur).Pairwise fun a b => a.stage ≤ b.stage := by
  have sorted := operations_sorted _ (all_mono _ (fun i op => op.stage = i) _
    (drop_stages_all dialect dropped cur) fun _ _ facts => facts.1)
  rw [drop_stages_operations] at sorted
  exact (List.pairwise_append.mp sorted).1

theorem leaving_stages (dialect : Dialect) (dropped : String → Bool) (cur : Table) (op : Operation)
    (member : op ∈ Diff.leaving dialect dropped cur) : op.stage ≤ 1 := by
  rcases List.mem_append.mp member with key | index
  · obtain ⟨c, inside, rfl⟩ := List.mem_map.mp key
    simp [Operation.stage, (foreign_key_filtered cur dropped c inside).2]
  · split at index
    · cases index
    · obtain ⟨_, _, rfl⟩ := List.mem_map.mp index
      exact le_rfl

section Leaving

variable (dialect : Dialect) (dropped : String → Bool) (cur : Table)

theorem leaving_keys : ∀ op ∈ (blocking dropped cur).map (Operation.dropConstraint cur.name),
    op.subject = .constraint ∧ op.Turns cur (Diff.stripped dialect dropped cur) := by
  intro op member
  obtain ⟨c, inside, rfl⟩ := List.mem_map.mp member
  exact ⟨rfl, List.mem_append.mpr (.inr (foreign_key_filtered cur dropped c inside).1)⟩

theorem leaving_indexes : ∀ op ∈ (if dialect.dropsIndexesWithTable then []
      else cur.indexes.map (Operation.dropIndex cur.name)),
    op.subject = .index ∧ op.Turns cur (Diff.stripped dialect dropped cur) := by
  intro op member
  split at member
  · cases member
  · obtain ⟨index, inside, rfl⟩ := List.mem_map.mp member
    exact ⟨rfl, inside⟩

theorem leaving_shapes_reach : Account.shapes.Reaches (Account.shapes.state cur)
    (Diff.leaving dialect dropped cur)
    (Account.shapes.state (Diff.stripped dialect dropped cur)) := by
  have split := without_tally dropped cur
  have exchange := reaches_exchange Account.shapes Constraint.shape
    (Operation.dropConstraint cur.name) (Operation.addConstraint cur.name) (fun _ => ⟨rfl, rfl⟩)
    (fun _ => ⟨rfl, rfl⟩) cur.constraints (blocking dropped cur) []
    (tally Constraint.shape (without cur (blocking dropped cur)).constraints)
    (split ▸ Multiset.le_add_right _ _) (by simpa [Account.shapes] using split.symm)
  rw [List.map_nil, List.append_nil] at exchange
  have rest := reaches_apart Account.shapes _ .index
    (fun op member => (leaving_indexes dialect dropped cur op member).1) (by decide)
    (tally Constraint.shape cur.primaryKey.toList) _ (Multiset.map_id _)
  have whole := reaches_append Account.shapes _ _ _ _ _ _ exchange rest
  rw [add_comm, add_comm (tally Constraint.shape (without cur _).constraints), ← tally_append,
    ← tally_append] at whole
  exact whole

theorem leaving_indexes_reach : Account.indexes.Reaches (Account.indexes.state cur)
    (Diff.leaving dialect dropped cur)
    ((Account.indexes.state (Diff.stripped dialect dropped cur)).map Index.shape) := by
  have front := reaches_apart Account.indexes _ .constraint
    (fun op member => (leaving_keys dialect dropped cur op member).1) (by decide) 0 0 rfl
  have back : Account.indexes.Reaches (Account.indexes.state cur)
      (if dialect.dropsIndexesWithTable then []
        else cur.indexes.map (Operation.dropIndex cur.name))
      ((Account.indexes.state (Diff.stripped dialect dropped cur)).map Index.shape) := by
    have counted (l : List Index) : tally id l = ↑l := by simp [tally]
    simp only [Account.indexes, Diff.stripped]
    split
    · exact ⟨Multiset.zero_le _, by simp⟩
    · have exchange := reaches_exchange Account.indexes id (Operation.dropIndex cur.name)
        (Operation.addIndex cur.name) (fun _ => ⟨rfl, rfl⟩) (fun _ => ⟨rfl, rfl⟩) cur.indexes
        cur.indexes [] 0 le_rfl (by simp [tally])
      rw [counted, List.map_nil, List.append_nil] at exchange
      exact exchange
  have whole := reaches_append Account.indexes _ _ _ _ _ _ front back
  rw [zero_add, zero_add] at whole
  exact whole

theorem leaving_owe : cur.Owes (Diff.leaving dialect dropped cur)
    (Diff.stripped dialect dropped cur) := by
  have keys := leaving_keys dialect dropped cur
  have indexes := leaving_indexes dialect dropped cur
  have turns := List.forall_mem_append.mpr
    ⟨fun op member => (keys op member).2, fun op member => (indexes op member).2⟩
  refine owes_of_turns cur _ _ turns (leaving_sorted dialect dropped cur)
    (leaving_shapes_reach dialect dropped cur) (leaving_indexes_reach dialect dropped cur) ?_
    fun c member => same_columns_settled (Diff.stripped dialect dropped cur) _ c member
  have front := reaches_apart Account.names _ .constraint (fun op member => (keys op member).1)
    (by decide) 0 0 rfl
  have back := reaches_apart Account.names _ .index (fun op member => (indexes op member).1)
    (by decide) (Account.names.state cur) _ (Multiset.map_id _)
  have whole := reaches_append Account.names _ _ _ _ _ _ front back
  rw [zero_add] at whole
  exact whole

end Leaving

/-! ### One table -/

-- A table before and after the plan, its operations done and to come, and what it is now.
inductive Progress (dialect : Dialect) (dropped : String → Bool) :
    Option Table → Option Table → List Operation → List Operation → Option Table → Prop
  | unknown : Progress dialect dropped none none [] [] none
  | kept (cur des u : Table) (stages : Stages) (front back : List Operation)
      (staged : Diff.tableStages dialect cur des = .ok stages)
      (whole : stages.operations = front ++ back) (run : cur.Run front u) (owes : u.Owes back des) :
      Progress dialect dropped (some cur) (some des) front back (some u)
  | leaving (cur u : Table) (front back : List Operation)
      (whole : Diff.leaving dialect dropped cur = front ++ back) (run : cur.Run front u)
      (owes : u.Owes back (Diff.stripped dialect dropped cur)) :
      Progress dialect dropped (some cur) none front (back ++ [.dropTable cur.name]) (some u)
  | gone (cur : Table) : Progress dialect dropped (some cur) none
      (Diff.leaving dialect dropped cur ++ [.dropTable cur.name]) [] none
  | awaited (des : Table) (pending : String → Bool) : Progress dialect dropped none (some des) []
      (.createTable (without des (blocking pending des)) :: Diff.deferred pending des) none
  | created (des u : Table) (pending : String → Bool) (ordinal : Nat) (front back : List Operation)
      (whole : Diff.deferred pending des = front ++ back)
      (run : Table.Run { without des (blocking pending des) with ordinal } front u)
      (owes : u.Owes back des) : Progress dialect dropped none (some des)
        (.createTable (without des (blocking pending des)) :: front) back (some u)

theorem table_progress (dialect : Dialect) (dropped : String → Bool) (before after now : Option Table)
    (front back : List Operation) (plan : TablePlan dialect dropped before after (front ++ back))
    (run : TableRun before front now) (beforeWf : ∀ t, before = some t → t.WellFormed)
    (afterWf : ∀ t, after = some t → t.WellFormed) :
    Progress dialect dropped before after front back now := by
  generalize whole : front ++ back = ops at plan
  cases plan with
  | unknown =>
      obtain ⟨rfl, rfl⟩ := List.append_eq_nil_iff.mp whole
      cases run
      exact .unknown
  | kept cur des stages staged =>
      have curWf := beforeWf cur rfl
      have owes := table_stages_owe dialect cur des stages curWf (afterWf des rfl) staged
      rw [← whole] at owes
      obtain ⟨u, rfl, inPlace⟩ := table_run_in_place cur now front
        (fun op member => owes.inPlace op (by simp [member])) run
      exact .kept cur des u stages front back staged whole.symm inPlace
        (owes_run cur u des front back curWf (afterWf des rfl) inPlace owes)
  | dropped cur =>
      have curWf := beforeWf cur rfl
      have owes := leaving_owe dialect dropped cur
      rcases List.eq_nil_or_concat back with rfl | ⟨rest, last, rfl⟩
      · rw [List.append_nil] at whole
        subst whole
        obtain ⟨between, first, second⟩ := table_run_append _ _ _ _ run
        obtain ⟨u, rfl, _⟩ := table_run_in_place cur between _ owes.inPlace first
        cases second with
        | cons step rest =>
            cases rest
            cases step with
            | drop => exact .gone cur
            | change _ _ _ inPlace => cases inPlace
      · rw [List.concat_eq_append, ← List.append_assoc] at whole
        rw [List.concat_eq_append]
        obtain ⟨parts, same⟩ := List.append_inj' whole rfl
        cases same
        rw [← parts] at owes
        obtain ⟨u, rfl, inPlace⟩ := table_run_in_place cur now front
          (fun op member => owes.inPlace op (by simp [member])) run
        exact .leaving cur u front rest parts.symm inPlace (owes_run cur u _ front rest curWf
          (stripped_well_formed dialect dropped cur curWf) inPlace owes)
  | created des pending =>
      have desWf := afterWf des rfl
      rcases List.append_eq_cons_iff.mp whole with ⟨rfl, rfl⟩ | ⟨rest, rfl, parts⟩
      · cases run
        exact .awaited des pending
      · have inPlace : ∀ op ∈ rest, op.inPlace = true := fun op member =>
          (deferred_owe des pending 0).inPlace op (by simp [parts, member])
        obtain ⟨ordinal, u, rfl, placed⟩ := table_run_created _ now rest inPlace run
        have owes := deferred_owe des pending ordinal
        rw [parts] at owes
        exact .created des u pending ordinal rest back parts placed (owes_run _ u des rest back
          (ordinal_well_formed _ ordinal (without_well_formed des _ desWf)) desWf placed owes)

end SchemaDrift
