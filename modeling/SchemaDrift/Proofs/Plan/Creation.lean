import SchemaDrift.Dialect.Render
import SchemaDrift.Proofs.Plan.Empty
import SchemaDrift.Proofs.Plan.Reference
/-!
Creating a schema from nothing: all tables, each less the foreign keys that have to wait, and then
these foreign keys. In every order of tables that respects the foreign keys that stay, each
operation applies, and the schema comes out. The operations that print a schema and the plan that
starts from nothing are two such orders.
-/

set_option autoImplicit false

namespace SchemaDrift

open CreationOrder Stages

-- Every table of the schema is one of the goal's, but for the operations on it that are to come.
def Schema.Owes (schema : Schema) (ops : List Operation) (goal : Schema) : Prop :=
  ∀ u ∈ schema.tables, ∃ des, goal.table? u.name = some des ∧
    u.Owes (ops.filter (·.table = u.name)) des

def Diff.placed (turn : Table × (String → Bool)) : Table :=
  without turn.1 (blocking turn.2 turn.1)

theorem with_new_names (schema : Schema) (t : Table) :
    (schema.withNew t).tableNames = schema.tableNames ++ [t.name] := by
  simp [Schema.tableNames, Schema.withNew]

theorem deferred_operation (turn : Table × (String → Bool)) (op : Operation)
    (member : op ∈ Diff.deferred turn.2 turn.1) : op.stage = 6 ∧ op.table = turn.1.name := by
  obtain ⟨c, inside, rfl⟩ := List.mem_map.mp member
  exact ⟨by simp [Operation.stage, (foreign_key_filtered _ _ c inside).2], rfl⟩

theorem deferred_on (turns : List (Table × (String → Bool)))
    (distinct : (turns.map fun turn => turn.1.name).Nodup) (turn : Table × (String → Bool))
    (member : turn ∈ turns) :
    (turns.flatMap fun turn => Diff.deferred turn.2 turn.1).filter (·.table = turn.1.name)
      = Diff.deferred turn.2 turn.1 := by
  induction turns with
  | nil => cases member
  | cons first turns ih =>
      obtain ⟨fresh, distinct⟩ := List.nodup_cons.mp distinct
      rw [List.flatMap_cons, List.filter_append]
      rcases List.mem_cons.mp member with same | later
      · subst same
        have own : (Diff.deferred turn.2 turn.1).filter (·.table = turn.1.name)
            = Diff.deferred turn.2 turn.1 :=
          List.filter_eq_self.mpr fun op inside => by simp [(deferred_operation turn op inside).2]
        have others : (turns.flatMap fun turn => Diff.deferred turn.2 turn.1).filter
            (·.table = turn.1.name) = [] := by
          refine List.filter_eq_nil_iff.mpr fun op inside same => fresh ?_
          obtain ⟨other, among, from_⟩ := List.mem_flatMap.mp inside
          rw [(deferred_operation other op from_).2] at same
          exact List.mem_map.mpr ⟨other, among, of_decide_eq_true same⟩
        rw [own, others, List.append_nil]
      · have other : (Diff.deferred first.2 first.1).filter (·.table = turn.1.name) = [] := by
          refine List.filter_eq_nil_iff.mpr fun op inside same => fresh ?_
          rw [(deferred_operation first op inside).2] at same
          exact List.mem_map.mpr ⟨turn, later, (of_decide_eq_true same).symm⟩
        rw [other, List.nil_append, ih distinct later]

theorem empty_well_formed : Schema.empty.WellFormed :=
  ⟨by simp [Schema.empty], .nil, by simp [Schema.Resolved, Schema.empty], .nil⟩

section Goal

variable (rules : ApplyRules) (goal : Schema) (goalWf : goal.WellFormed) (keyed : goal.Keyed)

include goalWf keyed

theorem owed_reference (schema : Schema) (ops : List Operation)
    (tables : ∀ u ∈ schema.tables, u.WellFormed) (owes : schema.Owes ops goal)
    (late : ∀ op ∈ ops, op.stage = 6) (des : Table) (member : des ∈ goal.tables) (c : Constraint)
    (own : c ∈ des.constraints) (r : Reference) (points : c.reference? = some r)
    (there : r.table ∈ schema.tableNames) : schema.Resolves r ∧ schema.isKeyed r = true := by
  refine offered_reference goal schema r (goalWf.resolved des member c own r points)
    (keyed des member c own r points) fun target wanted => ?_
  obtain ⟨u, found⟩ := (has_table_some schema r.table).mp ((has_table_iff _ _).mpr there)
  obtain ⟨inside, named⟩ := table_found schema r.table u found
  obtain ⟨same, looked, owed⟩ := owes u inside
  rw [named, wanted] at looked
  cases looked
  refine ⟨u, found, late_offers u target _ (tables u inside)
    (goalWf.tables target (table_found goal r.table target wanted).1) owed fun op listed => ?_⟩
  rw [late op (List.mem_filter.mp listed).1]
  omega

theorem creation_step (schema : Schema) (turn : Table × (String → Bool)) (ops : List Operation)
    (wf : schema.WellFormed) (owes : schema.Owes ops goal) (late : ∀ op ∈ ops, op.stage = 6)
    (member : turn.1 ∈ goal.tables) (fresh : turn.1.name ∉ schema.tableNames)
    (own : ops.filter (·.table = turn.1.name) = Diff.deferred turn.2 turn.1)
    (targets : ∀ c ∈ (Diff.placed turn).constraints, ∀ r, c.reference? = some r →
      r.table = turn.1.name ∨ r.table ∈ schema.tableNames) :
    ∃ next, schema.applyOne rules (.createTable (Diff.placed turn)) = .ok next ∧
      next.WellFormed ∧ next.Owes ops goal ∧
      next.tableNames = schema.tableNames ++ [turn.1.name] := by
  have placedWf : (Diff.placed turn).WellFormed :=
    without_well_formed turn.1 _ (goalWf.tables turn.1 member)
  have nextOwes : (schema.withNew (Diff.placed turn)).Owes ops goal := by
    intro u inside
    rcases List.mem_append.mp inside with old | new
    · exact owes u old
    · rw [List.mem_singleton.mp new]
      refine ⟨turn.1, table_of_mem goal goalWf.distinct turn.1 member, ?_⟩
      rw [show ops.filter (·.table = (Diff.placed turn).name) = _ from own]
      exact deferred_owe turn.1 turn.2 _
  have nextTables : ∀ u ∈ (schema.withNew (Diff.placed turn)).tables, u.WellFormed := by
    intro u inside
    rcases List.mem_append.mp inside with old | new
    · exact wf.tables u old
    · rw [List.mem_singleton.mp new]
      exact ordinal_well_formed _ _ placedWf
  have applied := creation_applies rules schema (Diff.placed turn) wf placedWf
    (Bool.eq_false_iff.mpr fun taken => fresh ((has_table_iff schema _).mp taken))
    fun c inside r points => by
      refine owed_reference goal goalWf keyed _ ops nextTables nextOwes late turn.1 member c
        ((without_sublist turn.1 _).subset inside) r points ?_
      rw [with_new_names, List.mem_append, List.mem_singleton]
      exact (targets c inside r points).symm
  exact ⟨_, applied, apply_one_well_formed rules schema _ (.createTable (Diff.placed turn)) wf placedWf
    applied, nextOwes, with_new_names schema _⟩

theorem creations_run (turns : List (Table × (String → Bool))) (schema : Schema)
    (created : List String) (ops : List Operation) (wf : schema.WellFormed)
    (owes : schema.Owes ops goal) (late : ∀ op ∈ ops, op.stage = 6)
    (there : created ⊆ schema.tableNames) (members : ∀ turn ∈ turns, turn.1 ∈ goal.tables)
    (distinct : (schema.tableNames ++ turns.map fun turn => turn.1.name).Nodup)
    (own : ∀ turn ∈ turns,
      ops.filter (·.table = turn.1.name) = Diff.deferred turn.2 turn.1)
    (respected : Respected goal.tableNames created (turns.map Diff.placed)) :
    ∃ next, schema.apply rules ((turns.map Diff.placed).map .createTable) = .ok next ∧
      next.WellFormed ∧ next.Owes ops goal ∧
      next.tableNames = schema.tableNames ++ turns.map fun turn => turn.1.name := by
  induction turns generalizing schema created with
  | nil => exact ⟨schema, rfl, wf, owes, (List.append_nil _).symm⟩
  | cons turn turns ih =>
      have member := members turn (by simp)
      have fresh : turn.1.name ∉ schema.tableNames :=
        fun taken => (List.nodup_append.mp distinct).2.2 _ taken _ (by simp) rfl
      obtain ⟨next, first, nextWf, nextOwes, names⟩ := creation_step rules goal goalWf keyed schema turn
        ops wf owes late member fresh (own turn (by simp)) fun c inside r points => by
          have listed := (without_sublist turn.1 _).subset inside
          obtain ⟨target, wanted, _⟩ := goalWf.resolved turn.1 member c listed r points
          obtain ⟨among, named⟩ := table_found goal r.table target wanted
          exact (respected.1 c inside r points (List.mem_map.mpr ⟨target, among, named⟩)).imp_right
            fun before => there before
      obtain ⟨last, others, lastWf, lastOwes, allNames⟩ := ih next (turn.1.name :: created) nextWf
        nextOwes (by simpa [names] using List.subset_append_of_subset_left _ there)
        (fun other inside => members other (by simp [inside])) (by simpa [names] using distinct)
        (fun other inside => own other (by simp [inside])) respected.2
      exact ⟨last, (apply_cons_ok _ _ _ _ _).mpr ⟨next, first, others⟩, lastWf, lastOwes,
        by simp [allNames, names]⟩

theorem addition_step (schema : Schema) (op : Operation) (ops : List Operation)
    (wf : schema.WellFormed) (owes : schema.Owes (op :: ops) goal)
    (late : ∀ o ∈ op :: ops, o.stage = 6) (whole : goal.tableNames ⊆ schema.tableNames)
    (there : op.table ∈ schema.tableNames) :
    ∃ next, schema.applyOne rules op = .ok next ∧ next.WellFormed ∧ next.Owes ops goal ∧
      next.tableNames = schema.tableNames := by
  obtain ⟨u, found⟩ := (has_table_some schema op.table).mp ((has_table_iff _ _).mpr there)
  obtain ⟨inside, named⟩ := table_found schema op.table u found
  obtain ⟨des, wanted, owed⟩ := owes u inside
  rw [named, own_back] at owed
  have member := (table_found goal u.name des wanted).1
  have uWf := wf.tables u inside
  have desWf := goalWf.tables des member
  cases op with
  | addConstraint n c =>
      obtain ⟨v, grows⟩ := add_constraint_applies u des _ uWf desWf n c owed
      obtain ⟨same, _, vWf⟩ := becomes_keeps u v _ uWf grows.1
      have nextOwes : (schema.withTable v).Owes ops goal := by
        intro s present
        rcases with_table_mem schema v s present with rfl | ⟨old, other⟩
        · refine ⟨des, same ▸ wanted, ?_⟩
          rw [same, named]
          exact owes_step u s des _ _ uWf desWf grows.1 owed
        · obtain ⟨goal', looked, kept⟩ := owes s old
          have apart : (Operation.addConstraint n c).table ≠ s.name :=
            fun equal => other (equal.symm.trans (named.symm.trans same.symm))
          rw [List.filter_cons_of_neg (by simpa using apart)] at kept
          exact ⟨goal', looked, kept⟩
      have nextTables : ∀ s ∈ (schema.withTable v).tables, s.WellFormed := by
        intro s present
        rcases with_table_mem schema v s present with rfl | ⟨old, _⟩
        · exact vWf
        · exact wf.tables s old
      have applied := growth_applies rules schema _ u v wf rfl found grows fun r new => by
        have points : c.reference? = some r := by simpa [Operation.newReferences] using new
        have own := declared_foreign des desWf c r points (owed.serves _ List.mem_cons_self)
        obtain ⟨target, looked, _⟩ := goalWf.resolved des member c own r points
        obtain ⟨among, called⟩ := table_found goal r.table target looked
        refine owed_reference goal goalWf keyed _ ops nextTables nextOwes
          (fun o listed => late o (by simp [listed])) des member c own r points ?_
        rw [with_table_names]
        exact whole (List.mem_map.mpr ⟨target, among, called⟩)
      exact ⟨_, applied, apply_one_well_formed rules schema _ (.addConstraint n c) wf trivial applied,
        nextOwes, with_table_names schema v⟩
  | dropConstraint n c =>
      have stage := late _ List.mem_cons_self
      simp only [Operation.stage] at stage
      split at stage <;> omega
  | _ => cases late _ List.mem_cons_self

theorem additions_run (schema : Schema) (ops : List Operation) (wf : schema.WellFormed)
    (owes : schema.Owes ops goal) (late : ∀ op ∈ ops, op.stage = 6)
    (whole : goal.tableNames ⊆ schema.tableNames) (there : ∀ op ∈ ops, op.table ∈ schema.tableNames) :
    ∃ last, schema.apply rules ops = .ok last ∧ last.WellFormed ∧ last.Owes [] goal ∧
      last.tableNames = schema.tableNames := by
  induction ops generalizing schema with
  | nil => exact ⟨schema, rfl, wf, owes, rfl⟩
  | cons op ops ih =>
      obtain ⟨next, first, nextWf, nextOwes, names⟩ := addition_step rules goal goalWf keyed schema op
        ops wf owes late whole (there op (by simp))
      obtain ⟨last, others, lastWf, lastOwes, same⟩ := ih next nextWf nextOwes
        (fun o inside => late o (by simp [inside])) (names ▸ whole)
        fun o inside => names ▸ there o (by simp [inside])
      exact ⟨last, (apply_cons_ok _ _ _ _ _).mpr ⟨next, first, others⟩, lastWf, lastOwes,
        same.trans names⟩

omit keyed in
theorem nothing_owed (schema : Schema) (wf : schema.WellFormed) (owes : schema.Owes [] goal)
    (names : schema.tableNames.Perm goal.tableNames) : schema.equivalent goal = true := by
  have lengths := names.length_eq
  simp only [Schema.tableNames, List.length_map] at lengths
  simp only [Schema.equivalent, Bool.and_eq_true, decide_eq_true_eq, List.all_eq_true]
  refine ⟨lengths, fun t member => ?_⟩
  obtain ⟨des, wanted, owed⟩ := owes t member
  obtain ⟨inside, named⟩ := table_found goal t.name des wanted
  rw [wanted, Option.any_some]
  exact owes_nothing t des (wf.tables t member) (goalWf.tables des inside) named.symm owed

-- The tables in an order that respects the references, then the foreign keys that were left out.
theorem arranged_creates (turns : List (Table × (String → Bool))) (order : CreationOrder)
    (arranged : Arranged goal.tableNames [] goal.tables turns order) :
    ∃ result, Schema.empty.apply rules (order.tables.map .createTable ++ order.deferred) = .ok result ∧
      result.equivalent goal = true ∧ result.tableNames = order.tables.map Table.name := by
  have names : (turns.map fun turn => turn.1.name).Perm goal.tableNames := by
    have mapped := arranged.perm.map Table.name
    rw [List.map_map] at mapped
    exact mapped
  have distinct := names.nodup_iff.mpr goalWf.distinct
  have placed : order.tables = turns.map Diff.placed := arranged.placed
  have deferred : order.deferred = turns.flatMap fun turn => Diff.deferred turn.2 turn.1 :=
    arranged.deferred
  have late : ∀ op ∈ order.deferred, op.stage = 6 := by
    intro op member
    rw [deferred] at member
    obtain ⟨turn, _, inside⟩ := List.mem_flatMap.mp member
    exact (deferred_operation turn op inside).1
  obtain ⟨between, created, betweenWf, betweenOwes, all⟩ := creations_run rules goal goalWf keyed turns
    .empty [] order.deferred empty_well_formed (fun u member => absurd member List.not_mem_nil) late
    (List.nil_subset _) (fun turn member => arranged.perm.subset (List.mem_map_of_mem member)) distinct
    (fun turn member => deferred ▸ deferred_on turns distinct turn member)
    (placed ▸ arranged.respected)
  have same : between.tableNames = turns.map fun turn => turn.1.name := all
  obtain ⟨last, added, lastWf, lastOwes, kept⟩ := additions_run rules goal goalWf keyed between
    order.deferred betweenWf betweenOwes late (same ▸ names.symm.subset) fun op member => by
      rw [deferred] at member
      obtain ⟨turn, inside, own⟩ := List.mem_flatMap.mp member
      rw [same, (deferred_operation turn op own).2]
      exact List.mem_map.mpr ⟨turn, inside, rfl⟩
  refine ⟨last, (apply_append_ok _ _ _ _ _).mpr ⟨between, placed ▸ created, added⟩, ?_, ?_⟩
  · exact nothing_owed goal goalWf last lastWf lastOwes (kept.trans same ▸ names)
  · rw [kept, same, placed, List.map_map]
    rfl

end Goal

/-! ### The order in which a schema is printed -/

def Schema.turnsFrom (created : List String) : List Table → List (Table × (String → Bool))
  | [] => []
  | table :: tables =>
    (table, fun name => decide (name ∉ created)) :: turnsFrom (table.name :: created) tables

theorem turns_from_tables (created : List String) (tables : List Table) :
    (Schema.turnsFrom created tables).map Prod.fst = tables := by
  induction tables generalizing created with
  | nil => rfl
  | cons table tables ih => rw [Schema.turnsFrom, List.map_cons, ih]

theorem turns_from_respected (new created : List String) (tables : List Table) :
    Respected new created ((Schema.turnsFrom created tables).map Diff.placed) := by
  induction tables generalizing created with
  | nil => trivial
  | cons table tables ih =>
      refine ⟨fun c member r points _ => ?_, ih (table.name :: created)⟩
      rw [Diff.placed, without_blocking, List.mem_filter, Bool.not_eq_true'] at member
      exact (not_blocked _ table c r member.2 points).imp_right fun here => by simpa using here

theorem creations_from_turns (created : List String) (tables : List Table) :
    Schema.creationsFrom created tables =
      (((Schema.turnsFrom created tables).map Diff.placed).map .createTable,
        (Schema.turnsFrom created tables).flatMap fun turn => Diff.deferred turn.2 turn.1) := by
  induction tables generalizing created with
  | nil => rfl
  | cons table tables ih =>
      have forward (c : Constraint) :
          (c.reference?.any fun r => decide (r.table ∉ table.name :: created))
            = blocks (fun name => decide (name ∉ created)) table c := by
        simp [blocks]
      have kept : table.retainConstraints
          (fun c => !blocks (fun name => decide (name ∉ created)) table c)
          = Diff.placed (table, fun name => decide (name ∉ created)) := by
        rw [Table.retainConstraints, ← without_blocking]
        rfl
      rw [Schema.creationsFrom, Schema.turnsFrom, ih]
      simp only [forward, kept, List.map_cons, List.flatMap_cons]
      rfl

theorem creation_arranged (schema : Schema) : ∃ turns order,
    Arranged schema.tableNames [] schema.tables turns order ∧
      schema.creation = order.tables.map .createTable ++ order.deferred ∧
      order.tables.map Table.name = schema.tableNames := by
  refine ⟨Schema.turnsFrom [] schema.tables,
    { tables := (Schema.turnsFrom [] schema.tables).map Diff.placed
      deferred := (Schema.turnsFrom [] schema.tables).flatMap fun turn =>
        Diff.deferred turn.2 turn.1 },
    ⟨rfl, rfl, ?_, turns_from_respected _ [] schema.tables⟩, ?_, ?_⟩
  · rw [turns_from_tables]
  · rw [Schema.creation, creations_from_turns]
  · rw [List.map_map]
    calc (Schema.turnsFrom [] schema.tables).map (Table.name ∘ Diff.placed)
        = ((Schema.turnsFrom [] schema.tables).map Prod.fst).map Table.name := by
          rw [List.map_map]
          rfl
      _ = schema.tableNames := by
          rw [turns_from_tables]
          rfl

/-! ### The plan that starts from nothing -/

theorem empty_fixed (dialect : Dialect) : dialect.canonicalize .empty = .ok .empty := by
  cases dialect <;> rfl

theorem stages_from_nothing (dialect : Dialect) (schema : Schema) :
    Diff.stages dialect schema .empty = .ok (Diff.creationStages schema.tables) := by
  have common : Diff.commonStages dialect schema .empty = .ok (schema.tables.map fun _ => {}) :=
    map_m_constant _ _ _ fun _ _ => rfl
  have new : schema.tables.filter (!Schema.empty.hasTable ·.name) = schema.tables :=
    List.filter_eq_self.mpr fun _ _ => rfl
  rw [Diff.stages, common, new]
  change Except.ok (Diff.creationStages schema.tables ++ concat []
    ++ concat (schema.tables.map fun _ => {})) = _
  rw [concat_empty, append_empty]
  exact congrArg Except.ok (append_empty _)

theorem plan_from_nothing (dialect : Dialect) (schema : Schema)
    (image : dialect.canonicalize schema = .ok schema) : ∃ turns order,
    Arranged schema.tableNames [] schema.tables turns order ∧
      diff dialect schema .empty
        = .ok { operations := order.tables.map .createTable ++ order.deferred } := by
  obtain ⟨turns, arranged⟩ := of_remaining_arranged schema.tableNames [] schema.tables
  refine ⟨turns, _, arranged, ?_⟩
  rw [diff_of_stages dialect schema .empty schema .empty _ image (empty_fixed dialect)
    (stages_from_nothing dialect schema)]
  rfl

-- Both ways lead to the schema, and printing keeps the order of its tables.
theorem creations_agree (schema : Schema) (valid : schema.Validated) (keyed : schema.Keyed) :
    (∀ rules, ∃ result, Schema.empty.apply rules schema.creation = .ok result ∧
      result.equivalent schema = true ∧ result.tableNames = schema.tableNames) ∧
    ∀ dialect, dialect.canonicalize schema = .ok schema →
      ∃ plan, diff dialect schema .empty = .ok plan ∧
        ∀ rules, ∃ result, Schema.empty.apply rules plan.operations = .ok result ∧
          result.equivalent schema = true := by
  have wf := (validated_iff_well_formed schema).mp valid
  constructor
  · intro rules
    obtain ⟨turns, order, arranged, printed, names⟩ := creation_arranged schema
    rw [printed, ← names]
    exact arranged_creates rules schema wf keyed turns order arranged
  · intro dialect image
    obtain ⟨turns, order, arranged, planned⟩ := plan_from_nothing dialect schema image
    refine ⟨_, planned, fun rules => ?_⟩
    obtain ⟨result, applied, same, _⟩ := arranged_creates rules schema wf keyed turns order arranged
    exact ⟨result, applied, same⟩

-- Purchases and receipts point at each other, so one of the foreign keys has to wait.
theorem shop_creations_agree :
    (∃ result, Schema.empty.apply {} Shop.after.creation = .ok result ∧
      result.equivalent Shop.after = true ∧ result.tableNames = Shop.after.tableNames) ∧
    ∃ plan, diff .spanner Shop.after .empty = .ok plan ∧
      ∃ result, Schema.empty.apply Dialect.spanner.applyRules plan.operations = .ok result ∧
        result.equivalent Shop.after = true := by
  obtain ⟨printed, planned⟩ := creations_agree Shop.after Shop.after_validated (by decide)
  obtain ⟨plan, made, applies⟩ := planned .spanner rfl
  exact ⟨printed {}, plan, made, applies Dialect.spanner.applyRules⟩

end SchemaDrift
