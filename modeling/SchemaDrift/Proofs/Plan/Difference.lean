import SchemaDrift.Proofs.Plan.Cut
/-!
A plan is exactly the difference of the two canonical schemas: every operation is called for, and
nothing that is alike on both sides is touched.
-/

set_option autoImplicit false

namespace SchemaDrift

open CreationOrder Stages

namespace Operation

def isCreation : Operation → Bool
  | createTable _ => true
  | _ => false

def isTableDrop : Operation → Bool
  | dropTable _ => true
  | _ => false

def onColumn (name : String) : Operation → Bool
  | addColumn _ column | alterColumnType _ _ column => column.name = name
  | dropColumn _ column => column = name
  | _ => false

def onKey : Operation → Bool
  | addConstraint _ c | dropConstraint _ c => c.isPrimaryKey
  | _ => false

def dropsLike (c : Constraint) : Operation → Bool
  | dropConstraint _ d => c.structurallyEq d
  | _ => false

def addsLike (c : Constraint) : Operation → Bool
  | addConstraint _ d => c.structurallyEq d
  | _ => false

def dropsIndexLike (index : Index) : Operation → Bool
  | dropIndex _ i => index.structurallyEq i
  | _ => false

def addsIndexLike (index : Index) : Operation → Bool
  | addIndex _ i => index.structurallyEq i
  | _ => false

end Operation

namespace Diff

-- The one operation that a column needs, if any, given what it is before and after.
def columnTurn (table column : String) : Option Column → Option Column → List Operation
  | none, none => []
  | some _, none => [.dropColumn table column]
  | none, some new => [.addColumn table new]
  | some old, some new =>
    if old.sameDefinition new then [] else [.alterColumnType table old new]

structure ExactOn (cur des : Table) (ops : List Operation) : Prop where
  columns : ∀ column, ops.filter (·.onColumn column)
    = columnTurn des.name column (cur.column? column) (des.column? column)
  key : ops.filter (·.onKey)
    = if cur.primaryKeyColumns = des.primaryKeyColumns then []
      else cur.primaryKey.toList.map (.dropConstraint des.name)
        ++ des.primaryKey.toList.map (.addConstraint des.name)
  constraints : ∀ c : Constraint, c.isPrimaryKey = false →
    ops.countP (·.dropsLike c)
        = cur.constraints.countP c.structurallyEq - des.constraints.countP c.structurallyEq ∧
      ops.countP (·.addsLike c)
        = des.constraints.countP c.structurallyEq - cur.constraints.countP c.structurallyEq
  indexes : ∀ index : Index,
    ops.countP (·.dropsIndexLike index)
        = cur.indexes.countP index.structurallyEq - des.indexes.countP index.structurallyEq ∧
      ops.countP (·.addsIndexLike index)
        = des.indexes.countP index.structurallyEq - cur.indexes.countP index.structurallyEq

-- The table of every name is created or dropped once if it is on one side only, and changed by what
-- differs if it is on both. A new table may wait for foreign keys into other tables, one that is
-- dropped loses its foreign keys into other dropped tables first, and its indexes where the dialect
-- keeps them.
structure Exact (dialect : Dialect) (source destination : Schema) (ops : List Operation) : Prop where
  created : ∀ name, (ops.filter (·.table = name)).countP Operation.isCreation
    = if source.hasTable name && !destination.hasTable name then 1 else 0
  dropped : ∀ name, (ops.filter (·.table = name)).countP Operation.isTableDrop
    = if destination.hasTable name && !source.hasTable name then 1 else 0
  creation : ∀ name des, destination.table? name = none → source.table? name = some des →
    ∃ later : Constraint → Bool,
      (∀ c, later c = true → ∃ r, c.reference? = some r ∧ r.table ≠ name) ∧
      ops.filter (·.table = name)
        = .createTable { des with constraints := des.constraints.filter (!later ·) }
          :: (des.constraints.filter later).map (.addConstraint name)
  removal : ∀ name cur, destination.table? name = some cur → source.table? name = none →
    ops.filter (·.table = name)
      = leaving dialect (droppedNames source destination) cur ++ [.dropTable name]
  kept : ∀ name cur des, destination.table? name = some cur → source.table? name = some des →
    ExactOn cur des (ops.filter (·.table = name))
  within : ∀ op ∈ ops, source.hasTable op.table || destination.hasTable op.table

end Diff

/-! ### Pairing off -/

section Unmatched

variable {α κ : Type} [DecidableEq κ] (key : α → κ) (same : α → α → Bool)
  (agree : ∀ a b, same a b = true ↔ key a = key b)

include agree

-- The greedy pairing leaves of each class what the one list has more of than the other.
theorem unmatched_difference (old new : List α) :
    tally key (unmatched same old new).1 = tally key old - tally key new ∧
      tally key (unmatched same old new).2 = tally key new - tally key old := by
  have picks (a b : α) : same a b = true ↔ key b = key a := (agree a b).trans eq_comm
  induction old generalizing new with
  | nil => simp [unmatched]
  | cons a old ih =>
      rw [unmatched]
      cases erased : eraseFirst? (same a) new with
      | some rest =>
          rw [erase_first_tally key (key a) (same a) (picks a) new rest erased]
          obtain ⟨removed, added⟩ := ih rest
          simp only [tally_cons, removed, added, Multiset.sub_cons, Multiset.erase_cons_head]
          exact ⟨trivial, trivial⟩
      | none =>
          have absent := erase_first_absent key (key a) (same a) (picks a) new erased
          obtain ⟨removed, added⟩ := ih new
          simp only [tally_cons, removed, added]
          constructor
          · ext k
            by_cases own : k = key a
            · simp [own, Multiset.count_eq_zero_of_notMem absent]
            · simp [own]
          · rw [Multiset.sub_cons, Multiset.erase_of_notMem absent]

theorem class_count (a : α) (l : List α) : l.countP (same a) = (tally key l).count (key a) := by
  rw [tally, Multiset.coe_count, List.count, List.countP_map]
  refine List.countP_congr fun b _ => (agree a b).trans ?_
  rw [Function.comp_apply, beq_iff_eq, eq_comm]

theorem unmatched_count (a : α) (old new : List α) :
    (unmatched same old new).1.countP (same a) = old.countP (same a) - new.countP (same a) ∧
      (unmatched same old new).2.countP (same a) = new.countP (same a) - old.countP (same a) := by
  obtain ⟨removed, added⟩ := unmatched_difference key same agree old new
  simp only [class_count key same agree, removed, added, Multiset.count_sub, and_self]

end Unmatched

/-! ### One table -/

theorem filter_key {α : Type} (key : α → String) (l : List α) (distinct : (l.map key).Nodup)
    (k : String) : l.filter (key · = k) = (l.find? (key · = k)).toList := by
  induction l with
  | nil => rfl
  | cons a l ih =>
      obtain ⟨fresh, distinct⟩ := List.nodup_cons.mp distinct
      by_cases hit : key a = k
      · have others : l.filter (key · = k) = [] := by
          refine List.filter_eq_nil_iff.mpr fun b member same => fresh ?_
          exact List.mem_map.mpr ⟨b, member, (of_decide_eq_true same).trans hit.symm⟩
        rw [List.filter_cons_of_pos (by simpa using hit), others,
          List.find?_cons_of_pos (by simpa using hit)]
        rfl
      · rw [List.filter_cons_of_neg (by simpa using hit),
          List.find?_cons_of_neg (by simpa using hit)]
        exact ih distinct

section Table

variable (dialect : Dialect) (cur des : Table) (column : String)

theorem one_sided (t other : Table) (distinct : t.columnNames.Nodup) (make : Column → Operation)
    (own : ∀ c, (make c).onColumn column = decide (c.name = column)) :
    ((t.columns.filter (!other.hasColumn ·.name)).map make).filter (·.onColumn column)
      = if other.hasColumn column then [] else (t.column? column).toList.map make := by
  rw [List.filter_map, List.filter_filter]
  have same : t.columns.filter (fun c =>
      ((·.onColumn column) ∘ make) c && !other.hasColumn c.name)
      = (t.columns.filter (·.name = column)).filter fun _ => !other.hasColumn column := by
    rw [List.filter_filter]
    refine List.filter_congr fun c _ => ?_
    rw [Function.comp_apply, own, Bool.and_comm]
    by_cases hit : c.name = column <;> simp [hit]
  rw [same, filter_key Column.name t.columns distinct column]
  cases other.hasColumn column <;> simp [Table.column?]

theorem changes_of_column (columns : List Column) (each : List (List Operation))
    (distinct : (columns.map Column.name).Nodup)
    (pairs : List.Forall₂ (fun c ops => Diff.columnChange dialect cur des.name c = .ok ops) columns each) :
    each.flatten.filter (·.onColumn column) = [] ∧ columns.find? (·.name = column) = none ∨
      ∃ c, columns.find? (·.name = column) = some c ∧
        Diff.columnChange dialect cur des.name c
          = .ok (each.flatten.filter (·.onColumn column)) := by
  have own (c : Column) (ops : List Operation)
      (changed : Diff.columnChange dialect cur des.name c = .ok ops) (op : Operation)
      (member : op ∈ ops) : op.onColumn column = decide (c.name = column) := by
    obtain ⟨_, _, _, rfl⟩ := column_change_ok dialect cur des.name c ops changed op member
    simp [Operation.onColumn]
  induction pairs with
  | nil => exact .inl ⟨rfl, rfl⟩
  | @cons c ops columns each changed pairs ih =>
      obtain ⟨fresh, distinct⟩ := List.nodup_cons.mp distinct
      rw [List.flatten_cons, List.filter_append]
      by_cases hit : c.name = column
      · refine .inr ⟨c, List.find?_cons_of_pos (by simpa using hit), ?_⟩
        have whole : ops.filter (·.onColumn column) = ops :=
          List.filter_eq_self.mpr fun op member => by simpa [own c ops changed op member] using hit
        have rest : each.flatten.filter (·.onColumn column) = [] := by
          rcases ih distinct with ⟨none, _⟩ | ⟨d, found, _⟩
          · exact none
          · have member := List.mem_of_find?_eq_some found
            have named : d.name = column := by simpa using List.find?_some found
            exact absurd (List.mem_map.mpr ⟨d, member, named.trans hit.symm⟩) fresh
        rw [whole, rest, List.append_nil]
        exact changed
      · have none : ops.filter (·.onColumn column) = [] :=
          List.filter_eq_nil_iff.mpr fun op member => by simpa [own c ops changed op member] using hit
        rw [none, List.nil_append, List.find?_cons_of_neg (by simpa using hit)]
        exact ih distinct

theorem column_change_exact (table : String) (c : Column) (ops : List Operation)
    (changed : Diff.columnChange dialect cur table c = .ok ops) :
    ops = match cur.column? c.name with
      | none => []
      | some old => if old.sameDefinition c then [] else [.alterColumnType table old c] := by
  unfold Diff.columnChange at changed
  cases found : cur.column? c.name with
  | none =>
      rw [found] at changed
      cases changed
      rfl
  | some old =>
      rw [found] at changed
      dsimp only at changed ⊢
      by_cases same : old.sameDefinition c = true
      · rw [if_pos same] at changed ⊢
        cases changed
        rfl
      · rw [if_neg same] at changed ⊢
        split at changed
        · cases changed
        · cases changed
          rfl

theorem column_stage_exact (ops : List Operation) (staged : Diff.columnStage dialect cur des = .ok ops)
    (distinct : cur.columnNames.Nodup) (others : des.columnNames.Nodup) :
    ops.filter (·.onColumn column)
      = Diff.columnTurn des.name column (cur.column? column) (des.column? column) := by
  obtain ⟨each, changed, same⟩ := (bind_ok _ _ _).mp staged
  cases same
  have has (t : Table) : t.hasColumn column = (t.column? column).isSome :=
    List.isSome_find?.symm
  have dropped := one_sided column cur des distinct (fun c => .dropColumn des.name c.name)
    fun c => by simp [Operation.onColumn]
  have added := one_sided column des cur others (.addColumn des.name)
    fun c => by simp [Operation.onColumn]
  rw [List.filter_append, List.filter_append, Diff.columnDrops, Diff.columnAdditions, dropped, added,
    has, has]
  rcases changes_of_column dialect cur des column des.columns each others ((map_m_ok _ _ _).mp changed)
    with ⟨none, absent⟩ | ⟨c, found, changes⟩
  · rw [none, show des.column? column = Option.none from absent]
    cases before : cur.column? column with
    | none => rfl
    | some old => simp [Diff.columnTurn, (column_found cur column old before).2]
  · have exact := column_change_exact dialect cur des.name c _ changes
    rw [(column_found des column c found).2] at exact
    rw [exact, show des.column? column = some c from found]
    cases before : cur.column? column with
    | none => rfl
    | some old => simp [Diff.columnTurn]

end Table

section Stages

variable (dialect : Dialect) (cur des : Table) (stages : Stages) (curWf : cur.WellFormed)
  (desWf : des.WellFormed) (staged : Diff.tableStages dialect cur des = .ok stages)

theorem key_stages_exact (keys : Stages) (keyed : Diff.keyStages dialect cur des = .ok keys) :
    keys.operations = if cur.primaryKeyColumns = des.primaryKeyColumns then []
      else cur.primaryKey.toList.map (.dropConstraint des.name)
        ++ des.primaryKey.toList.map (.addConstraint des.name) := by
  unfold Diff.keyStages at keyed
  by_cases same : cur.primaryKeyColumns = des.primaryKeyColumns
  · rw [if_pos same] at keyed ⊢
    cases keyed
    rfl
  · rw [if_neg same] at keyed ⊢
    split at keyed
    · cases keyed
      simp [Stages.operations]
    · cases keyed

include curWf desWf staged

theorem key_operations_exact : stages.operations.filter (·.onKey)
    = if cur.primaryKeyColumns = des.primaryKeyColumns then []
      else cur.primaryKey.toList.map (.dropConstraint des.name)
        ++ des.primaryKey.toList.map (.addConstraint des.name) := by
  have onOther (op : Operation) (about : op.subject ≠ .constraint) : op.onKey = false := by
    cases op with
    | addConstraint | dropConstraint => exact absurd rfl about
    | _ => rfl
  obtain ⟨changes, keys, columns, keyed, rfl⟩ := table_stages_ok dialect cur des stages staged
  have silent (s : Stages) (each : ∀ op ∈ s.operations, op.onKey = false) :
      ∀ op ∈ s.operations, Option.guard (·.onKey) op = none :=
    fun op member => by simp [Option.guard, each op member]
  have columnPart := silent { columnChanges := changes } fun op member => onOther op <| by
    have inside : op ∈ changes := by simpa [Stages.operations] using member
    rw [stage_three_subject op (column_stage_turns dialect cur des changes columns op inside).1]
    decide
  have indexPart := silent (Diff.indexStages cur des) fun op member => onOther op <| by
    rw [index_stages_subject cur des op member]
    decide
  have constraintPart := silent (Diff.constraintStages cur des) fun op member => by
    have sub := unmatched_sublist Constraint.structurallyEq cur.constraints des.constraints
    rcases List.mem_append.mp ((constraint_stages_perm cur des).symm.subset member) with old | new
    · obtain ⟨c, inside, rfl⟩ := List.mem_map.mp old
      simp [Operation.onKey, curWf.placed.constraints c (sub.1.subset inside)]
    · obtain ⟨c, inside, rfl⟩ := List.mem_map.mp new
      simp [Operation.onKey, desWf.placed.constraints c (sub.2.subset inside)]
  rw [← key_stages_exact dialect cur des keys keyed, ← List.filterMap_eq_filter,
    filter_map_front _ _ _ indexPart, filter_map_front _ _ _ constraintPart,
    filter_map_back _ _ _ columnPart, List.filterMap_eq_filter, List.filter_eq_self]
  intro op member
  obtain ⟨c, primary, rfl | rfl⟩ := key_stages_primary dialect cur des keys curWf desWf keyed op member
  · simp [Operation.onKey, primary]
  · simp [Operation.onKey, primary]

theorem constraint_operations_exact (c : Constraint) (other : c.isPrimaryKey = false) :
    stages.operations.countP (·.dropsLike c)
        = cur.constraints.countP c.structurallyEq - des.constraints.countP c.structurallyEq ∧
      stages.operations.countP (·.addsLike c)
        = des.constraints.countP c.structurallyEq - cur.constraints.countP c.structurallyEq := by
  have apart (d : Constraint) (key : d.isPrimaryKey = true) : c.structurallyEq d = false := by
    refine Bool.eq_false_iff.mpr fun same => ?_
    have shapes := congrArg Shape.isPrimaryKey ((constraint_agree c d).mp same)
    rw [shape_primary_key, shape_primary_key, other, key] at shapes
    cases shapes
  have only (p : Operation → Bool) (about : ∀ op, op.subject ≠ .constraint → p op = false)
      (keys : ∀ n d, d.isPrimaryKey = true →
        p (.dropConstraint n d) = false ∧ p (.addConstraint n d) = false) :
      stages.operations.countP p = (Diff.constraintStages cur des).operations.countP p := by
    have seen := constraint_operations dialect cur des stages staged (Option.guard p) curWf desWf
      (fun op subject => by simp [Option.guard, about op subject])
      fun n d key => by simp [Option.guard, keys n d key]
    rw [List.filterMap_eq_filter] at seen
    rw [List.countP_eq_length_filter, List.countP_eq_length_filter, seen]
  have counts := unmatched_count Constraint.shape Constraint.structurallyEq constraint_agree c
    cur.constraints des.constraints
  constructor
  · have drop : (·.dropsLike c) ∘ Operation.dropConstraint des.name = c.structurallyEq := by
      funext d
      simp [Operation.dropsLike]
    have add : (·.dropsLike c) ∘ Operation.addConstraint des.name = fun _ => false := rfl
    rw [only (·.dropsLike c) ?_ ?_, ← (constraint_stages_perm cur des).countP_eq,
      List.countP_append, List.countP_map, List.countP_map, drop, add, counts.1]
    · simp
    · intro op about
      cases op with
      | dropConstraint => exact absurd rfl about
      | _ => rfl
    · exact fun n d key => ⟨by simp [Operation.dropsLike, apart d key], rfl⟩
  · have drop : (·.addsLike c) ∘ Operation.dropConstraint des.name = fun _ => false := rfl
    have add : (·.addsLike c) ∘ Operation.addConstraint des.name = c.structurallyEq := by
      funext d
      simp [Operation.addsLike]
    rw [only (·.addsLike c) ?_ ?_, ← (constraint_stages_perm cur des).countP_eq,
      List.countP_append, List.countP_map, List.countP_map, drop, add, counts.2]
    · simp
    · intro op about
      cases op with
      | addConstraint => exact absurd rfl about
      | _ => rfl
    · exact fun n d key => ⟨rfl, by simp [Operation.addsLike, apart d key]⟩

omit curWf desWf in
theorem index_operations_exact (index : Index) :
    stages.operations.countP (·.dropsIndexLike index)
        = cur.indexes.countP index.structurallyEq - des.indexes.countP index.structurallyEq ∧
      stages.operations.countP (·.addsIndexLike index)
        = des.indexes.countP index.structurallyEq - cur.indexes.countP index.structurallyEq := by
  have only (p : Operation → Bool) (about : ∀ op, op.subject ≠ .index → p op = false) :
      stages.operations.countP p = (Diff.indexStages cur des).operations.countP p := by
    have seen := index_operations dialect cur des stages staged (Option.guard p)
      fun op subject => by simp [Option.guard, about op subject]
    rw [List.filterMap_eq_filter] at seen
    rw [List.countP_eq_length_filter, List.countP_eq_length_filter, seen]
  have whole : (Diff.indexStages cur des).operations
      = (unmatched Index.structurallyEq cur.indexes des.indexes).1.map (.dropIndex des.name)
        ++ (unmatched Index.structurallyEq cur.indexes des.indexes).2.map (.addIndex des.name) := by
    simp [Diff.indexStages, Stages.operations]
  have counts := unmatched_count Index.shape Index.structurallyEq index_agree index
    cur.indexes des.indexes
  constructor
  · have drop : (·.dropsIndexLike index) ∘ Operation.dropIndex des.name
        = index.structurallyEq := by
      funext i
      simp [Operation.dropsIndexLike]
    have add : (·.dropsIndexLike index) ∘ Operation.addIndex des.name = fun _ => false := rfl
    rw [only (·.dropsIndexLike index) ?_, whole, List.countP_append, List.countP_map,
      List.countP_map, drop, add, counts.1]
    · simp
    · intro op about
      cases op with
      | dropIndex => exact absurd rfl about
      | _ => rfl
  · have drop : (·.addsIndexLike index) ∘ Operation.dropIndex des.name = fun _ => false := rfl
    have add : (·.addsIndexLike index) ∘ Operation.addIndex des.name
        = index.structurallyEq := by
      funext i
      simp [Operation.addsIndexLike]
    rw [only (·.addsIndexLike index) ?_, whole, List.countP_append, List.countP_map,
      List.countP_map, drop, add, counts.2]
    · simp
    · intro op about
      cases op with
      | addIndex => exact absurd rfl about
      | _ => rfl

theorem table_stages_exact : Diff.ExactOn cur des stages.operations where
  columns column := by
    obtain ⟨changes, columns, same⟩ := column_operations dialect cur des stages staged
      (Option.guard (·.onColumn column)) fun op about => by
        cases op with
        | addColumn | dropColumn | alterColumnType => exact absurd rfl about
        | _ => rfl
    rw [List.filterMap_eq_filter] at same
    rw [same]
    exact column_stage_exact dialect cur des column changes columns curWf.sound.columnsDistinct
      desWf.sound.columnsDistinct
  key := key_operations_exact dialect cur des stages curWf desWf staged
  constraints := constraint_operations_exact dialect cur des stages curWf desWf staged
  indexes := index_operations_exact dialect cur des stages staged

end Stages

/-! ### The whole plan -/

theorem table_plan_counts (dialect : Dialect) (dropped : String → Bool) (before after : Option Table)
    (ops : List Operation) (plan : TablePlan dialect dropped before after ops)
    (wf : ∀ t, before = some t ∨ after = some t → t.WellFormed) :
    ops.countP Operation.isCreation = (if after.isSome && !before.isSome then 1 else 0) ∧
      ops.countP Operation.isTableDrop = (if before.isSome && !after.isSome then 1 else 0) := by
  have neither (l : List Operation) (each : ∀ op ∈ l, op.subject ≠ .table) :
      l.countP Operation.isCreation = 0 ∧ l.countP Operation.isTableDrop = 0 := by
    rw [List.countP_eq_zero, List.countP_eq_zero, ← forall₂_and]
    intro op member
    have about := each op member
    cases op with
    | createTable | dropTable => exact absurd rfl about
    | _ => exact ⟨Bool.false_ne_true, Bool.false_ne_true⟩
  cases plan with
  | unknown => exact ⟨rfl, rfl⟩
  | kept cur des stages staged =>
      have all := table_stages_turn dialect cur des stages (wf cur (.inl rfl)) (wf des (.inr rfl)) staged
      have turns := all_operations _ _ (all_mono _ (fun _ op => op.Turns cur des) _ all
        fun _ _ facts => facts.2.2)
      refine neither _ fun op member about => ?_
      have turn := turns op member
      cases op with
      | createTable | dropTable => exact turn
      | _ => cases about
  | dropped cur =>
      have leaving := neither (Diff.leaving dialect dropped cur) fun op member about => by
        rcases List.mem_append.mp member with key | index
        · obtain ⟨c, _, rfl⟩ := List.mem_map.mp key
          cases about
        · split at index
          · cases index
          · obtain ⟨i, _, rfl⟩ := List.mem_map.mp index
            cases about
      rw [List.countP_append, List.countP_append, leaving.1, leaving.2]
      exact ⟨rfl, rfl⟩
  | created des pending =>
      have deferred := neither (Diff.deferred pending des) fun op member about => by
        obtain ⟨c, _, rfl⟩ := List.mem_map.mp member
        cases about
      rw [List.countP_cons, List.countP_cons, deferred.1, deferred.2]
      exact ⟨rfl, rfl⟩

theorem creation_split (pending : String → Bool) (des : Table) :
    Operation.createTable (without des (blocking pending des)) :: Diff.deferred pending des
      = .createTable { des with constraints := des.constraints.filter (!blocks pending des ·) }
        :: (des.constraints.filter (blocks pending des)).map (.addConstraint des.name) := by
  rw [Diff.deferred, blocking_filter, ← without_blocking, blocking_filter]
  rfl

theorem stages_exact (dialect : Dialect) (source destination : Schema) (stages : Stages)
    (sourceWf : source.WellFormed) (destinationWf : destination.WellFormed)
    (staged : Diff.stages dialect source destination = .ok stages) :
    Diff.Exact dialect source destination stages.operations := by
  have part (name : String) :=
    plan_on_table dialect source destination stages sourceWf destinationWf name staged
  have wf (name : String) (t : Table)
      (found : destination.table? name = some t ∨ source.table? name = some t) : t.WellFormed := by
    rcases found with before | after
    · exact destinationWf.tables t (table_found destination name t before).1
    · exact sourceWf.tables t (table_found source name t after).1
  have has (schema : Schema) (name : String) : schema.hasTable name = (schema.table? name).isSome :=
    List.isSome_find?.symm
  have counts (name : String) := table_plan_counts dialect _ _ _ _ (part name) (wf name)
  constructor
  · intro name
    rw [(counts name).1, has, has]
  · intro name
    rw [(counts name).2, has, has]
  · intro name des before after
    have named := (table_found source name des after).2
    have plan := part name
    rw [before, after] at plan
    generalize stages.operations.filter (·.table = name) = ops at plan ⊢
    cases plan with
    | created _ pending =>
        refine ⟨blocks pending des, fun c later => ?_, named ▸ creation_split pending des⟩
        obtain ⟨r, points, other, _⟩ := (blocks_iff pending des c).mp later
        exact ⟨r, points, named ▸ other⟩
  · intro name cur before after
    have named := (table_found destination name cur before).2
    have plan := part name
    rw [before, after] at plan
    generalize stages.operations.filter (·.table = name) = ops at plan ⊢
    cases plan with
    | dropped => rw [named]
  · intro name cur des before after
    have plan := part name
    rw [before, after] at plan
    generalize stages.operations.filter (·.table = name) = ops at plan
    cases plan with
    | kept _ _ own made =>
        exact table_stages_exact dialect cur des own (wf name cur (.inl before))
          (wf name des (.inr after)) made
  · intro op member
    have plan := part op.table
    have own : op ∈ stages.operations.filter (·.table = op.table) :=
      List.mem_filter.mpr ⟨member, decide_eq_true rfl⟩
    generalize stages.operations.filter (·.table = op.table) = ops at plan own
    rw [has, has]
    generalize destination.table? op.table = before at plan
    generalize source.table? op.table = after at plan
    cases plan with
    | unknown => cases own
    | _ => rfl

-- A plan does what the two canonical schemas differ in, and nothing else.
theorem plan_is_difference (dialect : Dialect) (source destination S D : Schema) (plan : Plan)
    (sourceValid : source.Validated) (destinationValid : destination.Validated)
    (sourceImage : dialect.canonicalize source = .ok S)
    (destinationImage : dialect.canonicalize destination = .ok D)
    (planned : diff dialect source destination = .ok plan) :
    Diff.Exact dialect S D plan.operations := by
  obtain ⟨stages, staged, same⟩ :=
    diff_ok dialect source destination S D plan sourceImage destinationImage planned
  rw [← same]
  exact stages_exact dialect S D stages (image_well_formed dialect source S sourceValid sourceImage)
    (image_well_formed dialect destination D destinationValid destinationImage) staged

-- Two of the checks are the same, and one of the two stays. Notes are given up for purchases and
-- receipts, which point at each other.
def Shop.strict : Schema where
  tables := [{ Shop.customer with
    constraints := [.check [] "id > 0", .check [] "id < 9", .check ["id"] "(id > 0)"]
    indexes := [Index.ascending "by_phone" ["phone"]] }, Shop.note]

def Shop.relaxed : Schema where
  tables := [{ Shop.customer with
    columns := [Shop.number "id", { Shop.number "phone" with nullable := true }]
    primaryKey := none
    constraints := [(Constraint.check [] "id > 0").named "positive"]
    indexes := [Index.ascending "by_id" ["id"]] }, Shop.purchase, Shop.receipt]

def Shop.relaxation : Plan where
  operations :=
    [.dropConstraint "customer" (.primaryKey ["id"]),
      .dropConstraint "customer" (.check [] "id < 9"),
      .dropConstraint "customer" (.check ["id"] "(id > 0)"),
      .dropIndex "customer" (Index.ascending "by_phone" ["phone"]),
      .dropTable "note",
      .alterColumnType "customer" (Shop.number "phone") { Shop.number "phone" with nullable := true },
      .addIndex "customer" (Index.ascending "by_id" ["id"]),
      .createTable { Shop.purchase with constraints := [] },
      .createTable Shop.receipt,
      .addConstraint "purchase" (Shop.pointer "receipt" "receipt")]

theorem shop_relaxed_exactly :
    Diff.Exact .postgres Shop.relaxed Shop.strict Shop.relaxation.operations :=
  plan_is_difference .postgres Shop.relaxed Shop.strict Shop.relaxed Shop.strict Shop.relaxation
    ⟨Shop.relaxed.toDraft, by decide, rfl⟩ ⟨Shop.strict.toDraft, by decide, rfl⟩ rfl rfl (by cbv)

end SchemaDrift
