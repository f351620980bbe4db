import SchemaDrift.Proofs.Plan.Owes
/-!
The stages that turn a table into another of the same name. Their operations drop or alter what the
one has and bring in what the other has, and together they lead from the one to the other.
-/

set_option autoImplicit false

namespace SchemaDrift

def Operation.Turns (table goal : Table) : Operation → Prop
  | addColumn _ column => column ∈ goal.columns ∧ column.name ∉ table.columnNames
  | dropColumn _ name => name ∈ table.columnNames ∧ name ∉ goal.columnNames
  | alterColumnType _ source target =>
    source.name = target.name ∧ target ∈ goal.columns ∧ target.name ∈ table.columnNames
  | addConstraint _ c => c ∈ goal.declared
  | dropConstraint _ c => c ∈ table.declared
  | addIndex _ index => index ∈ goal.indexes
  | dropIndex _ index => index ∈ table.indexes
  | createTable _ | dropTable _ => False

theorem owes_of_turns (t goal : Table) (ops : List Operation) (turns : ∀ op ∈ ops, op.Turns t goal)
    (sorted : ops.Pairwise fun a b => a.stage ≤ b.stage)
    (shapes : Account.shapes.Reaches (Account.shapes.state t) ops (Account.shapes.state goal))
    (indexes : Account.indexes.Reaches (Account.indexes.state t) ops
      ((Account.indexes.state goal).map Index.shape))
    (names : Account.names.Reaches (Account.names.state t) ops (Account.names.state goal))
    (settled : ∀ c ∈ t.columns, c.Settled goal ops) : t.Owes ops goal := by
  refine ⟨fun op member => ?_, sorted, fun op member => ?_, ?_, shapes, indexes, names, settled⟩
  · have turn := turns op member
    cases op with
    | createTable | dropTable => cases turn
    | _ => rfl
  · have turn := turns op member
    cases op with
    | addColumn => exact turn.1
    | dropColumn => exact turn.2
    | alterColumnType => exact ⟨turn.1, turn.2.1⟩
    | addConstraint | addIndex => exact turn
    | _ => trivial
  · intro n source target alters added
    obtain ⟨op, member, adds⟩ := (mem_total _ _ _).mp added
    cases op with
    | addColumn m column =>
        have same : target.name = column.name := Multiset.mem_singleton.mp adds
        exact (turns _ member).2 (same ▸ (turns _ alters).2.2)
    | _ => cases adds

/-! ### Matching -/

section Unmatched

variable {α κ : Type} (same : α → α → Bool)

theorem unmatched_sublist (old new : List α) :
    (unmatched same old new).1.Sublist old ∧ (unmatched same old new).2.Sublist new := by
  induction old generalizing new with
  | nil => exact ⟨List.Sublist.refl _, List.Sublist.refl _⟩
  | cons a old ih =>
      rw [unmatched]
      cases erased : eraseFirst? (same a) new with
      | some rest =>
          have shorter := erase_first_sublist (same a) new rest erased
          exact ⟨(ih rest).1.trans (List.sublist_cons_self a old), (ih rest).2.trans shorter⟩
      | none => exact ⟨(ih new).1.cons_cons a, (ih new).2⟩

theorem unmatched_tally (key : α → κ) (agree : ∀ a b, same a b = true ↔ key a = key b)
    (old new : List α) : tally key old + tally key (unmatched same old new).2
      = tally key (unmatched same old new).1 + tally key new := by
  have picks (a b : α) : same a b = true ↔ key b = key a := (agree a b).trans eq_comm
  induction old generalizing new with
  | nil => simp [unmatched]
  | cons a old ih =>
      rw [unmatched]
      cases erased : eraseFirst? (same a) new with
      | some rest =>
          rw [erase_first_tally key (key a) (same a) (picks a) new rest erased]
          simp only [tally_cons, Multiset.cons_add, Multiset.add_cons, ih rest]
      | none => simp only [tally_cons, Multiset.cons_add, ih new]

end Unmatched

/-! ### The pieces of the stages -/

section Pieces

variable (dialect : Dialect) (cur des : Table)

theorem column_change_ok (table : String) (column : Column) (ops : List Operation)
    (changed : Diff.columnChange dialect cur table column = .ok ops) (op : Operation)
    (member : op ∈ ops) :
    ∃ old, cur.column? column.name = some old ∧ old.sameDefinition column = false ∧
      op = .alterColumnType table old column := by
  unfold Diff.columnChange at changed
  cases found : cur.column? column.name with
  | none =>
      rw [found] at changed
      cases changed
      cases member
  | some old =>
      rw [found] at changed
      dsimp only at changed
      by_cases same : old.sameDefinition column = true
      · rw [if_pos same] at changed
        cases changed
        cases member
      · rw [if_neg same] at changed
        split at changed
        · cases changed
        · cases changed
          exact ⟨old, rfl, Bool.eq_false_iff.mpr same, List.mem_singleton.mp member⟩

theorem column_change_made (table : String) (column old : Column) (ops : List Operation)
    (changed : Diff.columnChange dialect cur table column = .ok ops)
    (found : cur.column? column.name = some old) :
    old.sameDefinition column = true ∨ .alterColumnType table old column ∈ ops := by
  unfold Diff.columnChange at changed
  rw [found] at changed
  dsimp only at changed
  by_cases same : old.sameDefinition column = true
  · exact .inl same
  · rw [if_neg same] at changed
    split at changed
    · cases changed
    · cases changed
      exact .inr (by simp)

theorem column_found (name : String) (c : Column) (found : cur.column? name = some c) :
    c ∈ cur.columns ∧ c.name = name :=
  ⟨List.mem_of_find?_eq_some found, by simpa using List.find?_some found⟩

theorem column_stage_ok (ops : List Operation) (staged : Diff.columnStage dialect cur des = .ok ops) :
    ∃ changes, ops = Diff.columnDrops cur des ++ changes ++ Diff.columnAdditions cur des ∧
      (∀ op ∈ changes, ∃ d ∈ des.columns, ∃ old, cur.column? d.name = some old ∧
        old.sameDefinition d = false ∧ op = .alterColumnType des.name old d) ∧
      ∀ d ∈ des.columns, ∀ old, cur.column? d.name = some old →
        old.sameDefinition d = true ∨ .alterColumnType des.name old d ∈ changes := by
  obtain ⟨each, changed, same⟩ := (bind_ok _ _ _).mp staged
  cases same
  have pairs := (map_m_ok _ _ _).mp changed
  refine ⟨each.flatten, rfl, fun op member => ?_, fun d member old found => ?_⟩
  · obtain ⟨some, inside, own⟩ := List.mem_flatten.mp member
    obtain ⟨d, found, made⟩ := partner_of_right _ _ _ pairs some inside
    exact ⟨d, found, column_change_ok dialect cur des.name d some made op own⟩
  · obtain ⟨some, inside, made⟩ := partner_of_left _ _ _ pairs d member
    exact (column_change_made dialect cur des.name d old some made found).imp_right
      fun own => List.mem_flatten.mpr ⟨some, inside, own⟩

theorem column_stage_turns (ops : List Operation) (staged : Diff.columnStage dialect cur des = .ok ops)
    (op : Operation) (member : op ∈ ops) :
    op.stage = 3 ∧ op.table = des.name ∧ op.Turns cur des := by
  obtain ⟨changes, rfl, altered, _⟩ := column_stage_ok dialect cur des ops staged
  rcases List.mem_append.mp member with front | added
  · rcases List.mem_append.mp front with dropped | changed
    · obtain ⟨c, inside, rfl⟩ := List.mem_map.mp dropped
      obtain ⟨own, gone⟩ := List.mem_filter.mp inside
      refine ⟨rfl, rfl, List.mem_map.mpr ⟨c, own, rfl⟩, ?_⟩
      rw [← mem_column_names]
      simpa using gone
    · obtain ⟨d, inside, old, found, _, rfl⟩ := altered op changed
      obtain ⟨own, named⟩ := column_found cur d.name old found
      exact ⟨rfl, rfl, named, inside, List.mem_map.mpr ⟨old, own, named⟩⟩
  · obtain ⟨c, inside, rfl⟩ := List.mem_map.mp added
    obtain ⟨own, fresh⟩ := List.mem_filter.mp inside
    refine ⟨rfl, rfl, own, ?_⟩
    rw [← mem_column_names]
    simpa using fresh

theorem column_stage_names (ops : List Operation) (staged : Diff.columnStage dialect cur des = .ok ops)
    (distinct : cur.columnNames.Nodup) (others : des.columnNames.Nodup) :
    Account.names.Reaches (Account.names.state cur) ops (Account.names.state des) := by
  obtain ⟨changes, rfl, altered, _⟩ := column_stage_ok dialect cur des ops staged
  have kept : tally Column.name (cur.columns.filter (des.hasColumn ·.name))
      = tally Column.name (des.columns.filter (cur.hasColumn ·.name)) := by
    have names (t : Table) (p : String → Bool) : (t.columns.filter (p ·.name)).map Column.name
        = t.columnNames.filter p := by
      rw [Table.columnNames, List.filter_map]
      rfl
    refine Multiset.coe_eq_coe.mpr ?_
    rw [names cur des.hasColumn, names des cur.hasColumn]
    refine (List.perm_ext_iff_of_nodup (distinct.filter _) (others.filter _)).mpr fun name => ?_
    simp only [List.mem_filter, mem_column_names, and_comm]
  have old := tally_filter Column.name (fun c => des.hasColumn c.name) cur.columns
  have new := tally_filter Column.name (fun c => cur.hasColumn c.name) des.columns
  have exchange := reaches_exchange Account.names Column.name
    (fun c => Operation.dropColumn des.name c.name) (Operation.addColumn des.name)
    (fun _ => ⟨rfl, rfl⟩) (fun _ => ⟨rfl, rfl⟩) cur.columns
    (cur.columns.filter (!des.hasColumn ·.name)) (des.columns.filter (!cur.hasColumn ·.name))
    (tally Column.name des.columns) (tally_sublist _ List.filter_sublist) (by
      simp only [Account.names, Multiset.map_id]
      rw [← old, ← new, kept]
      abel)
  have idle : Account.names.Reaches 0 changes 0 := by
    have none (op : Operation) (member : op ∈ changes) : op.droppedNames = 0 ∧ op.addedNames = 0 := by
      obtain ⟨_, _, _, _, _, rfl⟩ := altered op member
      exact ⟨rfl, rfl⟩
    have dropped := total_empty Operation.droppedNames changes fun op member => (none op member).1
    have added := total_empty Operation.addedNames changes fun op member => (none op member).2
    exact ⟨dropped.le, by simp [Account.names, dropped, added]⟩
  have joined := reaches_append Account.names _ _ _ _ _ _ exchange idle
  rw [add_zero, add_zero] at joined
  refine reaches_perm Account.names _ _ ?_ _ _ joined
  unfold Diff.columnDrops Diff.columnAdditions
  rw [List.append_assoc, List.append_assoc]
  exact List.perm_append_comm.append_left _

theorem column_stage_settled (ops : List Operation)
    (staged : Diff.columnStage dialect cur des = .ok ops) (distinct : cur.columnNames.Nodup)
    (c : Column) (member : c ∈ cur.columns) : c.Settled des ops := by
  obtain ⟨changes, rfl, _, made⟩ := column_stage_ok dialect cur des ops staged
  by_cases kept : des.hasColumn c.name = true
  · obtain ⟨d, inside, named⟩ := List.mem_map.mp ((mem_column_names des c.name).mp kept)
    have found : cur.column? d.name = some c := by
      rw [named]
      exact find_unique Column.name cur.columns distinct c member
    rcases made d inside c found with same | altered
    · exact .inr ⟨d, inside, same⟩
    · refine .inl ⟨.alterColumnType des.name c d, ?_, named⟩
      simp [altered]
  · refine .inl ⟨.dropColumn des.name c.name, ?_, rfl⟩
    have dropped : .dropColumn des.name c.name ∈ Diff.columnDrops cur des :=
      List.mem_map.mpr ⟨c, List.mem_filter.mpr ⟨member, by simpa using kept⟩, rfl⟩
    simp [dropped]

theorem key_stages_ok (stages : Stages) (staged : Diff.keyStages dialect cur des = .ok stages) :
    ∃ removed added : List Constraint, stages =
        { drops := removed.map (.dropConstraint des.name)
          additions := added.map (.addConstraint des.name) } ∧
      (removed = [] ∧ added = [] ∧ cur.primaryKeyColumns = des.primaryKeyColumns ∨
        removed = cur.primaryKey.toList ∧ added = des.primaryKey.toList) := by
  unfold Diff.keyStages at staged
  by_cases same : cur.primaryKeyColumns = des.primaryKeyColumns
  · rw [if_pos same] at staged
    cases staged
    exact ⟨[], [], rfl, .inl ⟨rfl, rfl, same⟩⟩
  · rw [if_neg same] at staged
    split at staged
    · cases staged
      exact ⟨_, _, rfl, .inr ⟨rfl, rfl⟩⟩
    · cases staged

theorem key_shape (t : Table) (wf : t.WellFormed) (key : Constraint)
    (found : t.primaryKey = some key) : key.shape = .primaryKey t.primaryKeyColumns := by
  have primary := wf.placed.keys key (by simp [Table.toDraft, found])
  simp only [Constraint.isPrimaryKey, decide_eq_true_eq] at primary
  simp [Constraint.shape, primary, key_columns t key found]

theorem key_tally (t : Table) (wf : t.WellFormed) : tally Constraint.shape t.primaryKey.toList
    = if t.primaryKeyColumns = [] then 0 else {Shape.primaryKey t.primaryKeyColumns} := by
  cases found : t.primaryKey with
  | none => simp [Table.primaryKeyColumns, found]
  | some key =>
      have listed := wf.sound.keys key (by simp [Table.toDraft, found])
      have columns := key_columns t key found
      rw [if_neg (columns ▸ listed.1), ← key_shape t wf key found]
      rfl

theorem key_stages_primary (keys : Stages) (curWf : cur.WellFormed) (desWf : des.WellFormed)
    (keyed : Diff.keyStages dialect cur des = .ok keys) (op : Operation)
    (member : op ∈ keys.operations) : ∃ c : Constraint, c.isPrimaryKey = true ∧
      (op = .dropConstraint des.name c ∨ op = .addConstraint des.name c) := by
  obtain ⟨removed, added, rfl, kept⟩ := key_stages_ok dialect cur des keys keyed
  have primary : (∀ c ∈ removed, c.isPrimaryKey = true) ∧ ∀ c ∈ added, c.isPrimaryKey = true := by
    rcases kept with ⟨rfl, rfl, _⟩ | ⟨rfl, rfl⟩
    · simp
    · exact ⟨curWf.placed.keys, desWf.placed.keys⟩
  simp only [Stages.operations, List.append_nil, List.nil_append, List.mem_append,
    List.mem_map] at member
  rcases member with ⟨c, inside, rfl⟩ | ⟨c, inside, rfl⟩
  · exact ⟨c, primary.1 c inside, .inl rfl⟩
  · exact ⟨c, primary.2 c inside, .inr rfl⟩

theorem key_stages_shapes (stages : Stages) (curWf : cur.WellFormed) (desWf : des.WellFormed)
    (staged : Diff.keyStages dialect cur des = .ok stages) :
    Account.shapes.Reaches (tally Constraint.shape cur.primaryKey.toList) stages.operations
      (tally Constraint.shape des.primaryKey.toList) := by
  obtain ⟨removed, added, rfl, kept | ⟨rfl, rfl⟩⟩ := key_stages_ok dialect cur des stages staged
  · obtain ⟨rfl, rfl, same⟩ := kept
    rw [key_tally cur curWf, key_tally des desWf, same]
    exact ⟨Multiset.zero_le _, by simp [Stages.operations, Account.shapes]⟩
  · have exchange := reaches_exchange Account.shapes Constraint.shape (Operation.dropConstraint des.name)
      (Operation.addConstraint des.name) (fun _ => ⟨rfl, rfl⟩) (fun _ => ⟨rfl, rfl⟩)
      cur.primaryKey.toList cur.primaryKey.toList des.primaryKey.toList
      (tally Constraint.shape des.primaryKey.toList) le_rfl (by simp [Account.shapes])
    simpa [Stages.operations] using exchange

theorem constraint_stages_perm :
    ((unmatched Constraint.structurallyEq cur.constraints des.constraints).1.map
        (Operation.dropConstraint des.name)
      ++ (unmatched Constraint.structurallyEq cur.constraints des.constraints).2.map
        (Operation.addConstraint des.name)).Perm (Diff.constraintStages cur des).operations := by
  cases matched : unmatched Constraint.structurallyEq cur.constraints des.constraints with
  | mk removed added =>
  simp only [Diff.constraintStages, matched, Stages.operations, List.append_nil]
  have split (l : List Constraint) : l.Perm
      (l.filter Constraint.isForeignKey ++ l.filter (!·.isForeignKey)) :=
    (List.filter_append_perm Constraint.isForeignKey l).symm
  have drops := (split removed).map (Operation.dropConstraint des.name)
  have adds := ((split added).trans List.perm_append_comm).map (Operation.addConstraint des.name)
  rw [List.map_append] at drops adds
  simpa using drops.append adds

theorem constraint_stages_shapes : Account.shapes.Reaches (tally Constraint.shape cur.constraints)
    (Diff.constraintStages cur des).operations (tally Constraint.shape des.constraints) := by
  have sub := unmatched_sublist Constraint.structurallyEq cur.constraints des.constraints
  have paired := unmatched_tally Constraint.structurallyEq Constraint.shape constraint_agree
    cur.constraints des.constraints
  have exchange := reaches_exchange Account.shapes Constraint.shape (Operation.dropConstraint des.name)
    (Operation.addConstraint des.name) (fun _ => ⟨rfl, rfl⟩) (fun _ => ⟨rfl, rfl⟩) cur.constraints
    _ _ (tally Constraint.shape des.constraints) (tally_sublist _ sub.1)
    (by simpa [Account.shapes] using paired)
  exact reaches_perm Account.shapes _ _ (constraint_stages_perm cur des) _ _ exchange

theorem index_stages_indexes : Account.indexes.Reaches (Account.indexes.state cur)
    (Diff.indexStages cur des).operations ((Account.indexes.state des).map Index.shape) := by
  have sub := unmatched_sublist Index.structurallyEq cur.indexes des.indexes
  have paired := unmatched_tally Index.structurallyEq Index.shape index_agree cur.indexes des.indexes
  have counted (l : List Index) : tally id l = ↑l := by simp [tally]
  have exchange := reaches_exchange Account.indexes id (Operation.dropIndex des.name)
    (Operation.addIndex des.name) (fun _ => ⟨rfl, rfl⟩) (fun _ => ⟨rfl, rfl⟩) cur.indexes _ _
    ((Account.indexes.state des).map Index.shape) (tally_sublist _ sub.1)
    (by simpa [Account.indexes, counted, tally] using paired)
  rw [counted] at exchange
  change Account.indexes.Reaches ↑cur.indexes _ _
  simpa [Diff.indexStages, Stages.operations] using exchange

theorem key_stages_turn (stages : Stages) (curWf : cur.WellFormed) (desWf : des.WellFormed)
    (staged : Diff.keyStages dialect cur des = .ok stages) :
    stages.All fun i op => op.stage = i ∧ op.table = des.name ∧ op.Turns cur des := by
  have primary (t : Table) (wf : t.WellFormed) (key : Constraint) (member : key ∈ t.primaryKey.toList) :
      key.isForeignKey = false := by
    have kind := wf.placed.keys key (by simpa [Table.toDraft] using member)
    simp only [Constraint.isPrimaryKey, decide_eq_true_eq] at kind
    simp [Constraint.isForeignKey, Constraint.reference?, kind]
  have declared (t : Table) (key : Constraint) (member : key ∈ t.primaryKey.toList) :
      key ∈ t.declared := List.mem_append.mpr (.inl member)
  obtain ⟨removed, added, rfl, kept⟩ := key_stages_ok dialect cur des stages staged
  have sub : removed ⊆ cur.primaryKey.toList ∧ added ⊆ des.primaryKey.toList := by
    rcases kept with ⟨rfl, rfl, _⟩ | ⟨rfl, rfl⟩ <;> simp
  constructor
  case drops =>
    intro op member
    obtain ⟨key, inside, rfl⟩ := List.mem_map.mp member
    exact ⟨by simp [Operation.stage, primary cur curWf key (sub.1 inside)], rfl,
      declared cur key (sub.1 inside)⟩
  case additions =>
    intro op member
    obtain ⟨key, inside, rfl⟩ := List.mem_map.mp member
    exact ⟨by simp [Operation.stage, primary des desWf key (sub.2 inside)], rfl,
      declared des key (sub.2 inside)⟩
  all_goals simp

theorem constraint_stages_turn : (Diff.constraintStages cur des).All fun i op =>
    op.stage = i ∧ op.table = des.name ∧ op.Turns cur des := by
  have sub := unmatched_sublist Constraint.structurallyEq cur.constraints des.constraints
  have dropped (c : Constraint) (member : c ∈ (unmatched Constraint.structurallyEq cur.constraints
      des.constraints).1) : c ∈ cur.declared := List.mem_append.mpr (.inr (sub.1.subset member))
  have added (c : Constraint) (member : c ∈ (unmatched Constraint.structurallyEq cur.constraints
      des.constraints).2) : c ∈ des.declared := List.mem_append.mpr (.inr (sub.2.subset member))
  constructor
  case foreignKeyDrops =>
    intro op member
    obtain ⟨c, inside, rfl⟩ := List.mem_map.mp member
    obtain ⟨own, foreign⟩ := List.mem_filter.mp inside
    exact ⟨by simp [Operation.stage, foreign], rfl, dropped c own⟩
  case drops =>
    intro op member
    obtain ⟨c, inside, rfl⟩ := List.mem_map.mp member
    obtain ⟨own, other⟩ := List.mem_filter.mp inside
    exact ⟨by simpa [Operation.stage] using other, rfl, dropped c own⟩
  case additions =>
    intro op member
    obtain ⟨c, inside, rfl⟩ := List.mem_map.mp member
    obtain ⟨own, other⟩ := List.mem_filter.mp inside
    exact ⟨by simpa [Operation.stage] using other, rfl, added c own⟩
  case foreignKeyAdditions =>
    intro op member
    obtain ⟨c, inside, rfl⟩ := List.mem_map.mp member
    obtain ⟨own, foreign⟩ := List.mem_filter.mp inside
    exact ⟨by simp [Operation.stage, foreign], rfl, added c own⟩
  all_goals simp [Diff.constraintStages]

theorem index_stages_turn : (Diff.indexStages cur des).All fun i op =>
    op.stage = i ∧ op.table = des.name ∧ op.Turns cur des := by
  have sub := unmatched_sublist Index.structurallyEq cur.indexes des.indexes
  constructor
  case drops =>
    intro op member
    obtain ⟨index, inside, rfl⟩ := List.mem_map.mp member
    exact ⟨rfl, rfl, sub.1.subset inside⟩
  case additions =>
    intro op member
    obtain ⟨index, inside, rfl⟩ := List.mem_map.mp member
    exact ⟨rfl, rfl, sub.2.subset inside⟩
  all_goals simp [Diff.indexStages]

end Pieces

/-! ### The whole -/

variable (dialect : Dialect) (cur des : Table) (stages : Stages)

theorem table_stages_ok (staged : Diff.tableStages dialect cur des = .ok stages) :
    ∃ columnChanges keys, Diff.columnStage dialect cur des = .ok columnChanges ∧
      Diff.keyStages dialect cur des = .ok keys ∧
      stages = { columnChanges } ++ keys ++ Diff.constraintStages cur des
        ++ Diff.indexStages cur des := by
  obtain ⟨columnChanges, columns, rest⟩ := (bind_ok _ _ _).mp staged
  obtain ⟨keys, keyed, same⟩ := (bind_ok _ _ _).mp rest
  cases same
  exact ⟨columnChanges, keys, columns, keyed, rfl⟩

theorem table_stages_turn (curWf : cur.WellFormed) (desWf : des.WellFormed)
    (staged : Diff.tableStages dialect cur des = .ok stages) :
    stages.All fun i op => op.stage = i ∧ op.table = des.name ∧ op.Turns cur des := by
  obtain ⟨columnChanges, keys, columns, keyed, rfl⟩ := table_stages_ok dialect cur des stages staged
  have columnPart : ({ columnChanges } : Stages).All fun i op =>
      op.stage = i ∧ op.table = des.name ∧ op.Turns cur des := by
    constructor
    case columnChanges => exact column_stage_turns dialect cur des columnChanges columns
    all_goals simp
  have keyPart := key_stages_turn dialect cur des keys curWf desWf keyed
  exact all_append _ _ _ (all_append _ _ _ (all_append _ _ _ columnPart keyPart)
    (constraint_stages_turn cur des)) (index_stages_turn cur des)

/-! Each piece is about one subject, and so about one of the accounts. -/

theorem key_stages_subject (keys : Stages) (keyed : Diff.keyStages dialect cur des = .ok keys) :
    ∀ op ∈ keys.operations, op.subject = .constraint := by
  obtain ⟨removed, added, rfl, _⟩ := key_stages_ok dialect cur des keys keyed
  intro op member
  simp only [Stages.operations, List.append_nil, List.nil_append, List.mem_append,
    List.mem_map] at member
  rcases member with ⟨c, _, rfl⟩ | ⟨c, _, rfl⟩ <;> rfl

theorem constraint_stages_subject :
    ∀ op ∈ (Diff.constraintStages cur des).operations, op.subject = .constraint := by
  intro op member
  simp only [Diff.constraintStages, Stages.operations, List.append_nil, List.mem_append,
    List.mem_map, or_assoc] at member
  rcases member with ⟨c, _, rfl⟩ | ⟨c, _, rfl⟩ | ⟨c, _, rfl⟩ | ⟨c, _, rfl⟩ <;> rfl

theorem index_stages_subject :
    ∀ op ∈ (Diff.indexStages cur des).operations, op.subject = .index := by
  intro op member
  simp only [Diff.indexStages, Stages.operations, List.append_nil, List.nil_append,
    List.mem_append, List.mem_map] at member
  rcases member with ⟨index, _, rfl⟩ | ⟨index, _, rfl⟩ <;> rfl

theorem table_stages_owe (curWf : cur.WellFormed) (desWf : des.WellFormed)
    (staged : Diff.tableStages dialect cur des = .ok stages) : cur.Owes stages.operations des := by
  have all := table_stages_turn dialect cur des stages curWf desWf staged
  have turns := all_operations _ _ (all_mono _ (fun _ op => op.Turns cur des) _ all
    fun _ _ facts => facts.2.2)
  have sorted := operations_sorted _ (all_mono _ (fun i op => op.stage = i) _ all
    fun _ _ facts => facts.1)
  obtain ⟨columnChanges, keys, columns, keyed, rfl⟩ := table_stages_ok dialect cur des stages staged
  have curNames := curWf.sound.columnsDistinct
  have desNames := desWf.sound.columnsDistinct
  have columnOps (op : Operation) (member : op ∈ columnChanges) : op.subject = .column :=
    stage_three_subject op (column_stage_turns dialect cur des columnChanges columns op member).1
  have keyOps := key_stages_subject dialect cur des keys keyed
  have constraintOps := constraint_stages_subject cur des
  have indexOps := index_stages_subject cur des
  have own : ({ columnChanges } : Stages).operations = columnChanges := by simp [Stages.operations]
  have columnPart {κ ι : Type} (account : Account κ ι) (apart : account.subject ≠ .column) :
      account.Reaches 0 ({ columnChanges } : Stages).operations 0 := by
    rw [own]
    exact reaches_apart account columnChanges .column columnOps apart 0 0 rfl
  refine owes_of_turns cur des _ turns sorted ?_ ?_ ?_ ?_
  · have keyPart := key_stages_shapes dialect cur des keys curWf desWf keyed
    have constraintPart := constraint_stages_shapes cur des
    have indexPart := reaches_apart Account.shapes _ .index indexOps (by decide) 0 0 rfl
    have whole := reaches_stages _ _ _ _ _ _ _ (reaches_stages _ _ _ _ _ _ _
      (reaches_stages _ _ _ _ _ _ _ (columnPart Account.shapes (by decide)) keyPart)
      constraintPart) indexPart
    simpa [Account.shapes, Table.declared] using whole
  · have keyPart := reaches_apart Account.indexes _ .constraint keyOps (by decide) 0 0 rfl
    have constraintPart := reaches_apart Account.indexes _ .constraint constraintOps (by decide) 0 0 rfl
    have whole := reaches_stages _ _ _ _ _ _ _ (reaches_stages _ _ _ _ _ _ _
      (reaches_stages _ _ _ _ _ _ _ (columnPart Account.indexes (by decide)) keyPart)
      constraintPart) (index_stages_indexes cur des)
    simpa using whole
  · have columnNames := column_stage_names dialect cur des columnChanges columns curNames desNames
    rw [← own] at columnNames
    have keyPart := reaches_apart Account.names _ .constraint keyOps (by decide) 0 0 rfl
    have constraintPart := reaches_apart Account.names _ .constraint constraintOps (by decide) 0 0 rfl
    have indexPart := reaches_apart Account.names _ .index indexOps (by decide) 0 0 rfl
    have whole := reaches_stages _ _ _ _ _ _ _ (reaches_stages _ _ _ _ _ _ _
      (reaches_stages _ _ _ _ _ _ _ columnNames keyPart) constraintPart) indexPart
    simpa using whole
  · intro c member
    refine (column_stage_settled dialect cur des columnChanges columns curNames c member).imp_left ?_
    rintro ⟨op, inside, revises⟩
    refine ⟨op, ?_, revises⟩
    simp only [mem_operations_append, own, inside, true_or]

/-! What looks at one subject only sees the operations of that subject, in their order. -/

section Look

variable {β : Type} (staged : Diff.tableStages dialect cur des = .ok stages)
  (f : Operation → Option β)

include staged

theorem column_operations (other : ∀ op, op.subject ≠ .column → f op = none) :
    ∃ changes, Diff.columnStage dialect cur des = .ok changes ∧
      stages.operations.filterMap f = changes.filterMap f := by
  obtain ⟨changes, keys, columns, keyed, rfl⟩ := table_stages_ok dialect cur des stages staged
  refine ⟨changes, columns, ?_⟩
  have silent (s : Stages) (subject : Subject) (apart : subject ≠ .column)
      (each : ∀ op ∈ s.operations, op.subject = subject) : ∀ op ∈ s.operations, f op = none :=
    fun op member => other op (each op member ▸ apart)
  rw [filter_map_front f _ _ (silent _ .index (by decide) (index_stages_subject cur des)),
    filter_map_front f _ _ (silent _ .constraint (by decide) (constraint_stages_subject cur des)),
    filter_map_front f _ _ (silent _ .constraint (by decide)
      (key_stages_subject dialect cur des keys keyed))]
  simp [Stages.operations]

theorem index_operations (other : ∀ op, op.subject ≠ .index → f op = none) :
    stages.operations.filterMap f = (Diff.indexStages cur des).operations.filterMap f := by
  obtain ⟨changes, keys, columns, keyed, rfl⟩ := table_stages_ok dialect cur des stages staged
  refine filter_map_back f _ _ fun op member => other op ?_
  rcases (mem_operations_append _ _ op).mp member with columnOrKey | constraint
  · rcases (mem_operations_append _ _ op).mp columnOrKey with column | key
    · have inside : op ∈ changes := by simpa [Stages.operations] using column
      have third := (column_stage_turns dialect cur des changes columns op inside).1
      rw [stage_three_subject op third]
      decide
    · rw [key_stages_subject dialect cur des keys keyed op key]
      decide
  · rw [constraint_stages_subject cur des op constraint]
    decide

theorem constraint_operations (curWf : cur.WellFormed) (desWf : des.WellFormed)
    (other : ∀ op, op.subject ≠ .constraint → f op = none)
    (keys : ∀ n c, c.isPrimaryKey = true →
      f (.dropConstraint n c) = none ∧ f (.addConstraint n c) = none) :
    stages.operations.filterMap f = (Diff.constraintStages cur des).operations.filterMap f := by
  obtain ⟨changes, keyStages, columns, keyed, rfl⟩ := table_stages_ok dialect cur des stages staged
  have columnPart : ∀ op ∈ ({ columnChanges := changes } : Stages).operations, f op = none := by
    intro op member
    have inside : op ∈ changes := by simpa [Stages.operations] using member
    have third := (column_stage_turns dialect cur des changes columns op inside).1
    exact other op (by rw [stage_three_subject op third]; decide)
  have indexPart : ∀ op ∈ (Diff.indexStages cur des).operations, f op = none := fun op member =>
    other op (by rw [index_stages_subject cur des op member]; decide)
  have keyPart : ∀ op ∈ keyStages.operations, f op = none := by
    intro op member
    obtain ⟨c, primary, rfl | rfl⟩ :=
      key_stages_primary dialect cur des keyStages curWf desWf keyed op member
    · exact (keys des.name c primary).1
    · exact (keys des.name c primary).2
  rw [filter_map_front f _ _ indexPart, filter_map_back f _ _ fun op member => ?_]
  rcases (mem_operations_append _ _ op).mp member with column | key
  · exact columnPart op column
  · exact keyPart op key

end Look

end SchemaDrift
