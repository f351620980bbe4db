import SchemaDrift.Proofs.Plan.Owes
/-!
The operation that a table owes next fits it. Only dropping a column and adding an index can fail:
what stays of the old table may be in the way.
-/

set_option autoImplicit false

namespace SchemaDrift

section Due

variable (t goal : Table) (op : Operation) (ops : List Operation) (wf : t.WellFormed)
  (goalWf : goal.WellFormed)

theorem late_rest (n : Nat) (owes : t.Owes (op :: ops) goal) (stage : n ≤ op.stage) :
    ∀ o ∈ op :: ops, n ≤ o.stage :=
  List.forall_mem_cons.mpr ⟨stage, fun o member =>
    stage.trans ((List.pairwise_cons.mp owes.sorted).1 o member)⟩

/-! ### What is dropped is there -/

theorem due_shape (n : String) (c : Constraint) (owes : t.Owes (.dropConstraint n c :: ops) goal) :
    c.shape ∈ tally Constraint.shape t.declared := by
  have covered := owes.shapes.covered
  rw [total_cons] at covered
  have own := (Multiset.le_add_right _ _).trans covered
  exact Multiset.mem_of_le own (Multiset.mem_singleton_self c.shape)

theorem due_index (n : String) (index : Index) (owes : t.Owes (.dropIndex n index :: ops) goal) :
    index ∈ t.indexes := by
  have covered := owes.indexes.covered
  rw [total_cons] at covered
  have own := (Multiset.le_add_right _ _).trans covered
  exact Multiset.mem_of_le own (Multiset.mem_singleton_self index)

theorem due_column (n name : String) (owes : t.Owes (.dropColumn n name :: ops) goal) :
    name ∈ t.columnNames := by
  have covered := owes.names.covered
  rw [total_cons] at covered
  have own := (Multiset.le_add_right _ _).trans covered
  exact Multiset.mem_of_le own (Multiset.mem_singleton_self name)

/-! ### Names of columns -/

theorem names_balance (owes : t.Owes ops goal) : (↑t.columnNames : Multiset String)
    + total Operation.addedNames ops = total Operation.droppedNames ops + ↑goal.columnNames := by
  simpa [Account.names] using owes.names.balance

theorem dropped_unwanted (owes : t.Owes ops goal) (name : String)
    (dropped : name ∈ total Operation.droppedNames ops) : name ∉ goal.columnNames := by
  obtain ⟨o, member, own⟩ := (mem_total _ _ _).mp dropped
  have serves := owes.serves o member
  cases o with
  | dropColumn n gone =>
      rw [show name = gone from Multiset.mem_singleton.mp own]
      exact serves
  | _ => cases own

include goalWf in
theorem due_fresh (n : String) (column : Column) (owes : t.Owes (.addColumn n column :: ops) goal) :
    column.name ∉ t.columnNames := by
  have wanted : column ∈ goal.columns := owes.serves (.addColumn n column) (by simp)
  have named : column.name ∈ goal.columnNames := List.mem_map.mpr ⟨column, wanted, rfl⟩
  have spared : column.name ∉ total Operation.droppedNames (.addColumn n column :: ops) :=
    fun dropped => dropped_unwanted t goal _ owes column.name dropped named
  -- The goal has the name once, and that is the one to be added.
  have once : Multiset.count column.name (↑goal.columnNames : Multiset String) = 1 :=
    (Multiset.coe_count _ _).trans (List.count_eq_one_of_mem goalWf.sound.columnsDistinct named)
  have balance := congrArg (Multiset.count column.name) (names_balance t goal _ owes)
  rw [Multiset.count_add, Multiset.count_add, total_cons, Multiset.count_add, once,
    Multiset.count_eq_zero_of_notMem spared] at balance
  have own : Multiset.count column.name (Operation.addColumn n column).addedNames = 1 :=
    Multiset.count_singleton_self column.name
  intro present
  have there := Multiset.one_le_count_iff_mem.mpr (show column.name ∈ (↑t.columnNames : Multiset _)
    from present)
  omega

theorem due_altered (n : String) (source target : Column)
    (owes : t.Owes (.alterColumnType n source target :: ops) goal) :
    target.name ∈ t.columnNames := by
  have serves : source.name = target.name ∧ target ∈ goal.columns :=
    owes.serves (.alterColumnType n source target) (by simp)
  have apart := owes.altered n source target (by simp)
  have wanted : target.name ∈ total Operation.droppedNames (.alterColumnType n source target :: ops)
      + ↑goal.columnNames :=
    Multiset.mem_add.mpr (.inr (List.mem_map.mpr ⟨target, serves.2, rfl⟩))
  rw [← names_balance t goal _ owes] at wanted
  exact (Multiset.mem_add.mp wanted).resolve_right apart

theorem late_columns (owes : t.Owes ops goal) (late : ∀ o ∈ ops, 4 ≤ o.stage) :
    t.columnNames.Perm goal.columnNames := by
  have balance := names_balance t goal ops owes
  rw [(late_names ops late).1, (late_names ops late).2, add_zero, zero_add] at balance
  exact Multiset.coe_eq_coe.mp balance

/-! ### What a table offers late in the plan -/

theorem late_indexes (owes : t.Owes ops goal) (late : ∀ o ∈ ops, 2 ≤ o.stage) :
    tally Index.shape t.indexes + (total Operation.addedIndexes ops).map Index.shape
      = tally Index.shape goal.indexes := by
  have balance := owes.indexes.balance
  simp only [Account.indexes, Multiset.map_add, (late_drops ops late).2, Multiset.map_zero,
    zero_add] at balance
  exact balance

include goalWf in
theorem key_count :
    Multiset.countP (·.isPrimaryKey = true) (tally Constraint.shape goal.declared) ≤ 1 := by
  have others : Multiset.countP (·.isPrimaryKey = true) (tally Constraint.shape goal.constraints)
      = 0 := by
    refine Multiset.countP_eq_zero.mpr fun s member primary => ?_
    obtain ⟨c, inside, rfl⟩ := (mem_tally _ _ _).mp member
    rw [shape_primary_key, goalWf.placed.constraints c inside] at primary
    cases primary
  rw [Table.declared, tally_append, Multiset.countP_add, others, add_zero]
  refine (Multiset.countP_le_card _ _).trans ?_
  rw [tally, Multiset.coe_card, List.length_map]
  exact goalWf.sound.singleKey

theorem due_key (n : String) (c : Constraint) (primary : c.isPrimaryKey = true)
    (owes : t.Owes (.addConstraint n c :: ops) goal) (wf : t.WellFormed) (goalWf : goal.WellFormed) :
    t.primaryKey = none := by
  have stage : 2 ≤ (Operation.addConstraint n c).stage := by
    simp only [Operation.stage]
    split <;> omega
  have balance := late_shapes t goal _ owes (late_rest t goal _ ops 2 owes stage)
  have single := key_count goal goalWf
  rw [← balance, total_cons, Multiset.countP_add, Multiset.countP_add] at single
  have own : 0 < Multiset.countP (·.isPrimaryKey = true) (Operation.addConstraint n c).addedShapes :=
    Multiset.countP_pos.mpr ⟨c.shape, Multiset.mem_singleton_self _, by rw [shape_primary_key, primary]⟩
  cases found : t.primaryKey with
  | none => rfl
  | some key =>
      have kind := wf.placed.keys key (by simp [Table.toDraft, found])
      have there : 0 < Multiset.countP (·.isPrimaryKey = true) (tally Constraint.shape t.declared) := by
        refine Multiset.countP_pos.mpr ⟨key.shape, (mem_tally _ _ _).mpr ⟨key, ?_, rfl⟩, ?_⟩
        · simp [Table.declared, found]
        · rw [shape_primary_key, kind]
      omega

theorem has_key_iff (wf : t.WellFormed) (columns : List String) : t.hasKey columns = true ↔
    ∃ key, (Shape.primaryKey key ∈ tally Constraint.shape t.declared ∨
      Shape.unique key ∈ tally Constraint.shape t.declared ∨
      ∃ l, (true, l) ∈ tally Index.shape t.indexes ∧ l.map IndexColumn.name = key) ∧
      sameMembers key columns = true := by
  simp only [Table.hasKey, List.any_eq_true, Table.keys, List.mem_append, List.mem_map,
    List.mem_filter]
  refine exists_congr fun key => and_congr_left fun _ => ?_
  constructor
  · rintro ((⟨c, member, rfl⟩ | ⟨c, ⟨member, kind⟩, rfl⟩) | ⟨index, ⟨member, only⟩, rfl⟩)
    · have primary := wf.placed.keys c member
      simp only [Constraint.isPrimaryKey, decide_eq_true_eq] at primary
      exact .inl ((mem_tally _ _ _).mpr ⟨c, List.mem_append.mpr (.inl member),
        by simp [Constraint.shape, primary]⟩)
    · simp only [decide_eq_true_eq] at kind
      exact .inr (.inl ((mem_tally _ _ _).mpr ⟨c, List.mem_append.mpr (.inr member),
        by simp [Constraint.shape, kind]⟩))
    · exact .inr (.inr ⟨index.columns, (mem_tally _ _ _).mpr ⟨index, member,
        by simp [Index.shape, only]⟩, rfl⟩)
  · rintro (primary | only | ⟨l, only, named⟩)
    · obtain ⟨c, member, same⟩ := (mem_tally _ _ _).mp primary
      have kind : c.isPrimaryKey = true := by rw [← shape_primary_key, same]; rfl
      refine .inl (.inl ⟨c, (List.mem_append.mp member).resolve_right fun other => ?_,
        shape_columns c key (same ▸ rfl)⟩)
      rw [wf.placed.constraints c other] at kind
      cases kind
    · obtain ⟨c, member, same⟩ := (mem_tally _ _ _).mp only
      have kind : c.kind = .unique := by
        unfold Constraint.shape at same
        split at same <;> first | assumption | cases same
      refine .inl (.inr ⟨c, ⟨(List.mem_append.mp member).resolve_left fun key => ?_, by simp [kind]⟩,
        shape_columns c key (same ▸ rfl)⟩)
      have primary := wf.placed.keys c key
      simp [Constraint.isPrimaryKey, kind] at primary
    · obtain ⟨index, member, same⟩ := (mem_tally _ _ _).mp only
      obtain ⟨unique, columns⟩ := Prod.mk.inj same
      exact .inr ⟨index, ⟨member, unique⟩, by rw [Index.columnNames, columns, named]⟩

theorem late_offers (wf : t.WellFormed) (goalWf : goal.WellFormed) (owes : t.Owes ops goal)
    (late : ∀ o ∈ ops, 5 ≤ o.stage) :
    goal.columnNames ⊆ t.columnNames ∧
      ∀ columns, goal.hasKey columns = true → t.hasKey columns = true := by
  have early : ∀ o ∈ ops, 2 ≤ o.stage := fun o member => le_trans (by omega) (late o member)
  obtain ⟨noIndex, foreign⟩ := late_additions ops late
  have shapes := late_shapes t goal ops owes early
  have same : tally Index.shape t.indexes = tally Index.shape goal.indexes := by
    have balance := late_indexes t goal ops owes early
    rwa [noIndex, Multiset.map_zero, add_zero] at balance
  have kept (s : Shape) (member : s ∈ tally Constraint.shape goal.declared)
      (other : s.isForeignKey = false) : s ∈ tally Constraint.shape t.declared := by
    rw [← shapes] at member
    refine (Multiset.mem_add.mp member).resolve_right fun added => ?_
    rw [foreign s added] at other
    cases other
  refine ⟨(late_columns t goal ops owes fun o member => le_trans (by omega) (late o member)).symm.subset,
    fun columns => ?_⟩
  rw [has_key_iff goal goalWf, has_key_iff t wf, same]
  rintro ⟨key, offered, members⟩
  exact ⟨key, offered.imp (kept _ · rfl) (.imp_left (kept _ · rfl)), members⟩

end Due

/-! ### The operation applies -/

def Table.Grows (table : Table) (op : Operation) (next : Table) : Prop :=
  table.Becomes op next ∧ table.columnNames ⊆ next.columnNames ∧
    ∀ c ∈ next.constraints, c ∈ table.constraints ∨ ∃ n, op = .addConstraint n c

theorem grows_of_draft (t : Table) (op : Operation) (draft : TableDraft)
    (changed : t.toDraft.Changed op draft) (sound : draft.Sound)
    (names : t.columnNames ⊆ draft.columnNames)
    (constraints : ∀ c ∈ draft.constraints, c ∈ t.constraints ∨ ∃ n, op = .addConstraint n c) :
    ∃ next, t.Grows op next := by
  refine ⟨draft.toTable 0, ⟨draft, changed, sound, rfl⟩, ?_, constraints⟩
  rw [built_column_names]
  exact names

section Applies

variable (t goal : Table) (ops : List Operation) (wf : t.WellFormed) (goalWf : goal.WellFormed)

theorem due_erased (c : Constraint) (l : List Constraint) (present : ∃ d ∈ l, d.shape = c.shape) :
    ∃ rest, eraseFirst? (·.structurallyEq c) l = some rest ∧ rest.Sublist l := by
  obtain ⟨rest, erased⟩ := erase_first_present Constraint.shape c.shape _ (constraint_agree · c) l
    ((mem_tally _ _ _).mpr present)
  exact ⟨rest, erased, erase_first_sublist _ _ _ erased⟩

include wf

theorem drop_constraint_applies (n : String) (c : Constraint)
    (owes : t.Owes (.dropConstraint n c :: ops) goal) : ∃ next, t.Grows (.dropConstraint n c) next := by
  obtain ⟨d, member, same⟩ := (mem_tally _ _ _).mp (due_shape t goal ops n c owes)
  have kind : d.isPrimaryKey = c.isPrimaryKey := by
    rw [← shape_primary_key, same, shape_primary_key]
  rcases List.mem_append.mp member with key | other
  · have primary : c.isPrimaryKey = true := kind ▸ wf.placed.keys d key
    obtain ⟨rest, erased, sub⟩ := due_erased c t.toDraft.primaryKeys ⟨d, key, same⟩
    exact grows_of_draft t _ _ (.dropKey n c rest primary erased)
      (sound_fewer t.toDraft rest _ _ wf.sound sub (List.Sublist.refl _) (List.Sublist.refl _))
      (List.Subset.refl _) fun c member => .inl member
  · have apart : c.isPrimaryKey = false := kind ▸ wf.placed.constraints d other
    obtain ⟨rest, erased, sub⟩ := due_erased c t.constraints ⟨d, other, same⟩
    exact grows_of_draft t _ _ (.dropConstraint n c rest apart erased)
      (sound_fewer t.toDraft _ rest _ wf.sound (List.Sublist.refl _) sub (List.Sublist.refl _))
      (List.Subset.refl _) fun c member => .inl (sub.subset member)

theorem drop_index_applies (n : String) (index : Index)
    (owes : t.Owes (.dropIndex n index :: ops) goal) : ∃ next, t.Grows (.dropIndex n index) next := by
  have present := due_index t goal ops n index owes
  exact grows_of_draft t _ _ (.dropIndex n index (List.mem_map.mpr ⟨index, present, rfl⟩))
    (sound_fewer t.toDraft _ _ _ wf.sound (List.Sublist.refl _) (List.Sublist.refl _)
      List.filter_sublist)
    (List.Subset.refl _) fun c member => .inl member

include goalWf

theorem add_column_applies (n : String) (column : Column)
    (owes : t.Owes (.addColumn n column :: ops) goal) : ∃ next, t.Grows (.addColumn n column) next := by
  have fresh := due_fresh t goal ops goalWf n column owes
  have wanted : column ∈ goal.columns := owes.serves (.addColumn n column) (by simp)
  have names : (t.toDraft.columns ++ [column]).map Column.name = t.columnNames ++ [column.name] := by
    simp [Table.columnNames, Table.toDraft]
  have wider : t.columnNames ⊆ (t.toDraft.columns ++ [column]).map Column.name := by
    rw [names]
    exact List.subset_append_left _ _
  refine grows_of_draft t _ _ (.addColumn n column fresh) (sound_wider t.toDraft _ wf.sound wider ?_ ?_)
    wider fun c member => .inl member
  · rw [names, List.mem_append, List.mem_singleton, not_or]
    refine ⟨wf.sound.columnsNamed, fun empty => goalWf.sound.columnsNamed ?_⟩
    exact List.mem_map.mpr ⟨column, wanted, empty.symm⟩
  · rw [names, List.nodup_append]
    refine ⟨wf.sound.columnsDistinct, List.nodup_singleton _, fun a old b new same => fresh ?_⟩
    rw [← List.mem_singleton.mp new, ← same]
    exact old

omit goalWf in
theorem alter_column_applies (n : String) (source target : Column)
    (owes : t.Owes (.alterColumnType n source target :: ops) goal) :
    ∃ next, t.Grows (.alterColumnType n source target) next := by
  have serves : source.name = target.name ∧ target ∈ goal.columns :=
    owes.serves (.alterColumnType n source target) (by simp)
  have names := replace_column_names target t.columns
  refine grows_of_draft t _ _
    (.alterColumn n source target serves.1 (due_altered t goal ops n source target owes))
    (sound_columns t.toDraft _ _ names wf.sound) ?_ fun c member => .inl member
  unfold TableDraft.columnNames
  rw [show (TableDraft.replaceFirst target t.toDraft.columns).map Column.name = t.columnNames
    from names]
  exact List.Subset.refl _

theorem add_constraint_applies (n : String) (c : Constraint)
    (owes : t.Owes (.addConstraint n c :: ops) goal) : ∃ next, t.Grows (.addConstraint n c) next := by
  have stage : 4 ≤ (Operation.addConstraint n c).stage := by
    simp only [Operation.stage]
    split <;> omega
  have late := late_rest t goal _ ops 4 owes stage
  have columns : goal.columnNames ⊆ t.columnNames :=
    (late_columns t goal _ owes late).symm.subset
  have declared : c ∈ goal.declared := owes.serves (.addConstraint n c) (by simp)
  have sound := wf.sound
  cases primary : c.isPrimaryKey with
  | true =>
      have none : t.toDraft.primaryKeys = [] := by
        rw [Table.toDraft, due_key t goal ops n c primary owes wf goalWf]
        rfl
      have found := declared_key goal goalWf c declared primary
      have lists := goalWf.sound.keys c (by simp [Table.toDraft, found])
      refine grows_of_draft t _ _ (.addKey n c primary) { sound with singleKey := ?_, keys := ?_ }
        (List.Subset.refl _) fun c member => .inl member
      · rw [none]
        exact le_rfl
      · rw [none]
        intro key member
        rw [List.mem_singleton.mp member]
        exact lists_wider _ _ _ columns lists
  | false =>
      have own : c ∈ goal.constraints := by
        refine (List.mem_append.mp declared).resolve_left fun key => ?_
        rw [goalWf.placed.keys c key] at primary
        cases primary
      refine grows_of_draft t _ _ (.addConstraint n c primary) { sound with constraints := ?_ }
        (List.Subset.refl _) fun d member => ?_
      · intro d member
        rcases List.mem_append.mp member with old | new
        · exact sound.constraints d old
        · rw [List.mem_singleton.mp new]
          exact fits_wider _ _ c columns (goalWf.sound.constraints c own)
      · rcases List.mem_append.mp member with old | new
        · exact .inl old
        · exact .inr ⟨n, by rw [List.mem_singleton.mp new]⟩

theorem due_applies (op : Operation) (owes : t.Owes (op :: ops) goal)
    (columns : op.kind ≠ .dropColumn) (indexes : op.kind ≠ .addIndex) :
    ∃ next, t.Grows op next := by
  cases op with
  | createTable | dropTable => exact absurd (owes.inPlace _ List.mem_cons_self) Bool.false_ne_true
  | addColumn n column => exact add_column_applies t goal ops wf goalWf n column owes
  | alterColumnType n source target => exact alter_column_applies t goal ops wf n source target owes
  | addConstraint n c => exact add_constraint_applies t goal ops wf goalWf n c owes
  | dropConstraint n c => exact drop_constraint_applies t goal ops wf n c owes
  | dropIndex n index => exact drop_index_applies t goal ops wf n index owes
  | dropColumn => exact absurd rfl columns
  | addIndex => exact absurd rfl indexes

end Applies

end SchemaDrift
