import SchemaDrift.Proofs.Plan.Cut
/-!
Replaying a whole plan leads to the source: every table comes out with the columns, keys,
constraints and indexes that it has there.
-/

set_option autoImplicit false

namespace SchemaDrift

theorem declared_filter (t : Table) (wf : t.WellFormed) :
    (tally Constraint.shape t.declared).filter (·.isPrimaryKey = true)
        = tally Constraint.shape t.primaryKey.toList ∧
      (tally Constraint.shape t.declared).filter (¬·.isPrimaryKey = true)
        = tally Constraint.shape t.constraints := by
  have keys : ∀ s ∈ tally Constraint.shape t.primaryKey.toList, s.isPrimaryKey = true := by
    intro s member
    obtain ⟨c, inside, rfl⟩ := (mem_tally _ _ _).mp member
    rw [shape_primary_key]
    exact wf.placed.keys c inside
  have others : ∀ s ∈ tally Constraint.shape t.constraints, ¬s.isPrimaryKey = true := by
    intro s member
    obtain ⟨c, inside, rfl⟩ := (mem_tally _ _ _).mp member
    rw [shape_primary_key, wf.placed.constraints c inside]
    exact Bool.false_ne_true
  rw [Table.declared, tally_append, Multiset.filter_add, Multiset.filter_add]
  constructor
  · rw [Multiset.filter_eq_self.mpr keys, Multiset.filter_eq_nil.mpr others, add_zero]
  · rw [Multiset.filter_eq_self.mpr others, Multiset.filter_eq_nil.mpr fun s member =>
      not_not_intro (keys s member), zero_add]

theorem same_key_columns (t u : Table) (tableWf : t.WellFormed) (otherWf : u.WellFormed)
    (same : tally Constraint.shape t.declared = tally Constraint.shape u.declared) :
    t.primaryKeyColumns = u.primaryKeyColumns := by
  have keys := (declared_filter t tableWf).1.symm.trans
    ((congrArg _ same).trans (declared_filter u otherWf).1)
  rw [key_tally t tableWf, key_tally u otherWf] at keys
  by_cases first : t.primaryKeyColumns = []
  · by_cases second : u.primaryKeyColumns = []
    · rw [first, second]
    · rw [if_pos first, if_neg second] at keys
      exact absurd keys.symm (Multiset.singleton_ne_zero _)
  · by_cases second : u.primaryKeyColumns = []
    · rw [if_neg first, if_pos second] at keys
      exact absurd keys (Multiset.singleton_ne_zero _)
    · rw [if_neg first, if_neg second] at keys
      exact Shape.primaryKey.inj (Multiset.singleton_inj.mp keys)

theorem owes_nothing (t goal : Table) (wf : t.WellFormed) (goalWf : goal.WellFormed)
    (named : t.name = goal.name) (owes : t.Owes [] goal) : t.equivalent goal = true := by
  have shapes := late_shapes t goal [] owes (by simp)
  have indexes := late_indexes t goal [] owes (by simp)
  have names := late_columns t goal [] owes (by simp)
  simp only [total_nil, add_zero, Multiset.map_zero] at shapes indexes
  have constraints := (declared_filter t wf).2.symm.trans
    ((congrArg _ shapes).trans (declared_filter goal goalWf).2)
  have lengths : t.columns.length = goal.columns.length := by
    simpa [Table.columnNames] using names.length_eq
  have columns : ∀ c ∈ t.columns, (goal.column? c.name).any c.sameDefinition = true := by
    intro c member
    rcases owes.settled c member with ⟨_, never, _⟩ | ⟨d, inside, same⟩
    · cases never
    · have name : c.name = d.name := by
        simp only [Column.sameDefinition, Bool.and_eq_true, decide_eq_true_eq] at same
        exact same.1.1.1.1
      rw [name, show goal.column? d.name = some d from
        find_unique Column.name goal.columns goalWf.sound.columnsDistinct d inside, Option.any_some]
      exact same
  simp only [Table.equivalent, Bool.and_eq_true, decide_eq_true_eq, List.all_eq_true,
    same_multiset_iff Constraint.shape _ constraint_agree, same_multiset_iff Index.shape _ index_agree]
  exact ⟨⟨⟨⟨⟨named, lengths⟩, columns⟩, same_key_columns t goal wf goalWf shapes⟩, constraints⟩, indexes⟩

section Done

variable (dialect : Dialect) (source destination reached : Schema) (ops : List Operation)
  (cut : Cut dialect source destination ops [] reached)

include cut

-- At the end of a plan the tables are those of the source, and they owe nothing.
theorem done_table (name : String) :
    (∃ u des, reached.table? name = some u ∧ source.table? name = some des ∧ u.Owes [] des) ∨
      reached.table? name = none ∧ source.table? name = none := by
  have progress := cut_progress dialect source destination reached ops [] cut name
  generalize ops.filter (·.table = name) = done at progress
  generalize destination.table? name = before at progress
  generalize source.table? name = after at progress
  generalize reached.table? name = now at progress
  rw [List.filter_nil] at progress
  generalize owed : ([] : List Operation) = back at progress
  cases progress with
  | unknown | gone => exact .inr ⟨rfl, rfl⟩
  | kept cur des u _ _ _ _ _ _ owes =>
      subst owed
      exact .inl ⟨u, des, rfl, rfl, owes⟩
  | created des u _ _ _ _ _ _ owes =>
      subst owed
      exact .inl ⟨u, des, rfl, rfl, owes⟩
  | awaited => cases owed
  | leaving =>
      have length := congrArg List.length owed
      simp at length

theorem done_names : reached.tableNames.Perm source.tableNames := by
  have wf := cut_reached dialect source destination reached ops [] cut
  refine (List.perm_ext_iff_of_nodup wf.distinct cut.sourceWf.distinct).mpr fun name => ?_
  rw [← has_table_iff, ← has_table_iff, has_table_some, has_table_some]
  rcases done_table dialect source destination reached ops cut name with
    ⟨u, des, now, after, _⟩ | ⟨now, after⟩
  · rw [now, after]
    exact ⟨fun _ => ⟨des, rfl⟩, fun _ => ⟨u, rfl⟩⟩
  · rw [now, after]

theorem done_equivalent : reached.equivalent source = true := by
  have wf := cut_reached dialect source destination reached ops [] cut
  have lengths := (done_names dialect source destination reached ops cut).length_eq
  simp only [Schema.tableNames, List.length_map] at lengths
  simp only [Schema.equivalent, Bool.and_eq_true, decide_eq_true_eq, List.all_eq_true]
  refine ⟨lengths, fun t member => ?_⟩
  have found := table_of_mem reached wf.distinct t member
  rcases done_table dialect source destination reached ops cut t.name with
    ⟨u, des, now, after, owes⟩ | ⟨absent, _⟩
  · cases now.symm.trans found
    obtain ⟨inside, named⟩ := table_found source t.name des after
    rw [after, Option.any_some]
    exact owes_nothing t des (wf.tables t member) (cut.sourceWf.tables des inside) named.symm owes
  · rw [absent] at found
    cases found

end Done

-- A plan that can be replayed leads to the canonical source, up to what `equivalent` ignores.
theorem replay_converges (dialect : Dialect) (source destination S D R : Schema) (plan : Plan)
    (sourceValid : source.Validated) (destinationValid : destination.Validated)
    (sourceImage : dialect.canonicalize source = .ok S)
    (destinationImage : dialect.canonicalize destination = .ok D)
    (planned : diff dialect source destination = .ok plan)
    (replayed : D.apply dialect.applyRules plan.operations = .ok R) : R.equivalent S = true := by
  have cut := cut_of_diff dialect source destination S D R plan plan.operations [] sourceValid
    destinationValid sourceImage destinationImage planned (List.append_nil _).symm replayed
  exact done_equivalent dialect S D R plan.operations cut

theorem shop_converges : ∃ R,
    Shop.before.apply Dialect.spanner.applyRules Shop.plan.operations = .ok R ∧
      R.equivalent Shop.after = true := by
  refine ⟨_, rfl, ?_⟩
  exact replay_converges .spanner Shop.after Shop.before Shop.after Shop.before _ Shop.plan
    Shop.after_validated Shop.before_validated rfl rfl Shop.planned rfl

end SchemaDrift
