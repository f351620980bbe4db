import SchemaDrift.Proofs.Plan.Reference
/-!
A plan can be replayed: wherever its front has been applied, the next operation applies too, but for
the drop of a column and the addition of an index.
-/

set_option autoImplicit false

namespace SchemaDrift

open CreationOrder

section Cut

variable (dialect : Dialect) (source destination reached : Schema) (front rest : List Operation)
  (op : Operation) (cut : Cut dialect source destination front (op :: rest) reached)

include cut

theorem cut_in_place (inPlace : op.inPlace = true) :
    ∃ u goal ops, reached.table? op.table = some u ∧ u.WellFormed ∧ goal.WellFormed ∧
      u.Owes (op :: ops) goal ∧ (∀ o ∈ ops, op.stage ≤ o.stage) ∧
      (source.table? op.table = some goal ∨ op.stage ≤ 1) := by
  have wf := cut_reached dialect source destination reached front (op :: rest) cut
  have stages := back_stages dialect source destination reached front rest op cut op.table
  have tables := table_well_formed dialect source destination reached front (op :: rest) cut op.table
  have reachedWf (u : Table) (found : reached.table? op.table = some u) : u.WellFormed :=
    wf.tables u (table_found reached op.table u found).1
  rw [own_back op rest] at stages
  have later : ∀ o ∈ rest.filter (·.table = op.table), op.stage ≤ o.stage :=
    fun o member => stages o (List.mem_cons_of_mem op member)
  cases cut_next dialect source destination reached front rest op cut with
  | kept cur des u _ _ wanted found _ _ _ owes =>
      exact ⟨u, des, _, found, reachedWf u found, (tables des).2 wanted, owes, later, .inl wanted⟩
  | created des u _ _ _ _ wanted found _ _ owes =>
      exact ⟨u, des, _, found, reachedWf u found, (tables des).2 wanted, owes, later, .inl wanted⟩
  | awaited _ _ _ _ creates =>
      rw [creates] at inPlace
      cases inPlace
  | leaving cur u tail existed found own within owes =>
      exact ⟨u, _, tail, found, reachedWf u found,
        stripped_well_formed _ _ cur ((tables cur).1 existed), owes,
        fun o member => later o (within member), .inr (leaving_stages dialect _ cur op own)⟩
  | dropped _ _ _ _ _ drops =>
      rw [drops] at inPlace
      cases inPlace

theorem added_reference (keyed : source.Keyed) (u v goal : Table) (ops : List Operation)
    (inPlace : op.inPlace = true) (found : reached.table? op.table = some u) (uWf : u.WellFormed)
    (goalWf : goal.WellFormed) (owes : u.Owes (op :: ops) goal)
    (later : ∀ o ∈ ops, op.stage ≤ o.stage)
    (wanted : source.table? op.table = some goal ∨ op.stage ≤ 1) (becomes : u.Becomes op v)
    (r : Reference) (new : r ∈ op.newReferences) :
    (reached.withTable v).Resolves r ∧ (reached.withTable v).isKeyed r = true := by
  cases op with
  | addConstraint n c =>
      have points : c.reference? = some r := by simpa [Operation.newReferences] using new
      have foreign : c.isForeignKey = true := by simp [Constraint.isForeignKey, points]
      have last : (Operation.addConstraint n c).stage = 6 := by simp [Operation.stage, foreign]
      have des := wanted.resolve_right (by omega)
      obtain ⟨member, named⟩ := table_found source n goal des
      have own : c ∈ goal.constraints :=
        declared_foreign goal goalWf c r points (owes.serves _ List.mem_cons_self)
      have target : v.name = n :=
        (becomes_keeps u v _ uWf becomes).1.trans (table_found reached n u found).2
      refine offered_reference source _ r (cut.sourceWf.resolved goal member c own r points)
        (keyed goal member c own r points) fun other looked => ?_
      rw [with_table_lookup]
      by_cases self : r.table = v.name
      · rw [if_pos self, self, target, show reached.table? n = some u from found]
        have same : goal = other := by
          rw [self, target, show source.table? n = some goal from des] at looked
          exact Option.some.inj looked
        subst same
        have done := owes_step u v goal _ ops uWf goalWf becomes owes
        exact ⟨v, rfl, late_offers v goal ops (becomes_keeps u v _ uWf becomes).2.2 goalWf done
          fun o inside => le_trans (by omega) (later o inside)⟩
      · rw [if_neg self]
        obtain ⟨w, there⟩ := cut_present dialect source destination reached front rest _ cut
          (by omega) r.table other looked
        exact ⟨w, there, cut_offers dialect source destination reached front rest _ cut (by omega)
          r.table other w looked there⟩
  | createTable | dropTable => cases inPlace
  | _ => cases new

theorem in_place_applies (keyed : source.Keyed) (inPlace : op.inPlace = true)
    (columns : op.kind ≠ .dropColumn) (indexes : op.kind ≠ .addIndex) :
    ∃ next, reached.applyOne dialect.applyRules op = .ok next := by
  obtain ⟨u, goal, ops, found, uWf, goalWf, owes, later, wanted⟩ :=
    cut_in_place dialect source destination reached front rest op cut inPlace
  obtain ⟨v, grows⟩ := due_applies u goal ops uWf goalWf op owes columns indexes
  have wf := cut_reached dialect source destination reached front (op :: rest) cut
  have added := added_reference dialect source destination reached front rest op cut keyed u v goal ops
    inPlace found uWf goalWf owes later wanted grows.1
  exact ⟨_, growth_applies _ reached op u v wf inPlace found grows added⟩

theorem cut_create (c : Table) (creates : op = .createTable c) :
    ∃ des pending, reached.table? c.name = none ∧ source.table? c.name = some des ∧
      c = without des (blocking pending des) := by
  subst creates
  cases cut_next dialect source destination reached front rest _ cut with
  | kept _ _ _ _ _ _ _ _ _ _ owes | created _ _ _ _ _ _ _ _ _ _ owes | leaving _ _ _ _ _ _ _ owes =>
      exact absurd (owes.inPlace _ List.mem_cons_self) Bool.false_ne_true
  | awaited des pending wanted absent creates =>
      exact ⟨des, pending, absent, wanted, Operation.createTable.inj creates⟩
  | dropped _ _ _ _ _ drops => cases drops

theorem created_reference (keyed : source.Keyed) (c des : Table) (pending : String → Bool)
    (creates : op = .createTable c) (absent : reached.table? c.name = none)
    (wanted : source.table? c.name = some des) (whole : c = without des (blocking pending des))
    (k : Constraint) (own : k ∈ c.constraints) (r : Reference) (points : k.reference? = some r) :
    (reached.withNew c).Resolves r ∧ (reached.withNew c).isKeyed r = true := by
  have payload := cut_payload dialect source destination reached front (op :: rest) cut op (by simp)
  obtain ⟨member, named⟩ := table_found source c.name des wanted
  have desWf := cut.sourceWf.tables des member
  have inSource : k ∈ des.constraints := by
    rw [whole] at own
    exact (without_sublist des _).subset own
  refine offered_reference source _ r (cut.sourceWf.resolved des member k inSource r points)
    (keyed des member k inSource r points) fun other looked => ?_
  rw [with_new_lookup]
  by_cases self : r.table = c.name
  · rw [self, absent, if_pos rfl, Option.none_or]
    have same : des = other := by
      rw [self, wanted] at looked
      exact Option.some.inj looked
    subst same
    have owes := deferred_owe des pending reached.toDraft.nextOrdinal
    rw [← whole] at owes
    refine ⟨_, rfl, late_offers _ des _ ?_ desWf owes fun o inside => ?_⟩
    · rw [creates] at payload
      exact ordinal_well_formed c _ payload
    · obtain ⟨d, split, rfl⟩ := List.mem_map.mp inside
      simp [Operation.stage, (foreign_key_filtered des pending d split).2]
  · have stage : 5 ≤ op.stage := by rw [creates]; exact le_rfl
    obtain ⟨u, there⟩ := cut_target dialect source destination reached front rest op cut c creates k r
      own points self other looked
    rw [there]
    exact ⟨u, rfl, cut_offers dialect source destination reached front rest op cut stage r.table
      other u looked there⟩

theorem create_applies (keyed : source.Keyed) (c : Table) (creates : op = .createTable c) :
    ∃ next, reached.applyOne dialect.applyRules op = .ok next := by
  obtain ⟨des, pending, absent, wanted, whole⟩ :=
    cut_create dialect source destination reached front rest op cut c creates
  have wf := cut_reached dialect source destination reached front (op :: rest) cut
  have payload := cut_payload dialect source destination reached front (op :: rest) cut op (by simp)
  have target := created_reference dialect source destination reached front rest op cut keyed c des
    pending creates absent wanted whole
  have fresh := (has_table_none reached c.name).mpr absent
  subst creates
  exact ⟨_, creation_applies _ reached c wf payload fresh target⟩

theorem cut_drop (n : String) (drops : op = .dropTable n) :
    ∃ cur u, reached.table? n = some u ∧ source.table? n = none ∧ destination.table? n = some cur ∧
      u.Owes [] (Diff.stripped dialect (Diff.droppedNames source destination) cur) := by
  subst drops
  cases cut_next dialect source destination reached front rest _ cut with
  | kept _ _ _ _ _ _ _ _ _ _ owes | created _ _ _ _ _ _ _ _ _ _ owes | leaving _ _ _ _ _ _ _ owes =>
      exact absurd (owes.inPlace _ List.mem_cons_self) Bool.false_ne_true
  | awaited _ _ _ _ creates => cases creates
  | dropped cur u existed unwanted found _ owes => exact ⟨cur, u, found, unwanted, existed, owes⟩

theorem drop_unreferenced (n : String) (drops : op = .dropTable n) (t : Table)
    (member : t ∈ reached.tables) (other : t.name ≠ n) (c : Constraint) (own : c ∈ t.constraints)
    (r : Reference) (points : c.reference? = some r) : r.table ≠ n := by
  rintro rfl
  obtain ⟨cur, _, _, absent, existed, _⟩ :=
    cut_drop dialect source destination reached front rest op cut r.table drops
  have second : 2 ≤ op.stage := by rw [drops]; exact le_rfl
  rcases cut_reference dialect source destination reached front rest op cut second t member c own r
    points with ⟨s, ⟨target, found, _⟩, same, _⟩ | ⟨_, self | spared⟩
  · rw [same, absent] at found
    cases found
  · exact other self.symm
  · have missing := (has_table_none source r.table).mpr absent
    simp [Diff.droppedNames, missing, (has_table_some destination r.table).mpr ⟨cur, existed⟩] at spared

theorem drop_applies (n : String) (drops : op = .dropTable n) :
    ∃ next, reached.applyOne dialect.applyRules op = .ok next := by
  obtain ⟨cur, u, there, _, _, owes⟩ :=
    cut_drop dialect source destination reached front rest op cut n drops
  have wf := cut_reached dialect source destination reached front (op :: rest) cut
  have payload := cut_payload dialect source destination reached front (op :: rest) cut op (by simp)
  -- Where the dialect keeps the indexes of a dropped table, they are dropped by now.
  have free : dialect.applyRules.dropTableDropsIndexes = true ∨ u.indexes = [] := by
    cases keeps : dialect.dropsIndexesWithTable with
    | true => exact .inl keeps
    | false =>
        right
        have balance := late_indexes u _ [] owes (by simp)
        simp only [total_nil, Multiset.map_zero, add_zero, Diff.stripped, keeps, Bool.false_eq_true,
          if_false, tally_nil] at balance
        simpa [tally] using balance
  refine ⟨reached.withoutTable n, (apply_one_iff _ reached _ op wf payload).mpr ⟨?_, ?_, ?_⟩⟩
  · rw [drops]
    exact .drop n u there free
  · intro t inside c own r points
    obtain ⟨old, other⟩ := List.mem_filter.mp inside
    exact without_table_resolves reached n r (wf.resolved t old c own r points)
      (drop_unreferenced dialect source destination reached front rest op cut n drops t old
        (by simpa using other) c own r points)
  · intro r new
    rw [drops] at new
    cases new

end Cut

-- Where a replay has got to an operation, it can carry that operation out, unless the operation
-- drops a column or adds an index.
theorem replay_continues (dialect : Dialect) (source destination S D M : Schema) (plan : Plan)
    (front rest : List Operation) (op : Operation) (sourceValid : source.Validated)
    (destinationValid : destination.Validated) (sourceImage : dialect.canonicalize source = .ok S)
    (destinationImage : dialect.canonicalize destination = .ok D) (keyed : S.Keyed)
    (planned : diff dialect source destination = .ok plan)
    (parts : plan.operations = front ++ op :: rest)
    (applied : D.apply dialect.applyRules front = .ok M)
    (kind : op.kind ∈ [OperationKind.createTable, .dropTable, .addColumn, .alterColumnType,
      .addConstraint, .dropConstraint, .dropIndex]) :
    ∃ next, M.apply dialect.applyRules [op] = .ok next := by
  have cut := cut_of_diff dialect source destination S D M plan front (op :: rest) sourceValid
    destinationValid sourceImage destinationImage planned parts applied
  simp only [apply_single_ok]
  cases whole : op.inPlace with
  | true =>
      refine in_place_applies dialect S D M front rest op cut keyed whole ?_ ?_
      · intro same
        simp [same] at kind
      · intro same
        simp [same] at kind
  | false =>
      cases op with
      | createTable c => exact create_applies dialect S D M front rest _ cut keyed c rfl
      | dropTable n => exact drop_applies dialect S D M front rest _ cut n rfl
      | _ => cases whole

theorem shop_continues : Shop.after.Keyed ∧ ∃ M next,
    Shop.before.apply Dialect.spanner.applyRules (Shop.plan.operations.take 7) = .ok M ∧
      M.apply Dialect.spanner.applyRules
        [.addConstraint "purchase" (Shop.pointer "receipt" "receipt")] = .ok next := by
  have keyed : Shop.after.Keyed := by decide
  refine ⟨keyed, ?_⟩
  have reached : ∃ M, Shop.before.apply Dialect.spanner.applyRules (Shop.plan.operations.take 7)
      = .ok M := ⟨_, rfl⟩
  obtain ⟨M, applied⟩ := reached
  obtain ⟨next, continued⟩ := replay_continues .spanner Shop.after Shop.before Shop.after
    Shop.before M Shop.plan (Shop.plan.operations.take 7) [] _ Shop.after_validated
    Shop.before_validated rfl rfl keyed Shop.planned rfl applied (by decide)
  exact ⟨M, next, applied, continued⟩

end SchemaDrift
