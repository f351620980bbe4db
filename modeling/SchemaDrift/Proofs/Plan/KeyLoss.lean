import SchemaDrift.Proofs.Plan.Lasting
import SchemaDrift.Proofs.Plan.Replay
/-!
When a plan takes the key from under a foreign key. Keys are dropped before new ones are added, so
what counts is the moment between the drops and all else: if no foreign key has lost its key then,
none ever does.
-/

set_option autoImplicit false

namespace SchemaDrift

-- Whatever foreign keys the one schema has, the other has, and whatever keys they have there, they
-- have here.
structure Schema.ReferencesFrom (schema base : Schema) : Prop where
  references : ∀ t ∈ schema.tables, ∀ c ∈ t.constraints, c.isForeignKey = true →
    ∃ b ∈ base.tables, c.shape ∈ tally Constraint.shape b.declared
  keys : ∀ n b t, base.table? n = some b → schema.table? n = some t →
    ∀ columns, b.hasKey columns = true → t.hasKey columns = true

theorem has_key_into (part whole : Table) (partWf : part.WellFormed) (wholeWf : whole.WellFormed)
    (shapes : ∀ s ∈ tally Constraint.shape part.declared, s.isForeignKey = false →
      s ∈ tally Constraint.shape whole.declared)
    (indexes : part.indexes ⊆ whole.indexes) (columns : List String)
    (key : part.hasKey columns = true) : whole.hasKey columns = true := by
  rw [has_key_iff part partWf] at key
  rw [has_key_iff whole wholeWf]
  obtain ⟨names, offered, members⟩ := key
  refine ⟨names, ?_, members⟩
  rcases offered with primary | only | ⟨l, unique, named⟩
  · exact .inl (shapes _ primary rfl)
  · exact .inr (.inl (shapes _ only rfl))
  · obtain ⟨index, inside, same⟩ := (mem_tally _ _ _).mp unique
    exact .inr (.inr ⟨l, (mem_tally _ _ _).mpr ⟨index, indexes inside, same⟩, named⟩)

theorem declared_reference (t : Table) (wf : t.WellFormed) (c : Constraint) (r : Reference)
    (points : c.reference? = some r) (alike : c.shape ∈ tally Constraint.shape t.declared) :
    ∃ d ∈ t.constraints, ∃ s, d.reference? = some s ∧ s.table = r.table ∧ s.columns = r.columns := by
  obtain ⟨d, inside, shape⟩ := (mem_tally _ _ _).mp alike
  obtain ⟨s, pointed, target, columns⟩ := same_target c d r shape.symm points
  exact ⟨d, declared_foreign t wf d s pointed inside, s, pointed, target, columns⟩

theorem keyed_from (schema base : Schema) (baseTables : ∀ t ∈ base.tables, t.WellFormed)
    (resolved : schema.Resolved) (keyed : base.Keyed) (leans : schema.ReferencesFrom base) :
    schema.Keyed := by
  intro t member c own r points
  have foreign : c.isForeignKey = true := by simp [Constraint.isForeignKey, points]
  obtain ⟨b, inside, alike⟩ := leans.references t member c own foreign
  obtain ⟨d, declared, s, pointed, target, columns⟩ :=
    declared_reference b (baseTables b inside) c r points alike
  have offered := keyed b inside d declared s pointed
  rw [Schema.isKeyed, target, columns, Option.any_eq_true] at offered
  obtain ⟨old, there, key⟩ := offered
  obtain ⟨now, found, _⟩ := resolved t member c own r points
  rw [Schema.isKeyed, found, Option.any_some]
  exact leans.keys r.table old now there found r.columns key

/-! ### What operations of a stage drop and add -/

theorem drops_only_references (ops : List Operation) (first : ∀ op ∈ ops, op.stage = 0) :
    (∀ s ∈ total Operation.droppedShapes ops, s.isForeignKey = true) ∧
      total Operation.droppedIndexes ops = 0 := by
  constructor
  · intro s member
    obtain ⟨op, inside, own⟩ := (mem_total _ _ _).mp member
    have stage := first op inside
    cases op with
    | dropConstraint n c =>
        rw [Operation.droppedShapes, Multiset.mem_singleton] at own
        rw [own, shape_foreign_key]
        by_contra other
        simp [Operation.stage, other] at stage
    | _ => cases own
  · refine total_empty _ ops fun op member => ?_
    have stage := first op member
    cases op with
    | dropIndex => simp [Operation.stage] at stage
    | _ => rfl

theorem drops_no_references (ops : List Operation) (later : ∀ op ∈ ops, 1 ≤ op.stage) :
    ∀ s ∈ total Operation.droppedShapes ops, s.isForeignKey = false := by
  intro s member
  obtain ⟨op, inside, own⟩ := (mem_total _ _ _).mp member
  have stage := later op inside
  cases op with
  | dropConstraint n c =>
      rw [Operation.droppedShapes, Multiset.mem_singleton] at own
      rw [own, shape_foreign_key]
      cases foreign : c.isForeignKey with
      | false => rfl
      | true => simp [Operation.stage, foreign] at stage
  | _ => cases own

theorem adds_no_references (ops : List Operation) (early : ∀ op ∈ ops, op.stage ≤ 4) :
    ∀ s ∈ total Operation.addedShapes ops, s.isForeignKey = false := by
  intro s member
  obtain ⟨op, inside, own⟩ := (mem_total _ _ _).mp member
  have stage := early op inside
  cases op with
  | addConstraint n c =>
      rw [Operation.addedShapes, Multiset.mem_singleton] at own
      rw [own, shape_foreign_key]
      cases foreign : c.isForeignKey with
      | false => rfl
      | true => simp [Operation.stage, foreign] at stage
  | _ => cases own

theorem adds_nothing (ops : List Operation) (early : ∀ op ∈ ops, op.stage ≤ 1) :
    total Operation.addedShapes ops = 0 ∧ total Operation.addedIndexes ops = 0 := by
  have each (op : Operation) (stage : op.stage ≤ 1) :
      op.addedShapes = 0 ∧ op.addedIndexes = 0 := by
    cases op with
    | addConstraint n c =>
        simp only [Operation.stage] at stage
        split at stage <;> omega
    | addIndex => simp [Operation.stage] at stage
    | _ => exact ⟨rfl, rfl⟩
  exact ⟨total_empty _ ops fun op member => (each op (early op member)).1,
    total_empty _ ops fun op member => (each op (early op member)).2⟩

theorem early_kind (op : Operation) (early : op.stage ≤ 1) :
    op.inPlace = true ∧ op.kind ≠ .dropColumn ∧ op.kind ≠ .addIndex := by
  cases op with
  | dropConstraint | dropIndex => exact ⟨rfl, by simp [Operation.kind], by simp [Operation.kind]⟩
  | addConstraint n c =>
      simp only [Operation.stage] at early
      split at early <;> omega
  | _ => simp [Operation.stage] at early

/-! ### The schema midway -/

section Midway

variable (dialect : Dialect) (source destination : Schema)

theorem midway_lookup (n : String) : (Diff.midway dialect source destination).table? n
    = (destination.table? n).map (Diff.lasting dialect source destination) := by
  have named (t : Table) : (Diff.lasting dialect source destination t).name = t.name := by
    unfold Diff.lasting
    cases source.table? t.name <;> rfl
  simp only [Schema.table?, Diff.midway, List.find?_map, Function.comp_def, named]

variable (destinationWf : destination.WellFormed)

include destinationWf

theorem lasting_well_formed (t : Table) (member : t ∈ destination.tables) :
    (Diff.lasting dialect source destination t).WellFormed := by
  have wf := destinationWf.tables t member
  unfold Diff.lasting
  cases source.table? t.name with
  | some des => exact pared_well_formed t des wf
  | none => exact stripped_well_formed dialect _ t wf

theorem midway_tables : ∀ t ∈ (Diff.midway dialect source destination).tables, t.WellFormed := by
  intro t member
  obtain ⟨old, inside, rfl⟩ := List.mem_map.mp member
  exact lasting_well_formed dialect source destination destinationWf old inside

theorem midway_resolved : (Diff.midway dialect source destination).Resolved := by
  intro t member c own r points
  obtain ⟨old, inside, rfl⟩ := List.mem_map.mp member
  have declared : c ∈ old.constraints := by
    unfold Diff.lasting at own
    cases found : source.table? old.name with
    | some des =>
        rw [found] at own
        exact (strike_sublist _ _).subset own
    | none =>
        rw [found] at own
        exact (without_sublist old _).subset own
  obtain ⟨target, there, columns⟩ := destinationWf.resolved old inside c declared r points
  refine ⟨_, by rw [midway_lookup, there]; rfl, fun name listed => ?_⟩
  have same : (Diff.lasting dialect source destination target).columns = target.columns := by
    unfold Diff.lasting
    cases source.table? target.name <;> rfl
  rw [Table.columnNames, same]
  exact columns name listed

end Midway

section Cut

variable (dialect : Dialect) (source destination reached : Schema) (front back : List Operation)
  (cut : Cut dialect source destination front back reached)

include cut

theorem cut_found (early : ∀ op ∈ front, op.stage ≤ 4) (n : String) (u : Table)
    (found : reached.table? n = some u) : ∃ cur, destination.table? n = some cur := by
  have progress := cut_progress dialect source destination reached front back cut n
  have stages : ∀ op ∈ front.filter (·.table = n), op.stage ≤ 4 :=
    fun op member => early op (List.mem_filter.mp member).1
  rw [found] at progress
  generalize front.filter (·.table = n) = done at progress stages
  generalize back.filter (·.table = n) = owed at progress
  generalize destination.table? n = before at progress
  generalize source.table? n = after at progress
  cases progress with
  | kept cur | leaving cur => exact ⟨cur, rfl⟩
  | created des _ pending =>
      have stage := stages _ List.mem_cons_self
      simp [Operation.stage] at stage

theorem cut_there (early : ∀ op ∈ front, op.stage ≤ 1) (n : String) (cur : Table)
    (existed : destination.table? n = some cur) : ∃ u, reached.table? n = some u := by
  have progress := cut_progress dialect source destination reached front back cut n
  have stages : ∀ op ∈ front.filter (·.table = n), op.stage ≤ 1 :=
    fun op member => early op (List.mem_filter.mp member).1
  rw [existed] at progress
  generalize front.filter (·.table = n) = done at progress stages
  generalize back.filter (·.table = n) = owed at progress
  generalize reached.table? n = now at progress
  generalize source.table? n = after at progress
  cases progress with
  | kept _ _ u | leaving _ u => exact ⟨u, rfl⟩
  | gone =>
      have stage := stages (.dropTable cur.name) (by simp)
      simp [Operation.stage] at stage

theorem first_references (first : ∀ op ∈ front, op.stage = 0) :
    reached.ReferencesFrom destination := by
  have wf := cut_reached dialect source destination reached front back cut
  have own (n : String) : ∀ op ∈ front.filter (·.table = n), op.stage = 0 :=
    fun op member => first op (List.mem_filter.mp member).1
  have lasting := cut_lasting dialect source destination reached front back cut
  constructor
  · intro t member c declared foreign
    have found := table_of_mem reached wf.distinct t member
    obtain ⟨cur, existed⟩ := cut_found dialect source destination reached front back cut
      (fun op inside => by rw [first op inside]; omega) t.name t found
    have balance := (lasting t.name cur t existed found).1.before
    have none := (adds_nothing _ fun op inside => by rw [own t.name op inside]; omega).1
    simp only [Account.shapes, none, add_zero] at balance
    refine ⟨cur, (table_found destination t.name cur existed).1, ?_⟩
    rw [← balance]
    exact Multiset.mem_add.mpr (.inl ((mem_tally _ _ _).mpr ⟨c, List.mem_append.mpr (.inr declared), rfl⟩))
  · intro n cur t existed found columns key
    obtain ⟨shapes, indexes⟩ := lasting n cur t existed found
    obtain ⟨references, noIndex⟩ := drops_only_references _ (own n)
    obtain ⟨noShape, noAdded⟩ := adds_nothing _ fun op inside => by rw [own n op inside]; omega
    have balance := shapes.before
    have same := indexes.before
    simp only [Account.shapes, noShape, add_zero] at balance
    simp only [Account.indexes, noIndex, noAdded, add_zero] at same
    refine has_key_into cur t (cut.destinationWf.tables cur (table_found _ n cur existed).1)
      (wf.tables t (table_found _ n t found).1) (fun s member other => ?_)
      (Multiset.coe_eq_coe.mp same).symm.subset columns key
    rw [← balance] at member
    refine (Multiset.mem_add.mp member).resolve_right fun gone => ?_
    rw [references s gone] at other
    cases other

-- Until tables are created, there are no foreign keys but those that last, and at least the keys
-- that last.
theorem middle_references (early : ∀ op ∈ front, op.stage ≤ 4) (late : ∀ op ∈ back, 1 ≤ op.stage) :
    reached.ReferencesFrom (Diff.midway dialect source destination) := by
  have wf := cut_reached dialect source destination reached front back cut
  have lasting := cut_lasting dialect source destination reached front back cut
  constructor
  · intro t member c declared foreign
    have found := table_of_mem reached wf.distinct t member
    obtain ⟨cur, existed⟩ :=
      cut_found dialect source destination reached front back cut early t.name t found
    have balance := (lasting t.name cur t existed found).1.after
    refine ⟨_, List.mem_map_of_mem (table_found destination t.name cur existed).1, ?_⟩
    have present : c.shape ∈ tally Constraint.shape t.declared :=
      (mem_tally _ _ _).mpr ⟨c, List.mem_append.mpr (.inr declared), rfl⟩
    rw [show tally Constraint.shape t.declared = _ from balance] at present
    rw [← shape_foreign_key] at foreign
    rcases Multiset.mem_add.mp present with old | added
    · refine (Multiset.mem_add.mp old).resolve_right fun dropped => ?_
      rw [drops_no_references _ (fun op inside => late op (List.mem_filter.mp inside).1) _ dropped]
        at foreign
      cases foreign
    · rw [adds_no_references _ (fun op inside => early op (List.mem_filter.mp inside).1) _ added]
        at foreign
      cases foreign
  · intro n base t lasts found columns key
    rw [midway_lookup] at lasts
    obtain ⟨cur, existed, rfl⟩ := Option.map_eq_some_iff.mp lasts
    obtain ⟨shapes, indexes⟩ := lasting n cur t existed found
    refine has_key_into _ t
      (lasting_well_formed dialect source destination cut.destinationWf cur (table_found _ n cur existed).1)
      (wf.tables t (table_found _ n t found).1) (fun s member _ => ?_) (fun index member => ?_)
      columns key
    · rw [show tally Constraint.shape t.declared = _ from shapes.after, add_assoc]
      exact Multiset.mem_add.mpr (.inl member)
    · rw [← Multiset.mem_coe, show (↑t.indexes : Multiset Index) = _ from indexes.after, add_assoc]
      exact Multiset.mem_add.mpr (.inl (Multiset.mem_coe.mpr member))

theorem midway_references (early : ∀ op ∈ front, op.stage ≤ 1) (late : ∀ op ∈ back, 2 ≤ op.stage) :
    (Diff.midway dialect source destination).ReferencesFrom reached := by
  have wf := cut_reached dialect source destination reached front back cut
  have same (n : String) (cur u : Table) (existed : destination.table? n = some cur)
      (found : reached.table? n = some u) :
      tally Constraint.shape u.declared
          = tally Constraint.shape (Diff.lasting dialect source destination cur).declared ∧
        u.indexes.Perm (Diff.lasting dialect source destination cur).indexes := by
    obtain ⟨shapes, indexes⟩ :=
      cut_lasting dialect source destination reached front back cut n cur u existed found
    obtain ⟨noShape, noIndex⟩ := late_drops (back.filter (·.table = n))
      fun op member => late op (List.mem_filter.mp member).1
    obtain ⟨noNew, noNewIndex⟩ := adds_nothing (front.filter (·.table = n))
      fun op member => early op (List.mem_filter.mp member).1
    have balance := shapes.after
    have others := indexes.after
    simp only [Account.shapes, noShape, noNew, add_zero] at balance
    simp only [Account.indexes, noIndex, noNewIndex, add_zero] at others
    exact ⟨balance, Multiset.coe_eq_coe.mp others⟩
  constructor
  · intro t member c declared _
    obtain ⟨cur, inside, rfl⟩ := List.mem_map.mp member
    have existed := table_of_mem destination cut.destinationWf.distinct cur inside
    obtain ⟨u, found⟩ :=
      cut_there dialect source destination reached front back cut early cur.name cur existed
    refine ⟨u, (table_found reached cur.name u found).1, ?_⟩
    rw [(same cur.name cur u existed found).1]
    exact (mem_tally _ _ _).mpr ⟨c, List.mem_append.mpr (.inr declared), rfl⟩
  · intro n u base found lasts columns key
    rw [midway_lookup] at lasts
    obtain ⟨cur, existed, rfl⟩ := Option.map_eq_some_iff.mp lasts
    obtain ⟨shapes, indexes⟩ := same n cur u existed found
    exact has_key_into u _ (wf.tables u (table_found _ n u found).1)
      (lasting_well_formed dialect source destination cut.destinationWf cur (table_found _ n cur existed).1)
      (fun s member _ => shapes ▸ member) indexes.subset columns key

theorem last_references (late : ∀ op ∈ back, 5 ≤ op.stage) : reached.ReferencesFrom source := by
  have wf := cut_reached dialect source destination reached front back cut
  have goal (n : String) (u : Table) (found : reached.table? n = some u) :
      ∃ des owed, source.table? n = some des ∧ u.Owes owed des ∧ ∀ op ∈ owed, 5 ≤ op.stage := by
    have progress := cut_progress dialect source destination reached front back cut n
    have stages : ∀ op ∈ back.filter (·.table = n), 5 ≤ op.stage :=
      fun op member => late op (List.mem_filter.mp member).1
    rw [found] at progress
    generalize front.filter (·.table = n) = done at progress
    generalize back.filter (·.table = n) = owed at progress stages
    generalize destination.table? n = before at progress
    generalize source.table? n = after at progress
    cases progress with
    | kept _ des _ _ _ _ _ _ _ owes | created des _ _ _ _ _ _ _ owes =>
        exact ⟨des, owed, rfl, owes, stages⟩
    | leaving cur =>
        have stage := stages (.dropTable cur.name) (by simp)
        simp [Operation.stage] at stage
  constructor
  · intro t member c declared _
    obtain ⟨des, owed, wanted, owes, stages⟩ := goal t.name t (table_of_mem reached wf.distinct t member)
    refine ⟨des, (table_found source t.name des wanted).1, (mem_tally _ _ _).mpr ?_⟩
    exact late_declared t des owed owes (fun op inside => le_trans (by omega) (stages op inside)) c
      (List.mem_append.mpr (.inr declared))
  · intro n des u wanted found
    obtain ⟨same, owed, looked, owes, stages⟩ := goal n u found
    cases wanted.symm.trans looked
    exact (late_offers u des owed (wf.tables u (table_found _ n u found).1)
      (cut.sourceWf.tables des (table_found _ n des wanted).1) owes stages).2

theorem cut_keyed (sourceKeyed : source.Keyed) (destinationKeyed : destination.Keyed)
    (midwayKeyed : (Diff.midway dialect source destination).Keyed) : reached.Keyed := by
  have resolved := (cut_reached dialect source destination reached front back cut).resolved
  have last (late : ∀ op ∈ back, 5 ≤ op.stage) : reached.Keyed :=
    keyed_from reached source cut.sourceWf.tables resolved sourceKeyed
      (last_references dialect source destination reached front back cut late)
  cases back with
  | nil => exact last (by simp)
  | cons op rest =>
      obtain ⟨before, after⟩ := cut_stages dialect source destination reached front rest op cut
      rcases Nat.lt_or_ge op.stage 1 with first | later
      · exact keyed_from reached destination cut.destinationWf.tables resolved destinationKeyed
          (first_references dialect source destination reached front _ cut
            fun o member => by have := before o member; omega)
      · rcases Nat.lt_or_ge op.stage 5 with middle | done
        · exact keyed_from reached _ (midway_tables dialect source destination cut.destinationWf)
            resolved midwayKeyed (middle_references dialect source destination reached front _ cut
              (fun o member => by have := before o member; omega)
              fun o member => later.trans (after o member))
        · exact last fun o member => done.trans (after o member)

end Cut

/-! ### Whole plans -/

section Whole

variable (dialect : Dialect) (source destination : Schema) (stages : Stages)
  (sourceWf : source.WellFormed) (destinationWf : destination.WellFormed)
  (staged : Diff.stages dialect source destination = .ok stages) (keyed : source.Keyed)

include sourceWf destinationWf staged keyed

theorem drops_apply (front back : List Operation) (parts : stages.operations = front ++ back)
    (drops : ∀ op ∈ front, op.stage ≤ 1) :
    ∃ reached, destination.apply dialect.applyRules front = .ok reached := by
  induction front using List.reverseRecOn generalizing back with
  | nil => exact ⟨destination, rfl⟩
  | append_singleton front op ih =>
      rw [List.append_assoc] at parts
      obtain ⟨between, applied⟩ := ih _ parts fun o member => drops o (by simp [member])
      have cut : Cut dialect source destination front (op :: back) between :=
        ⟨sourceWf, destinationWf, ⟨stages, staged, parts⟩, applied⟩
      obtain ⟨inPlace, columns, indexes⟩ := early_kind op (drops op (by simp))
      obtain ⟨reached, last⟩ := in_place_applies dialect source destination between front back op cut
        keyed inPlace columns indexes
      exact ⟨reached, (apply_append_ok _ _ _ _ _).mpr
        ⟨between, applied, (apply_single_ok _ _ _ _).mpr last⟩⟩

theorem midway_keyed (always : ∀ front back reached, stages.operations = front ++ back →
      destination.apply dialect.applyRules front = .ok reached → reached.Keyed) :
    (Diff.midway dialect source destination).Keyed := by
  have all := stages_all dialect source destination stages sourceWf destinationWf staged
  have early : ∀ op ∈ stages.foreignKeyDrops ++ stages.drops, op.stage ≤ 1 := by
    intro op member
    rcases List.mem_append.mp member with first | second
    · exact (all.foreignKeyDrops op first).le.trans (by omega)
    · exact (all.drops op second).le
  have late : ∀ op ∈ stages.tableDrops ++ (stages.columnChanges ++ (stages.additions
      ++ (stages.creations ++ stages.foreignKeyAdditions))), 2 ≤ op.stage := by
    intro op member
    simp only [List.mem_append] at member
    rcases member with h | h | h | h | h
    · exact (all.tableDrops op h).ge
    · exact le_trans (by omega) (all.columnChanges op h).ge
    · exact le_trans (by omega) (all.additions op h).ge
    · exact le_trans (by omega) (all.creations op h).ge
    · exact le_trans (by omega) (all.foreignKeyAdditions op h).ge
  have parts : stages.operations = (stages.foreignKeyDrops ++ stages.drops) ++ (stages.tableDrops
      ++ (stages.columnChanges ++ (stages.additions ++ (stages.creations
        ++ stages.foreignKeyAdditions)))) := by
    simp only [Stages.operations, List.append_assoc]
  obtain ⟨reached, applied⟩ :=
    drops_apply dialect source destination stages sourceWf destinationWf staged keyed _ _ parts early
  have cut : Cut dialect source destination _ _ reached :=
    ⟨sourceWf, destinationWf, ⟨stages, staged, parts⟩, applied⟩
  exact keyed_from _ reached
    (cut_reached dialect source destination reached _ _ cut).tables
    (midway_resolved dialect source destination destinationWf) (always _ _ reached parts applied)
    (midway_references dialect source destination reached _ _ cut early late)

end Whole

-- No foreign key ever loses its key while a plan is replayed exactly when none has lost it when all
-- drops of keys, constraints and indexes are done.
theorem replay_keeps_keys_iff (dialect : Dialect) (source destination S D : Schema) (plan : Plan)
    (sourceValid : source.Validated) (destinationValid : destination.Validated)
    (sourceImage : dialect.canonicalize source = .ok S)
    (destinationImage : dialect.canonicalize destination = .ok D) (sourceKeyed : S.Keyed)
    (destinationKeyed : D.Keyed) (planned : diff dialect source destination = .ok plan) :
    (∀ front back M, plan.operations = front ++ back →
      D.apply dialect.applyRules front = .ok M → M.Keyed) ↔ (Diff.midway dialect S D).Keyed := by
  have cut (front back : List Operation) (M : Schema) (parts : plan.operations = front ++ back)
      (applied : D.apply dialect.applyRules front = .ok M) : Cut dialect S D front back M :=
    cut_of_diff dialect source destination S D M plan front back sourceValid destinationValid
      sourceImage destinationImage planned parts applied
  constructor
  · intro always
    obtain ⟨stages, staged, same⟩ :=
      diff_ok dialect source destination S D plan sourceImage destinationImage planned
    have start := cut [] plan.operations D rfl rfl
    rw [← same] at always
    exact midway_keyed dialect S D stages start.sourceWf start.destinationWf staged sourceKeyed always
  · intro midway front back M parts applied
    exact cut_keyed dialect S D M front back (cut front back M parts applied) sourceKeyed
      destinationKeyed midway

theorem shop_keeps_keys : ∃ M,
    Shop.before.apply Dialect.spanner.applyRules (Shop.plan.operations.take 3) = .ok M ∧ M.Keyed := by
  have keeps := (replay_keeps_keys_iff .spanner Shop.after Shop.before Shop.after Shop.before Shop.plan
    Shop.after_validated Shop.before_validated rfl rfl (by decide) (by decide) Shop.planned).mpr
    (by decide)
  have reached : ∃ M, Shop.before.apply Dialect.spanner.applyRules (Shop.plan.operations.take 3)
    = .ok M := ⟨_, rfl⟩
  obtain ⟨M, applied⟩ := reached
  exact ⟨M, applied, keeps _ (Shop.plan.operations.drop 3) M rfl applied⟩

/-! ### A unique column that becomes the primary key -/

namespace Promotion

def account (key : Option Constraint) (unique : List Constraint) : Table where
  name := "account"
  columns := [Shop.number "id"]
  primaryKey := key
  constraints := unique
  ordinal := 0

def entry : Table where
  name := "entry"
  columns := [Shop.number "account"]
  constraints := [Shop.pointer "account" "account"]
  ordinal := 1

def before : Schema where
  tables := [account none [.unique ["id"]], entry]

def after : Schema where
  tables := [account (some (.primaryKey ["id"])) [], entry]

def plan : Plan where
  operations := [.dropConstraint "account" (.unique ["id"]),
    .addConstraint "account" (.primaryKey ["id"])]

end Promotion

theorem promotion_loses_key : Promotion.after.Validated ∧ Promotion.before.Validated ∧
    Dialect.postgres.canonicalize Promotion.after = .ok Promotion.after ∧
    Dialect.postgres.canonicalize Promotion.before = .ok Promotion.before ∧
    Promotion.after.Keyed ∧ Promotion.before.Keyed ∧
    diff .postgres Promotion.after Promotion.before = .ok Promotion.plan ∧
    ∃ M, Promotion.before.apply Dialect.postgres.applyRules
        [.dropConstraint "account" (.unique ["id"])] = .ok M ∧ ¬M.Keyed :=
  ⟨⟨Promotion.after.toDraft, by decide, rfl⟩, ⟨Promotion.before.toDraft, by decide, rfl⟩, rfl, rfl,
    by decide, by decide, by cbv, _, rfl, by decide⟩

end SchemaDrift
