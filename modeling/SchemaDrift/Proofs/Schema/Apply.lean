import SchemaDrift.Proofs.Schema.Redraft
import SchemaDrift.Proofs.Schema.Step
/-!
Applying an operation succeeds exactly when it is a step to a schema whose references resolve and
whose new foreign keys point at keys. Whole runs keep schemas well formed.
-/

set_option autoImplicit false

namespace SchemaDrift

theorem apply_create_iff (schema next : Schema) (t : Table) (wf : schema.WellFormed)
    (tableWf : t.WellFormed) :
    schema.applyCreate t = .ok next ↔
      schema.hasTable t.name = false ∧ next = schema.withNew t ∧ next.Resolved := by
  have same : schema.toDraft.hasTable t.name = schema.hasTable t.name := by
    simp only [SchemaDraft.hasTable, Schema.toDraft, Schema.hasTable, List.any_map]
    rfl
  unfold Schema.applyCreate
  dsimp only
  rw [same]
  cases taken : schema.hasTable t.name with
  | true => simp
  | false =>
      have fresh : t.name ∉ schema.tableNames := by
        rw [← has_table_iff, taken]
        exact Bool.false_ne_true
      simp only [Bool.false_eq_true, if_false, true_and]
      exact add_table_build_ok schema next t wf tableWf fresh

theorem apply_drop_iff (schema next : Schema) (rules : ApplyRules) (name : String)
    (wf : schema.WellFormed) :
    schema.applyDrop rules name = .ok next ↔
      ∃ t, schema.table? name = some t ∧ (rules.dropTableDropsIndexes = true ∨ t.indexes = []) ∧
        next = schema.withoutTable name ∧ next.Resolved := by
  have same : schema.toDraft.hasTable name = schema.hasTable name := by
    simp only [SchemaDraft.hasTable, Schema.toDraft, Schema.hasTable, List.any_map]
    rfl
  unfold Schema.applyDrop SchemaDraft.removeTable?
  rw [same]
  cases found : schema.table? name with
  | none =>
      rw [(has_table_none schema name).mpr found]
      cases rules.dropTableDropsIndexes <;> simp
  | some t =>
      rw [(has_table_some schema name).mpr ⟨t, found⟩]
      cases free : rules.dropTableDropsIndexes with
      | true =>
          simp only [if_true, true_or, true_and]
          rw [remove_table_build_ok schema next name wf]
          constructor
          · exact fun built => ⟨t, rfl, built⟩
          · rintro ⟨_, _, built⟩
            exact built
      | false =>
          cases indexes : t.indexes with
          | nil =>
              simp only [Bool.false_eq_true, if_false, if_true, Option.bind_some, indexes,
                List.head?_nil]
              rw [remove_table_build_ok schema next name wf]
              constructor
              · exact fun built => ⟨t, rfl, .inr indexes, built⟩
              · rintro ⟨_, _, _, built⟩
                exact built
          | cons index rest =>
              simp only [Bool.false_eq_true, if_false, if_true, Option.bind_some, indexes,
                List.head?_cons]
              constructor
              · intro built
                cases built
              · rintro ⟨u, looked, empty, _⟩
                cases Option.some.inj looked
                rw [indexes] at empty
                rcases empty with never | nothing
                · cases never
                · cases nothing

theorem apply_change_iff (schema next : Schema) (op : Operation) (wf : schema.WellFormed) :
    schema.applyChange op = .ok next ↔
      ∃ t u, schema.table? op.table = some t ∧ t.Becomes op u ∧ next = schema.withTable u ∧
        next.Resolved := by
  unfold Schema.applyChange
  rw [draft_lookup]
  cases found : schema.table? op.table with
  | none => simp
  | some t =>
      obtain ⟨_, named⟩ := table_found schema op.table t found
      rw [← named] at found ⊢
      simp only [Option.map_some]
      cases changed : op.change? t.toDraft with
      | none =>
          constructor
          · intro built
            cases built
          · rintro ⟨_, _, same, ⟨draft, fits, _⟩, _⟩
            cases same
            rw [← change_iff, changed] at fits
            cases fits
      | some draft =>
          have does := (change_iff t.toDraft draft op).mp changed
          obtain ⟨name, ordinal⟩ := changed_keeps t.toDraft draft op does
          have rebuilt := set_table_build_ok schema next t draft wf found name ordinal
          constructor
          · intro built
            obtain ⟨sound, same, resolved⟩ := rebuilt.mp built
            exact ⟨t, draft.toTable 0, rfl, ⟨draft, does, sound, rfl⟩, same, resolved⟩
          · rintro ⟨_, u, same, ⟨other, fits, sound, made⟩, result, resolved⟩
            cases same
            rw [← change_iff, changed] at fits
            cases fits
            subst made
            exact rebuilt.mpr ⟨sound, result, resolved⟩

theorem apply_one_iff (rules : ApplyRules) (schema next : Schema) (op : Operation)
    (wf : schema.WellFormed) (payload : op.WellFormed) :
    schema.applyOne rules op = .ok next ↔
      schema.Step rules op next ∧ next.Resolved ∧
        ∀ r ∈ op.newReferences, next.isKeyed r = true := by
  have changes (inPlace : op.inPlace = true) : schema.applyChange op = .ok next ↔
      schema.Step rules op next ∧ next.Resolved := by
    rw [apply_change_iff schema next op wf]
    constructor
    · rintro ⟨t, u, found, becomes, rfl, resolved⟩
      exact ⟨.change op t u inPlace found becomes, resolved⟩
    · rintro ⟨step, resolved⟩
      cases step with
      | create | drop => cases inPlace
      | change _ t u _ found becomes => exact ⟨t, u, found, becomes, rfl, resolved⟩
  have single (x : Except SchemaError Schema) (step : x = .ok next ↔
      schema.Step rules op next ∧ next.Resolved) :
      (x >>= fun changed => changed.checkKeys op >>= fun _ => .ok changed) = .ok next ↔
      schema.Step rules op next ∧ next.Resolved ∧
        ∀ r ∈ op.newReferences, next.isKeyed r = true := by
    rw [bind_ok, ← and_assoc, ← step]
    constructor
    · rintro ⟨changed, reached, rest⟩
      obtain ⟨_, checked, same⟩ := (bind_ok _ _ _).mp rest
      cases same
      exact ⟨reached, (check_keys_ok _ op).mp checked⟩
    · rintro ⟨reached, keyed⟩
      exact ⟨next, reached, (bind_ok _ _ _).mpr ⟨(), (check_keys_ok next op).mpr keyed, rfl⟩⟩
  cases op with
  | createTable t =>
      refine single _ ?_
      rw [apply_create_iff schema next t wf payload]
      constructor
      · rintro ⟨fresh, rfl, resolved⟩
        exact ⟨.create t fresh, resolved⟩
      · rintro ⟨step, resolved⟩
        cases step with
        | create _ fresh => exact ⟨fresh, rfl, resolved⟩
        | change _ _ _ inPlace => cases inPlace
  | dropTable name =>
      refine single _ ?_
      rw [apply_drop_iff schema next rules name wf]
      constructor
      · rintro ⟨t, found, free, rfl, resolved⟩
        exact ⟨.drop name t found free, resolved⟩
      · rintro ⟨step, resolved⟩
        cases step with
        | drop _ t found free => exact ⟨t, found, free, rfl, resolved⟩
        | change _ _ _ inPlace => cases inPlace
  | _ => exact single _ (changes rfl)

theorem ordinal_well_formed (t : Table) (n : Nat) (wf : t.WellFormed) :
    Table.WellFormed { t with ordinal := n } :=
  ⟨sound_columns t.toDraft _ _ rfl wf.sound, ⟨wf.placed.keys, wf.placed.constraints⟩,
    wf.refusesNull⟩

theorem step_well_formed (rules : ApplyRules) (schema next : Schema) (op : Operation)
    (wf : schema.WellFormed) (payload : op.WellFormed) (step : schema.Step rules op next)
    (resolved : next.Resolved) : next.WellFormed := by
  cases step with
  | create t fresh =>
      refine ⟨fun u member => ?_, ?_, resolved, with_new_ordered schema t wf⟩
      · rcases List.mem_append.mp member with old | new
        · exact wf.tables u old
        · rw [List.mem_singleton.mp new]
          exact ordinal_well_formed t _ payload
      · unfold Schema.tableNames Schema.withNew
        rw [List.map_append]
        refine List.nodup_append.mpr ⟨wf.distinct, List.nodup_singleton _, ?_⟩
        intro a inside b single same
        have last : b = t.name := List.mem_singleton.mp single
        rw [← last, ← same, (has_table_iff schema a).mpr inside] at fresh
        cases fresh
  | drop name t found free =>
      have sub : (schema.withoutTable name).tables.Sublist schema.tables := List.filter_sublist
      exact ⟨fun u member => wf.tables u (sub.subset member), wf.distinct.sublist (sub.map _),
        resolved, wf.ordered.sublist sub⟩
  | change _ t u inPlace found becomes =>
      obtain ⟨member, named⟩ := table_found schema op.table t found
      obtain ⟨name, ordinal, nextWf⟩ := becomes_keeps t u op (wf.tables t member) becomes
      refine ⟨fun s inside => ?_, ?_, resolved, ?_⟩
      · rcases with_table_mem schema u s inside with same | ⟨old, _⟩
        · exact same ▸ nextWf
        · exact wf.tables s old
      · rw [with_table_names]
        exact wf.distinct
      · exact with_table_ordered schema t u wf (by rw [name, named]; exact found) ordinal

/-! ### Runs -/

theorem apply_cons_ok (schema result : Schema) (rules : ApplyRules) (op : Operation)
    (ops : List Operation) :
    schema.apply rules (op :: ops) = .ok result ↔
      ∃ next, schema.applyOne rules op = .ok next ∧ next.apply rules ops = .ok result := by
  rw [Schema.apply, bind_ok]

theorem apply_single_ok (schema next : Schema) (rules : ApplyRules) (op : Operation) :
    schema.apply rules [op] = .ok next ↔ schema.applyOne rules op = .ok next := by
  rw [apply_cons_ok]
  constructor
  · rintro ⟨_, reached, same⟩
    cases same
    exact reached
  · exact fun reached => ⟨next, reached, rfl⟩

theorem apply_append_ok (schema result : Schema) (rules : ApplyRules) (front back : List Operation) :
    schema.apply rules (front ++ back) = .ok result ↔
      ∃ between, schema.apply rules front = .ok between ∧ between.apply rules back = .ok result := by
  induction front generalizing schema with
  | nil =>
      constructor
      · exact fun applied => ⟨schema, rfl, applied⟩
      · rintro ⟨_, same, applied⟩
        cases same
        exact applied
  | cons op front ih =>
      simp only [List.cons_append, apply_cons_ok, ih]
      constructor
      · rintro ⟨next, first, between, reached, rest⟩
        exact ⟨between, ⟨next, first, reached⟩, rest⟩
      · rintro ⟨between, ⟨next, first, reached⟩, rest⟩
        exact ⟨next, first, between, reached, rest⟩

theorem apply_one_well_formed (rules : ApplyRules) (schema next : Schema) (op : Operation)
    (wf : schema.WellFormed) (payload : op.WellFormed) (applied : schema.applyOne rules op = .ok next) :
    next.WellFormed := by
  obtain ⟨step, resolved, _⟩ := (apply_one_iff rules schema next op wf payload).mp applied
  exact step_well_formed rules schema next op wf payload step resolved

theorem run_keeps (rules : ApplyRules) (holds : Schema → Prop) (ops : List Operation)
    (step : ∀ op ∈ ops, ∀ schema next, holds schema → schema.applyOne rules op = .ok next → holds next)
    (schema result : Schema) (start : holds schema) (applied : schema.apply rules ops = .ok result) :
    holds result := by
  induction ops generalizing schema with
  | nil =>
      cases applied
      exact start
  | cons op ops ih =>
      obtain ⟨next, first, others⟩ := (apply_cons_ok _ _ _ _ _).mp applied
      have kept := step op (by simp) schema next start first
      exact ih (fun o member => step o (by simp [member])) next kept others

theorem apply_well_formed (rules : ApplyRules) (schema result : Schema) (ops : List Operation)
    (wf : schema.WellFormed) (payload : ∀ op ∈ ops, op.WellFormed)
    (applied : schema.apply rules ops = .ok result) : result.WellFormed := by
  refine run_keeps rules Schema.WellFormed ops ?_ schema result wf applied
  intro op member before next beforeWf first
  exact apply_one_well_formed rules before next op beforeWf (payload op member) first

end SchemaDrift
