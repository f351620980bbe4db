import SchemaDrift.Proofs.Schema.Apply
/-!
A run of operations seen from one table: only the operations that name the table matter to it.
-/

set_option autoImplicit false

namespace SchemaDrift

inductive TableStep : Option Table → Operation → Option Table → Prop
  | create (table : Table) (ordinal : Nat) :
      TableStep none (.createTable table) (some { table with ordinal })
  | drop (table : Table) (name : String) : TableStep (some table) (.dropTable name) none
  | change (table next : Table) (op : Operation) (inPlace : op.inPlace = true)
      (becomes : table.Becomes op next) : TableStep (some table) op (some next)

inductive TableRun : Option Table → List Operation → Option Table → Prop
  | nil (table : Option Table) : TableRun table [] table
  | cons {before between after : Option Table} {op : Operation} {ops : List Operation}
      (step : TableStep before op between) (rest : TableRun between ops after) :
      TableRun before (op :: ops) after

inductive Table.Run : Table → List Operation → Table → Prop
  | nil (table : Table) : Run table [] table
  | cons {table next last : Table} {op : Operation} {ops : List Operation}
      (becomes : table.Becomes op next) (rest : Run next ops last) : Run table (op :: ops) last

theorem step_on_table (rules : ApplyRules) (schema next : Schema) (op : Operation)
    (wf : schema.WellFormed) (step : schema.Step rules op next) :
    TableStep (schema.table? op.table) op (next.table? op.table) := by
  cases step with
  | create t fresh =>
      have absent : schema.table? t.name = none := by
        rw [table_none_iff, ← has_table_iff, fresh]
        exact Bool.false_ne_true
      simp only [Operation.table, with_new_lookup, absent, Option.none_or, if_true]
      exact .create t _
  | drop name t found free =>
      simp only [Operation.table, without_table_lookup, if_true, found]
      exact .drop t name
  | change _ t u inPlace found becomes =>
      have named := becomes_named schema t u op wf found becomes
      rw [with_table_lookup, if_pos named.symm, found]
      exact .change t u op inPlace becomes

theorem step_elsewhere (rules : ApplyRules) (schema next : Schema) (op : Operation) (name : String)
    (wf : schema.WellFormed) (step : schema.Step rules op next) (other : op.table ≠ name) :
    next.table? name = schema.table? name := by
  cases step with
  | create t fresh =>
      have different : name ≠ t.name := fun same => other same.symm
      rw [with_new_lookup, if_neg different, Option.or_none]
  | drop gone t found free =>
      have different : name ≠ gone := fun same => other same.symm
      rw [without_table_lookup, if_neg different]
  | change _ t u inPlace found becomes =>
      have named := becomes_named schema t u op wf found becomes
      rw [with_table_lookup, if_neg fun hit => other (named.symm.trans hit.symm)]

theorem run_on_table (rules : ApplyRules) (schema result : Schema) (ops : List Operation)
    (name : String) (wf : schema.WellFormed) (payload : ∀ op ∈ ops, op.WellFormed)
    (applied : schema.apply rules ops = .ok result) :
    TableRun (schema.table? name) (ops.filter (·.table = name)) (result.table? name) := by
  induction ops generalizing schema with
  | nil =>
      cases applied
      exact .nil _
  | cons op ops ih =>
      obtain ⟨next, first, others⟩ := (apply_cons_ok _ _ _ _ _).mp applied
      have opWf := payload op (by simp)
      have nextWf := apply_one_well_formed rules schema next op wf opWf first
      have rest := ih next nextWf (fun o member => payload o (by simp [member])) others
      obtain ⟨step, _, _⟩ := (apply_one_iff rules schema next op wf opWf).mp first
      by_cases hit : op.table = name
      · rw [List.filter_cons_of_pos (by simpa using hit)]
        refine .cons ?_ rest
        rw [← hit]
        exact step_on_table rules schema next op wf step
      · rw [List.filter_cons_of_neg (by simpa using hit),
          ← step_elsewhere rules schema next op name wf step hit]
        exact rest

theorem table_run_in_place (t : Table) (last : Option Table) (ops : List Operation)
    (inPlace : ∀ op ∈ ops, op.inPlace = true) (run : TableRun (some t) ops last) :
    ∃ u, last = some u ∧ t.Run ops u := by
  induction ops generalizing t with
  | nil =>
      cases run
      exact ⟨t, rfl, .nil t⟩
  | cons op ops ih =>
      cases run with
      | cons step rest =>
          cases step with
          | drop => cases inPlace _ List.mem_cons_self
          | change _ next _ _ becomes =>
              obtain ⟨u, same, found⟩ := ih next (fun o member => inPlace o (by simp [member])) rest
              exact ⟨u, same, .cons becomes found⟩

theorem table_run_created (c : Table) (last : Option Table) (ops : List Operation)
    (inPlace : ∀ op ∈ ops, op.inPlace = true)
    (run : TableRun none (.createTable c :: ops) last) :
    ∃ n u, last = some u ∧ Table.Run { c with ordinal := n } ops u := by
  cases run with
  | cons step rest =>
      cases step with
      | create _ n =>
          obtain ⟨u, same, found⟩ := table_run_in_place _ last ops inPlace rest
          exact ⟨n, u, same, found⟩

theorem table_run_append (before after : Option Table) (front back : List Operation)
    (run : TableRun before (front ++ back) after) :
    ∃ between, TableRun before front between ∧ TableRun between back after := by
  induction front generalizing before with
  | nil => exact ⟨before, .nil before, run⟩
  | cons op front ih =>
      cases run with
      | cons step rest =>
          obtain ⟨between, first, second⟩ := ih _ rest
          exact ⟨between, .cons step first, second⟩

end SchemaDrift
