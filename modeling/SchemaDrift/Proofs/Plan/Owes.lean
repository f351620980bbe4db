import SchemaDrift.Proofs.Plan.Stage
import SchemaDrift.Proofs.Schema.Balance
/-!
What a table owes while a plan turns it into a goal: the operations to come drop only what is there,
bring in only what the goal has, and leave it equivalent to the goal. Each operation keeps this.
-/

set_option autoImplicit false

namespace SchemaDrift

namespace Operation

-- What the operation brings in, the goal has; a column that it drops, the goal has not.
def Serves (goal : Table) : Operation → Prop
  | addColumn _ column => column ∈ goal.columns
  | dropColumn _ name => name ∉ goal.columnNames
  | alterColumnType _ source target => source.name = target.name ∧ target ∈ goal.columns
  | addConstraint _ c => c ∈ goal.declared
  | addIndex _ index => index ∈ goal.indexes
  | _ => True

def Revises (name : String) : Operation → Prop
  | dropColumn _ dropped => dropped = name
  | alterColumnType _ _ target => target.name = name
  | _ => False

end Operation

-- The column is as in the goal, or an operation to come drops or alters it.
def Column.Settled (goal : Table) (ops : List Operation) (column : Column) : Prop :=
  (∃ op ∈ ops, op.Revises column.name) ∨ ∃ d ∈ goal.columns, column.sameDefinition d = true

structure Table.Owes (table : Table) (ops : List Operation) (goal : Table) : Prop where
  inPlace : ∀ op ∈ ops, op.inPlace = true
  sorted : ops.Pairwise fun a b => a.stage ≤ b.stage
  serves : ∀ op ∈ ops, op.Serves goal
  altered : ∀ n source target, .alterColumnType n source target ∈ ops →
    target.name ∉ total Operation.addedNames ops
  shapes : Account.shapes.Reaches (Account.shapes.state table) ops (Account.shapes.state goal)
  indexes : Account.indexes.Reaches (Account.indexes.state table) ops
    ((Account.indexes.state goal).map Index.shape)
  names : Account.names.Reaches (Account.names.state table) ops (Account.names.state goal)
  settled : ∀ c ∈ table.columns, c.Settled goal ops

theorem reaches_stages {κ ι : Type} (account : Account κ ι) (a b : Stages) (start next : Multiset κ)
    (goal last : Multiset ι) (first : account.Reaches start a.operations goal)
    (second : account.Reaches next b.operations last) :
    account.Reaches (start + next) (a ++ b).operations (goal + last) :=
  reaches_perm account _ _ (operations_append a b).symm _ _
    (reaches_append account _ _ _ _ _ _ first second)

/-! ### Operations by stage -/

theorem stage_three_subject (op : Operation) (third : op.stage = 3) : op.subject = .column := by
  cases op with
  | addColumn | dropColumn | alterColumnType => rfl
  | addConstraint n c | dropConstraint n c =>
      simp only [Operation.stage] at third
      split at third <;> omega
  | _ => simp [Operation.stage] at third

theorem late_drops (ops : List Operation) (late : ∀ op ∈ ops, 2 ≤ op.stage) :
    total Operation.droppedShapes ops = 0 ∧ total Operation.droppedIndexes ops = 0 := by
  have each (op : Operation) (after : 2 ≤ op.stage) :
      op.droppedShapes = 0 ∧ op.droppedIndexes = 0 := by
    cases op with
    | dropConstraint n c =>
        simp only [Operation.stage] at after
        split at after <;> omega
    | dropIndex => simp [Operation.stage] at after
    | _ => exact ⟨rfl, rfl⟩
  exact ⟨total_empty _ ops fun op member => (each op (late op member)).1,
    total_empty _ ops fun op member => (each op (late op member)).2⟩

theorem late_names (ops : List Operation) (late : ∀ op ∈ ops, 4 ≤ op.stage) :
    total Operation.droppedNames ops = 0 ∧ total Operation.addedNames ops = 0 := by
  have each (op : Operation) (after : 4 ≤ op.stage) : op.droppedNames = 0 ∧ op.addedNames = 0 := by
    cases op with
    | addColumn | dropColumn => simp [Operation.stage] at after
    | _ => exact ⟨rfl, rfl⟩
  exact ⟨total_empty _ ops fun op member => (each op (late op member)).1,
    total_empty _ ops fun op member => (each op (late op member)).2⟩

theorem late_additions (ops : List Operation) (late : ∀ op ∈ ops, 5 ≤ op.stage) :
    total Operation.addedIndexes ops = 0 ∧
      ∀ s ∈ total Operation.addedShapes ops, s.isForeignKey = true := by
  constructor
  · refine total_empty _ ops fun op member => ?_
    have after := late op member
    cases op with
    | addIndex => simp [Operation.stage] at after
    | _ => rfl
  · induction ops with
    | nil => simp
    | cons op ops ih =>
        intro s member
        rw [total_cons, Multiset.mem_add] at member
        rcases member with own | later
        · have after := late op (by simp)
          cases op with
          | addConstraint n c =>
              rw [Operation.addedShapes, Multiset.mem_singleton] at own
              rw [own, shape_foreign_key]
              by_contra other
              simp [Operation.stage, other] at after
          | _ => cases own
        · exact ih (fun o inside => late o (by simp [inside])) s later

/-! ### Keys -/

theorem declared_key (table : Table) (wf : table.WellFormed) (c : Constraint)
    (member : c ∈ table.declared) (primary : c.isPrimaryKey = true) : table.primaryKey = some c := by
  rcases List.mem_append.mp member with key | other
  · simpa using key
  · have apart := wf.placed.constraints c other
    rw [primary] at apart
    cases apart

theorem declared_foreign (table : Table) (wf : table.WellFormed) (c : Constraint) (r : Reference)
    (points : c.reference? = some r) (member : c ∈ table.declared) : c ∈ table.constraints := by
  refine (List.mem_append.mp member).resolve_left fun key => ?_
  have kind := wf.placed.keys c key
  simp only [Constraint.isPrimaryKey, decide_eq_true_eq] at kind
  simp [Constraint.reference?, kind] at points

theorem key_columns (table : Table) (key : Constraint) (found : table.primaryKey = some key) :
    table.primaryKeyColumns = key.columns := by
  simp [Table.primaryKeyColumns, found]

theorem same_key (t goal : Table) (tableWf : t.WellFormed) (wf : goal.WellFormed) (key c : Constraint)
    (found : t.primaryKey = some key) (member : c ∈ goal.declared) (same : c.shape = key.shape) :
    goal.primaryKeyColumns = t.primaryKeyColumns := by
  have primary : key.isPrimaryKey = true := tableWf.placed.keys key (by simp [Table.toDraft, found])
  have other : c.isPrimaryKey = true := by rw [← shape_primary_key, same, shape_primary_key, primary]
  have kind : key.shape.columns? = some key.columns := by
    simp only [Constraint.isPrimaryKey, decide_eq_true_eq] at primary
    simp [Constraint.shape, primary, Shape.columns?]
  rw [key_columns goal c (declared_key goal wf c member other), key_columns t key found,
    shape_columns c key.columns (same ▸ kind)]

/-! ### Columns -/

theorem replace_first_column (target : Column) (columns : List Column)
    (distinct : (columns.map Column.name).Nodup) (c : Column)
    (member : c ∈ TableDraft.replaceFirst target columns) :
    c = target ∨ c ∈ columns ∧ c.name ≠ target.name := by
  induction columns with
  | nil => cases member
  | cons b columns ih =>
      obtain ⟨fresh, distinct⟩ := List.nodup_cons.mp distinct
      rw [TableDraft.replaceFirst] at member
      by_cases hit : b.name = target.name
      · rw [if_pos hit] at member
        rcases List.mem_cons.mp member with same | later
        · exact .inl same
        · refine .inr ⟨List.mem_cons_of_mem b later, fun same => fresh ?_⟩
          exact List.mem_map.mpr ⟨c, later, same.trans hit.symm⟩
      · rw [if_neg hit] at member
        rcases List.mem_cons.mp member with same | later
        · exact .inr ⟨by simp [same], same ▸ hit⟩
        · exact (ih distinct later).imp_right fun h => ⟨List.mem_cons_of_mem b h.1, h.2⟩

theorem same_definition_refl (c : Column) : c.sameDefinition c = true := by
  simp [Column.sameDefinition]

theorem settled_change (draft next : TableDraft) (op : Operation) (ops : List Operation) (goal : Table)
    (distinct : draft.columnNames.Nodup) (serves : op.Serves goal) (changed : draft.Changed op next)
    (settled : ∀ c ∈ draft.columns, c.Settled goal (op :: ops)) :
    ∀ c ∈ next.columns, c.Settled goal ops := by
  have old (c : Column) (member : c ∈ draft.columns) (spared : ¬op.Revises c.name) :
      c.Settled goal ops := by
    rcases settled c member with ⟨o, inside, revises⟩ | done
    · rcases List.mem_cons.mp inside with same | later
      · exact absurd (same ▸ revises) spared
      · exact .inl ⟨o, later, revises⟩
    · exact .inr done
  cases changed with
  | untouched _ whole =>
      refine fun c member => old c member ?_
      cases op <;> first | exact id | cases whole
  | addKey | addConstraint | dropKey | dropConstraint | addIndex | dropIndex =>
      exact fun c member => old c member id
  | addColumn table column =>
      intro c member
      rcases List.mem_append.mp member with before | new
      · exact old c before id
      · rw [List.mem_singleton.mp new]
        exact .inr ⟨column, serves, same_definition_refl column⟩
  | dropColumn table name =>
      intro c member
      obtain ⟨before, kept⟩ := List.mem_filter.mp member
      have other : c.name ≠ name := by simpa using kept
      exact old c before fun gone => other gone.symm
  | alterColumn table source target =>
      intro c member
      rcases replace_first_column target draft.columns distinct c member with same | ⟨before, other⟩
      · exact .inr ⟨target, serves.2, same ▸ same_definition_refl target⟩
      · exact old c before fun altered => other altered.symm

theorem change_refuses (t goal : Table) (draft : TableDraft) (op : Operation) (wf : t.WellFormed)
    (goalWf : goal.WellFormed) (serves : op.Serves goal) (changed : t.toDraft.Changed op draft)
    (single : draft.primaryKeys.length ≤ 1)
    (keyed : op.stage = 3 → ∀ x ∈ t.primaryKeyColumns, x ∈ goal.primaryKeyColumns) :
    ∀ c ∈ draft.columns, c.name ∈ draft.primaryKeys.head?.elim [] Constraint.columns →
      c.nullable = false ∨ c.name ∈ goal.primaryKeyColumns := by
  have key : t.toDraft.primaryKeys.head?.elim [] Constraint.columns = t.primaryKeyColumns := by
    simp only [Table.toDraft, Table.primaryKeyColumns]
    cases t.primaryKey <;> rfl
  have old (c : Column) (member : c ∈ t.columns) (inKey : c.name ∈ t.primaryKeyColumns) :
      c.nullable = false ∨ c.name ∈ goal.primaryKeyColumns :=
    .inl (wf.refusesNull c member inKey)
  cases changed with
  | untouched | addConstraint | dropConstraint | addIndex | dropIndex =>
      exact fun c member inKey => old c member (key ▸ inKey)
  | dropColumn =>
      exact fun c member inKey => old c (List.mem_filter.mp member).1 (key ▸ inKey)
  | addColumn table column =>
      intro c member inKey
      rcases List.mem_append.mp member with before | new
      · exact old c before (key ▸ inKey)
      · exact .inr (keyed rfl c.name (key ▸ inKey))
  | alterColumn table source target =>
      exact fun c _ inKey => .inr (keyed rfl c.name (key ▸ inKey))
  | addKey table c primary =>
      intro column _ inKey
      have none : t.toDraft.primaryKeys = [] := by
        rw [← List.length_eq_zero_iff]
        simp only [List.length_append, List.length_singleton] at single
        omega
      rw [none] at inKey
      rw [key_columns goal c (declared_key goal goalWf c serves primary)]
      exact .inr inKey
  | dropKey table c rest primary erased =>
      obtain ⟨front, gone, back, whole, remaining, _⟩ := erase_first_some _ _ _ erased
      have before := wf.sound.singleKey
      rw [whole] at before
      have none : rest = [] := by
        rw [remaining, ← List.length_eq_zero_iff]
        simp only [List.length_append, List.length_cons] at before ⊢
        omega
      rw [none]
      intro column _ inKey
      cases inKey

theorem built_settled (draft : TableDraft) (position : Nat) (ops : List Operation) (goal : Table)
    (wf : goal.WellFormed) (settled : ∀ c ∈ draft.columns, c.Settled goal ops)
    (refuses : ∀ c ∈ draft.columns, c.name ∈ draft.primaryKeys.head?.elim [] Constraint.columns →
      c.nullable = false ∨ c.name ∈ goal.primaryKeyColumns) :
    ∀ c ∈ (draft.toTable position).columns, c.Settled goal ops := by
  intro c member
  obtain ⟨source, inside, coerced⟩ := List.mem_map.mp member
  by_cases inKey : source.name ∈ draft.primaryKeys.head?.elim [] Constraint.columns
  · rw [if_pos inKey] at coerced
    subst coerced
    rcases settled source inside with waiting | ⟨d, found, same⟩
    · exact .inl waiting
    · refine .inr ⟨d, found, ?_⟩
      -- The goal's column refuses NULL, so the coercion changes nothing.
      have refused : source.nullable = false := by
        rcases refuses source inside inKey with already | wanted
        · exact already
        · simp only [Column.sameDefinition, Bool.and_eq_true, decide_eq_true_eq] at same
          rw [same.1.1.2]
          exact wf.refusesNull d found (same.1.1.1.1 ▸ wanted)
      rwa [← refused]
  · rw [if_neg inKey] at coerced
    exact coerced ▸ settled source inside

/-! ### Steps and runs -/

theorem late_shapes (t goal : Table) (ops : List Operation) (owes : t.Owes ops goal)
    (late : ∀ op ∈ ops, 2 ≤ op.stage) :
    tally Constraint.shape t.declared + total Operation.addedShapes ops
      = tally Constraint.shape goal.declared := by
  have balance := owes.shapes.balance
  simpa only [Account.shapes, Multiset.map_id, (late_drops ops late).1, zero_add] using balance

theorem late_declared (t goal : Table) (ops : List Operation) (owes : t.Owes ops goal)
    (late : ∀ op ∈ ops, 2 ≤ op.stage) (c : Constraint) (member : c ∈ t.declared) :
    ∃ d ∈ goal.declared, d.shape = c.shape := by
  have present : c.shape ∈ tally Constraint.shape t.declared :=
    (mem_tally _ _ _).mpr ⟨c, member, rfl⟩
  refine (mem_tally _ _ _).mp ?_
  rw [← late_shapes t goal ops owes late]
  exact Multiset.mem_add.mpr (.inl present)

theorem owes_step (t u goal : Table) (op : Operation) (ops : List Operation) (wf : t.WellFormed)
    (goalWf : goal.WellFormed) (becomes : t.Becomes op u) (owes : t.Owes (op :: ops) goal) :
    u.Owes ops goal := by
  have serves := owes.serves op (by simp)
  have keyed (columns : op.stage = 3) : ∀ x ∈ t.primaryKeyColumns, x ∈ goal.primaryKeyColumns := by
    have late : ∀ o ∈ op :: ops, 2 ≤ o.stage := by
      refine List.forall_mem_cons.mpr ⟨by omega, fun o member => ?_⟩
      have after := (List.pairwise_cons.mp owes.sorted).1 o member
      omega
    intro x inKey
    cases key : t.primaryKey with
    | none => simp [Table.primaryKeyColumns, key] at inKey
    | some c =>
        have declared : c ∈ t.declared := by simp [Table.declared, key]
        obtain ⟨d, member, same⟩ := late_declared t goal _ owes late c declared
        rw [same_key t goal wf goalWf c d key member same]
        exact inKey
  refine ⟨fun o member => owes.inPlace o (by simp [member]), (List.pairwise_cons.mp owes.sorted).2,
    fun o member => owes.serves o (by simp [member]), ?_,
    reaches_step _ t u wf op ops _ becomes owes.shapes,
    reaches_step _ t u wf op ops _ becomes owes.indexes,
    reaches_step _ t u wf op ops _ becomes owes.names, ?_⟩
  · intro n source target member added
    refine owes.altered n source target (by simp [member]) ?_
    rw [total_cons]
    exact Multiset.mem_add.mpr (.inr added)
  · obtain ⟨draft, changed, sound, rfl⟩ := becomes
    refine built_settled draft 0 ops goal goalWf ?_ ?_
    · exact settled_change t.toDraft draft op ops goal wf.sound.columnsDistinct serves changed
        owes.settled
    · exact change_refuses t goal draft op wf goalWf serves changed sound.singleKey keyed

theorem owes_run (t u goal : Table) (front back : List Operation) (wf : t.WellFormed)
    (goalWf : goal.WellFormed) (run : t.Run front u) (owes : t.Owes (front ++ back) goal) :
    u.Owes back goal := by
  induction run with
  | nil t => exact owes
  | @cons t next last op ops becomes rest ih =>
      exact ih (becomes_keeps t next op wf becomes).2.2
        (owes_step t next goal op (ops ++ back) wf goalWf becomes owes)

end SchemaDrift
