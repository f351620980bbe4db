import SchemaDrift.Proofs.Schema.Run
import SchemaDrift.Proofs.Schema.Shape
/-!
Accounts of a table that is changed in place. Of its constraints by shape, of its indexes and of its
column names there is after a run what there was before, plus what was added, less what was dropped.
-/

set_option autoImplicit false

namespace SchemaDrift

section Total

variable {κ : Type}

def total (amount : Operation → Multiset κ) (ops : List Operation) : Multiset κ :=
  (ops.map amount).sum

@[simp] theorem total_nil (amount : Operation → Multiset κ) : total amount [] = 0 := rfl

@[simp] theorem total_cons (amount : Operation → Multiset κ) (op : Operation)
    (ops : List Operation) : total amount (op :: ops) = amount op + total amount ops := by
  simp [total]

@[simp] theorem total_append (amount : Operation → Multiset κ) (front back : List Operation) :
    total amount (front ++ back) = total amount front + total amount back := by
  simp [total]

theorem total_empty (amount : Operation → Multiset κ) (ops : List Operation)
    (none : ∀ op ∈ ops, amount op = 0) : total amount ops = 0 := by
  induction ops with
  | nil => rfl
  | cons op ops ih =>
      rw [total_cons, none op (by simp), ih fun o member => none o (by simp [member]), zero_add]

theorem mem_total (amount : Operation → Multiset κ) (k : κ) (ops : List Operation) :
    k ∈ total amount ops ↔ ∃ op ∈ ops, k ∈ amount op := by
  induction ops with
  | nil => simp
  | cons op ops ih => simp [ih]

theorem total_map {α : Type} (amount : Operation → Multiset κ) (make : α → Operation)
    (key : α → κ) (each : ∀ a, amount (make a) = {key a}) (l : List α) :
    total amount (l.map make) = tally key l := by
  induction l with
  | nil => rfl
  | cons a l ih => rw [List.map_cons, total_cons, each, ih, tally_cons, Multiset.singleton_add]

end Total

inductive Subject where
  | table | column | constraint | index
deriving DecidableEq

def Operation.subject : Operation → Subject
  | createTable _ | dropTable _ => .table
  | addColumn .. | dropColumn .. | alterColumnType .. => .column
  | addConstraint .. | dropConstraint .. => .constraint
  | addIndex .. | dropIndex .. => .index

-- What a table has of something, and how operations change it. An operation may only drop what is
-- there. Members count as the same when their keys are.
structure Account (κ ι : Type) where
  state : Table → Multiset κ
  key : κ → ι
  subject : Subject
  dropped : Operation → Multiset κ
  added : Operation → Multiset κ
  apart : ∀ op, op.subject ≠ subject → dropped op = 0 ∧ added op = 0
  change : ∀ t u op, t.WellFormed → t.Becomes op u → dropped op ≤ state t →
    state u + dropped op = state t + added op

variable {κ ι : Type} (account : Account κ ι)

-- The operations only drop what is there at the start, and leave what is in `goal`.
structure Account.Reaches (start : Multiset κ) (ops : List Operation) (goal : Multiset ι) : Prop where
  covered : total account.dropped ops ≤ start
  balance : (start + total account.added ops).map account.key
    = (total account.dropped ops).map account.key + goal

section Run

variable (t u : Table) (wf : t.WellFormed)

include wf

theorem reaches_step (op : Operation) (ops : List Operation) (goal : Multiset ι)
    (becomes : t.Becomes op u) (reaches : account.Reaches (account.state t) (op :: ops) goal) :
    account.Reaches (account.state u) ops goal := by
  obtain ⟨covered, balance⟩ := reaches
  rw [total_cons] at covered balance
  rw [total_cons] at balance
  have step := account.change t u op wf becomes ((Multiset.le_add_right _ _).trans covered)
  constructor
  · -- What the rest drops is still there after the first operation.
    refine le_of_add_le_add_left (a := account.dropped op) ?_
    calc account.dropped op + total account.dropped ops ≤ account.state t := covered
      _ ≤ account.state t + account.added op := Multiset.le_add_right _ _
      _ = account.dropped op + account.state u := by rw [← step, add_comm]
  · refine add_left_cancel (a := (account.dropped op).map account.key) ?_
    calc (account.dropped op).map account.key
          + (account.state u + total account.added ops).map account.key
        = (account.state u + account.dropped op + total account.added ops).map account.key := by
          simp only [Multiset.map_add]
          abel
      _ = (account.state t + (account.added op + total account.added ops)).map account.key := by
          rw [step, add_assoc]
      _ = (account.dropped op).map account.key
          + ((total account.dropped ops).map account.key + goal) := by
          rw [balance, Multiset.map_add, add_assoc]

theorem run_balance (front back : List Operation) (goal : Multiset ι) (run : t.Run front u)
    (reaches : account.Reaches (account.state t) (front ++ back) goal) :
    account.state u + total account.dropped front
      = account.state t + total account.added front := by
  induction run with
  | nil t => rfl
  | @cons t next last op ops becomes rest ih =>
      have covered := reaches.covered
      rw [List.cons_append, total_cons] at covered
      have step := account.change t next op wf becomes ((Multiset.le_add_right _ _).trans covered)
      have later := ih (becomes_keeps t next op wf becomes).2.2
        (reaches_step account t next wf op (ops ++ back) goal becomes reaches)
      calc account.state last + total account.dropped (op :: ops)
          = account.dropped op + (account.state last + total account.dropped ops) := by
            rw [total_cons]
            abel
        _ = (account.state next + account.dropped op) + total account.added ops := by
            rw [later]
            abel
        _ = account.state t + total account.added (op :: ops) := by
            rw [step, total_cons, add_assoc]

end Run

/-! ### Putting accounts together -/

theorem reaches_apart (ops : List Operation) (subject : Subject)
    (own : ∀ op ∈ ops, op.subject = subject) (other : account.subject ≠ subject)
    (start : Multiset κ) (goal : Multiset ι) (same : start.map account.key = goal) :
    account.Reaches start ops goal := by
  have idle (op : Operation) (member : op ∈ ops) : account.dropped op = 0 ∧ account.added op = 0 :=
    account.apart op (own op member ▸ other.symm)
  have dropped := total_empty account.dropped ops fun op member => (idle op member).1
  have added := total_empty account.added ops fun op member => (idle op member).2
  exact ⟨dropped ▸ Multiset.zero_le _, by rw [dropped, added]; simpa using same⟩

theorem reaches_append (front back : List Operation) (start next : Multiset κ)
    (goal last : Multiset ι) (first : account.Reaches start front goal)
    (second : account.Reaches next back last) :
    account.Reaches (start + next) (front ++ back) (goal + last) := by
  constructor
  · rw [total_append]
    exact add_le_add first.covered second.covered
  · rw [total_append, total_append]
    calc (start + next + (total account.added front + total account.added back)).map account.key
        = (start + total account.added front).map account.key
          + (next + total account.added back).map account.key := by
          simp only [Multiset.map_add]
          abel
      _ = (total account.dropped front + total account.dropped back).map account.key
          + (goal + last) := by
          rw [first.balance, second.balance, Multiset.map_add]
          abel

theorem reaches_perm (ops others : List Operation) (perm : ops.Perm others) (start : Multiset κ)
    (goal : Multiset ι) (reaches : account.Reaches start ops goal) :
    account.Reaches start others goal := by
  have same (amount : Operation → Multiset κ) : total amount ops = total amount others :=
    (perm.map amount).sum_eq
  exact ⟨same account.dropped ▸ reaches.covered,
    same account.dropped ▸ same account.added ▸ reaches.balance⟩

theorem reaches_exchange {α : Type} (count : α → κ) (drop add : α → Operation)
    (drops : ∀ a, account.dropped (drop a) = {count a} ∧ account.added (drop a) = 0)
    (adds : ∀ a, account.dropped (add a) = 0 ∧ account.added (add a) = {count a})
    (old removed new : List α) (goal : Multiset ι) (present : tally count removed ≤ tally count old)
    (balance : (tally count old + tally count new).map account.key
      = (tally count removed).map account.key + goal) :
    account.Reaches (tally count old) (removed.map drop ++ new.map add) goal := by
  have idle (amount : Operation → Multiset κ) (make : α → Operation) (none : ∀ a, amount (make a) = 0)
      (l : List α) : total amount (l.map make) = 0 :=
    total_empty amount _ fun op member => by
      obtain ⟨a, _, same⟩ := List.mem_map.mp member
      exact same ▸ none a
  have dropped : total account.dropped (removed.map drop ++ new.map add) = tally count removed := by
    rw [total_append, total_map _ drop count fun a => (drops a).1,
      idle _ add (fun a => (adds a).1) new, add_zero]
  have added : total account.added (removed.map drop ++ new.map add) = tally count new := by
    rw [total_append, idle _ drop (fun a => (drops a).2) removed,
      total_map _ add count fun a => (adds a).2, zero_add]
  exact ⟨dropped ▸ present, by rw [dropped, added, balance]⟩

/-! ### Constraints -/

def Table.declared (table : Table) : List Constraint := table.primaryKey.toList ++ table.constraints

namespace Operation

def droppedShapes : Operation → Multiset Shape
  | dropConstraint _ c => {c.shape}
  | _ => 0

def addedShapes : Operation → Multiset Shape
  | addConstraint _ c => {c.shape}
  | _ => 0

end Operation

theorem built_declared (draft : TableDraft) (position : Nat) (single : draft.primaryKeys.length ≤ 1) :
    (draft.toTable position).declared = draft.primaryKeys ++ draft.constraints := by
  simp only [Table.declared, TableDraft.toTable, single_key draft.primaryKeys single]

theorem change_shapes (draft next : TableDraft) (op : Operation) (changed : draft.Changed op next) :
    tally Constraint.shape (next.primaryKeys ++ next.constraints) + op.droppedShapes
      = tally Constraint.shape (draft.primaryKeys ++ draft.constraints) + op.addedShapes := by
  cases changed with
  | untouched _ whole => cases op <;> first | rfl | cases whole
  | addColumn | dropColumn | alterColumn | addIndex | dropIndex => rfl
  | addKey | addConstraint =>
      simp only [Operation.droppedShapes, Operation.addedShapes, tally_append, tally_cons, tally_nil,
        ← Multiset.singleton_add]
      abel
  | dropKey table c rest primary erased | dropConstraint table c rest other erased =>
      have gone := erase_first_tally Constraint.shape c.shape _ (constraint_agree · c) _ _ erased
      simp only [Operation.droppedShapes, Operation.addedShapes, tally_append, gone,
        ← Multiset.singleton_add]
      abel

def Account.shapes : Account Shape Shape where
  state table := tally Constraint.shape table.declared
  key := id
  subject := .constraint
  dropped := Operation.droppedShapes
  added := Operation.addedShapes
  apart op other := by
    cases op with
    | addConstraint | dropConstraint => exact absurd rfl other
    | _ => exact ⟨rfl, rfl⟩
  change t u op wf becomes _ := by
    obtain ⟨draft, changed, sound, rfl⟩ := becomes
    rw [built_declared draft 0 sound.singleKey]
    exact change_shapes t.toDraft draft op changed

/-! ### Indexes and column names -/

namespace Operation

def droppedIndexes : Operation → Multiset Index
  | dropIndex _ index => {index}
  | _ => 0

def addedIndexes : Operation → Multiset Index
  | addIndex _ index => {index}
  | _ => 0

def droppedNames : Operation → Multiset String
  | dropColumn _ name => {name}
  | _ => 0

def addedNames : Operation → Multiset String
  | addColumn _ column => {column.name}
  | _ => 0

end Operation

theorem filter_other_keys {α : Type} (key : α → String) (l : List α) (a : α)
    (distinct : (l.map key).Nodup) (member : a ∈ l) :
    (↑(l.filter (key · ≠ key a)) : Multiset α) + {a} = ↑l := by
  induction l with
  | nil => cases member
  | cons b l ih =>
      obtain ⟨fresh, distinct⟩ := List.nodup_cons.mp distinct
      rcases List.mem_cons.mp member with same | later
      · subst same
        have others : l.filter (key · ≠ key a) = l := by
          refine List.filter_eq_self.mpr fun c inside => ?_
          have other : key c ≠ key a := fun same => fresh (List.mem_map.mpr ⟨c, inside, same⟩)
          simpa using other
        rw [List.filter_cons_of_neg (by simp), others, add_comm, Multiset.singleton_add,
          Multiset.cons_coe]
      · have other : key b ≠ key a := fun same => fresh (List.mem_map.mpr ⟨a, later, same.symm⟩)
        rw [List.filter_cons_of_pos (by simpa using other), ← Multiset.cons_coe, ← Multiset.cons_coe,
          Multiset.cons_add, ih distinct later]

-- Indexes are dropped by name, so the very index has to be there.
def Account.indexes : Account Index (Bool × List IndexColumn) where
  state table := ↑table.indexes
  key := Index.shape
  subject := .index
  dropped := Operation.droppedIndexes
  added := Operation.addedIndexes
  apart op other := by
    cases op with
    | addIndex | dropIndex => exact absurd rfl other
    | _ => exact ⟨rfl, rfl⟩
  change t u op wf becomes present := by
    obtain ⟨draft, changed, _, rfl⟩ := becomes
    cases changed with
    | untouched _ whole => cases op <;> first | rfl | cases whole
    | addColumn | dropColumn | alterColumn | addKey | addConstraint | dropKey | dropConstraint => rfl
    | addIndex table index =>
        simp [Operation.droppedIndexes, Operation.addedIndexes, TableDraft.toTable, Table.toDraft,
          ← Multiset.coe_add]
    | dropIndex table index =>
        have member : index ∈ t.indexes := by simpa [Operation.droppedIndexes] using present
        simp only [Operation.addedIndexes, add_zero]
        exact filter_other_keys Index.name t.indexes index wf.sound.indexesDistinct member

theorem replace_column_names (column : Column) (columns : List Column) :
    (TableDraft.replaceFirst column columns).map Column.name = columns.map Column.name := by
  induction columns with
  | nil => rfl
  | cons c columns ih =>
      rw [TableDraft.replaceFirst]
      by_cases hit : c.name = column.name <;> simp [hit, ih]

def Account.names : Account String String where
  state table := ↑table.columnNames
  key := id
  subject := .column
  dropped := Operation.droppedNames
  added := Operation.addedNames
  apart op other := by
    cases op with
    | addColumn | dropColumn | alterColumnType => exact absurd rfl other
    | _ => exact ⟨rfl, rfl⟩
  change t u op wf becomes _ := by
    obtain ⟨draft, changed, _, rfl⟩ := becomes
    rw [built_column_names]
    cases changed with
    | untouched _ whole => cases op <;> first | rfl | cases whole
    | addKey | addConstraint | dropKey | dropConstraint | addIndex | dropIndex => rfl
    | addColumn table column fresh =>
        simp [Operation.droppedNames, Operation.addedNames, TableDraft.columnNames, Table.toDraft,
          Table.columnNames, ← Multiset.coe_add]
    | alterColumn table source target =>
        simp only [TableDraft.columnNames, replace_column_names]
        rfl
    | dropColumn table name present =>
        obtain ⟨column, member, named⟩ := List.mem_map.mp present
        have balance := congrArg (Multiset.map Column.name)
          (filter_other_keys Column.name t.columns column wf.sound.columnsDistinct member)
        rw [Multiset.map_add, Multiset.map_singleton, named] at balance
        simp only [Operation.addedNames, add_zero]
        exact balance

end SchemaDrift
