import SchemaDrift.Plan.Diff
import SchemaDrift.Proofs.Result
/-!
Stages of a plan: which operations belong to which stage, and the part of all stages that concerns
one table.
-/

set_option autoImplicit false

namespace SchemaDrift

def Operation.stage : Operation → Nat
  | dropConstraint _ c => if c.isForeignKey then 0 else 1
  | dropIndex .. => 1
  | dropTable _ => 2
  | addColumn .. | dropColumn .. | alterColumnType .. => 3
  | addConstraint _ c => if c.isForeignKey then 6 else 4
  | addIndex .. => 4
  | createTable _ => 5

namespace Stages

structure All (p : Nat → Operation → Prop) (stages : Stages) : Prop where
  foreignKeyDrops : ∀ op ∈ stages.foreignKeyDrops, p 0 op
  drops : ∀ op ∈ stages.drops, p 1 op
  tableDrops : ∀ op ∈ stages.tableDrops, p 2 op
  columnChanges : ∀ op ∈ stages.columnChanges, p 3 op
  additions : ∀ op ∈ stages.additions, p 4 op
  creations : ∀ op ∈ stages.creations, p 5 op
  foreignKeyAdditions : ∀ op ∈ stages.foreignKeyAdditions, p 6 op

def on (name : String) (stages : Stages) : Stages where
  foreignKeyDrops := stages.foreignKeyDrops.filter (·.table = name)
  drops := stages.drops.filter (·.table = name)
  tableDrops := stages.tableDrops.filter (·.table = name)
  columnChanges := stages.columnChanges.filter (·.table = name)
  additions := stages.additions.filter (·.table = name)
  creations := stages.creations.filter (·.table = name)
  foreignKeyAdditions := stages.foreignKeyAdditions.filter (·.table = name)

end Stages

open Stages

variable (p : Nat → Operation → Prop)

theorem stages_append (a b : Stages) : a ++ b = a.append b := rfl

theorem empty_append (a : Stages) : {} ++ a = a := rfl

theorem append_empty (a : Stages) : a ++ {} = a := by
  simp [stages_append, Stages.append]

theorem all_empty : All p {} := by
  constructor <;> simp

theorem all_append (a b : Stages) (first : All p a) (second : All p b) : All p (a ++ b) := by
  constructor
  · exact List.forall_mem_append.mpr ⟨first.foreignKeyDrops, second.foreignKeyDrops⟩
  · exact List.forall_mem_append.mpr ⟨first.drops, second.drops⟩
  · exact List.forall_mem_append.mpr ⟨first.tableDrops, second.tableDrops⟩
  · exact List.forall_mem_append.mpr ⟨first.columnChanges, second.columnChanges⟩
  · exact List.forall_mem_append.mpr ⟨first.additions, second.additions⟩
  · exact List.forall_mem_append.mpr ⟨first.creations, second.creations⟩
  · exact List.forall_mem_append.mpr ⟨first.foreignKeyAdditions, second.foreignKeyAdditions⟩

theorem all_concat (l : List Stages) (each : ∀ s ∈ l, All p s) : All p (concat l) := by
  induction l with
  | nil => exact all_empty p
  | cons s l ih =>
      exact all_append p s _ (each s (by simp)) (ih fun t member => each t (by simp [member]))

theorem concat_empty {α : Type} (l : List α) : concat (l.map fun _ => {}) = {} := by
  induction l with
  | nil => rfl
  | cons _ l ih => exact ih

theorem all_mono (q : Nat → Operation → Prop) (s : Stages) (all : All p s)
    (implies : ∀ i op, p i op → q i op) : All q s := by
  obtain ⟨a, b, c, d, e, f, g⟩ := all
  exact ⟨fun op m => implies _ op (a op m), fun op m => implies _ op (b op m),
    fun op m => implies _ op (c op m), fun op m => implies _ op (d op m),
    fun op m => implies _ op (e op m), fun op m => implies _ op (f op m),
    fun op m => implies _ op (g op m)⟩

theorem all_operations (q : Operation → Prop) (s : Stages) (all : All (fun _ => q) s) (op : Operation)
    (member : op ∈ s.operations) : q op := by
  simp only [operations, List.mem_append, or_assoc] at member
  rcases member with h | h | h | h | h | h | h
  · exact all.foreignKeyDrops op h
  · exact all.drops op h
  · exact all.tableDrops op h
  · exact all.columnChanges op h
  · exact all.additions op h
  · exact all.creations op h
  · exact all.foreignKeyAdditions op h

theorem operations_all (q : Operation → Prop) (s : Stages) (each : ∀ op ∈ s.operations, q op) :
    All (fun _ => q) s := by
  simp only [operations, List.mem_append, or_assoc] at each
  constructor <;> exact fun op member => each op (by simp [member])

theorem filter_map_back {β : Type} (f : Operation → Option β) (a b : Stages)
    (silent : ∀ op ∈ a.operations, f op = none) :
    (a ++ b).operations.filterMap f = b.operations.filterMap f := by
  have all := operations_all (fun op => f op = none) a silent
  have empty (l : List Operation) (each : ∀ op ∈ l, f op = none) : l.filterMap f = [] :=
    List.filterMap_eq_nil_iff.mpr each
  simp only [stages_append, Stages.append, operations, List.filterMap_append,
    empty _ all.foreignKeyDrops, empty _ all.drops, empty _ all.tableDrops, empty _ all.columnChanges,
    empty _ all.additions, empty _ all.creations, empty _ all.foreignKeyAdditions, List.nil_append]

theorem filter_map_front {β : Type} (f : Operation → Option β) (a b : Stages)
    (silent : ∀ op ∈ b.operations, f op = none) :
    (a ++ b).operations.filterMap f = a.operations.filterMap f := by
  have all := operations_all (fun op => f op = none) b silent
  have empty (l : List Operation) (each : ∀ op ∈ l, f op = none) : l.filterMap f = [] :=
    List.filterMap_eq_nil_iff.mpr each
  simp only [stages_append, Stages.append, operations, List.filterMap_append,
    empty _ all.foreignKeyDrops, empty _ all.drops, empty _ all.tableDrops, empty _ all.columnChanges,
    empty _ all.additions, empty _ all.creations, empty _ all.foreignKeyAdditions, List.append_nil]

theorem operations_sorted (s : Stages) (all : All (fun i op => op.stage = i) s) :
    s.operations.Pairwise fun a b => a.stage ≤ b.stage := by
  -- Each stage is a block of operations of one number, and the numbers grow.
  have join (front back : List Operation) (n : Nat)
      (first : front.Pairwise fun a b => a.stage ≤ b.stage) (below : ∀ op ∈ front, op.stage ≤ n)
      (last : ∀ op ∈ back, op.stage = n) :
      ((front ++ back).Pairwise fun a b => a.stage ≤ b.stage) ∧
        ∀ op ∈ front ++ back, op.stage ≤ n := by
    refine ⟨List.pairwise_append.mpr ⟨first, ?_, ?_⟩, List.forall_mem_append.mpr ⟨below, ?_⟩⟩
    · exact List.pairwise_of_forall_mem_list fun a ma b mb => by rw [last a ma, last b mb]
    · exact fun a ma b mb => (below a ma).trans_eq (last b mb).symm
    · exact fun op member => (last op member).le
  have start := join [] _ 0 .nil (by simp) all.foreignKeyDrops
  have drops := join _ _ 1 start.1 (fun op m => (start.2 op m).trans (by omega)) all.drops
  have tables := join _ _ 2 drops.1 (fun op m => (drops.2 op m).trans (by omega)) all.tableDrops
  have columns := join _ _ 3 tables.1 (fun op m => (tables.2 op m).trans (by omega)) all.columnChanges
  have added := join _ _ 4 columns.1 (fun op m => (columns.2 op m).trans (by omega)) all.additions
  have made := join _ _ 5 added.1 (fun op m => (added.2 op m).trans (by omega)) all.creations
  exact (join _ _ 6 made.1 (fun op m => (made.2 op m).trans (by omega)) all.foreignKeyAdditions).1

theorem operations_append (a b : Stages) :
    (a ++ b).operations.Perm (a.operations ++ b.operations) := by
  refine Multiset.coe_eq_coe.mp ?_
  simp only [stages_append, Stages.append, operations, ← Multiset.coe_add]
  abel

theorem mem_operations_append (a b : Stages) (op : Operation) :
    op ∈ (a ++ b).operations ↔ op ∈ a.operations ∨ op ∈ b.operations := by
  rw [(operations_append a b).mem_iff, List.mem_append]

/-! ### The part of one table -/

variable (name : String)

theorem on_operations (s : Stages) :
    (s.on name).operations = s.operations.filter (·.table = name) := by
  simp only [operations, on, List.filter_append]

theorem on_append (a b : Stages) : (a ++ b).on name = a.on name ++ b.on name := by
  simp only [stages_append, Stages.append, on, List.filter_append]

theorem on_own (s : Stages) (own : All (fun _ op => op.table = name) s) : s.on name = s := by
  have kept (l : List Operation) (all : ∀ op ∈ l, op.table = name) :
      l.filter (·.table = name) = l := by
    simpa using all
  simp only [on, kept _ own.foreignKeyDrops, kept _ own.drops, kept _ own.tableDrops,
    kept _ own.columnChanges, kept _ own.additions, kept _ own.creations,
    kept _ own.foreignKeyAdditions]

theorem on_other (s : Stages) (other : All (fun _ op => op.table ≠ name) s) : s.on name = {} := by
  have gone (l : List Operation) (all : ∀ op ∈ l, op.table ≠ name) :
      l.filter (·.table = name) = [] := by
    simpa using all
  simp only [on, gone _ other.foreignKeyDrops, gone _ other.drops, gone _ other.tableDrops,
    gone _ other.columnChanges, gone _ other.additions, gone _ other.creations,
    gone _ other.foreignKeyAdditions]

section Concat

variable {α : Type} (key : α → String) (R : α → Stages → Prop) (l : List α) (each : List Stages)
  (pairs : List.Forall₂ R l each)
  (own : ∀ a ∈ l, ∀ s, R a s → All (fun _ op => op.table = key a) s)

include pairs own

theorem on_concat_absent (absent : name ∉ l.map key) : (concat each).on name = {} := by
  refine on_other name _ (all_concat _ each fun s member => ?_)
  obtain ⟨a, inside, related⟩ := partner_of_right R l each pairs s member
  refine all_mono _ _ s (own a inside s related) fun _ op named same => absent ?_
  exact List.mem_map.mpr ⟨a, inside, named.symm.trans same⟩

theorem on_concat_present (distinct : (l.map key).Nodup) (a : α) (member : a ∈ l) :
    R a ((concat each).on (key a)) := by
  induction pairs with
  | nil => cases member
  | @cons b s l each related pairs ih =>
      obtain ⟨fresh, distinct⟩ := List.nodup_cons.mp distinct
      have others : ∀ c ∈ l, ∀ t, R c t → All (fun _ op => op.table = key c) t :=
        fun c inside => own c (by simp [inside])
      change R a ((s ++ concat each).on (key a))
      rw [on_append]
      rcases List.mem_cons.mp member with same | later
      · subst same
        rw [on_own _ s (own a (by simp) s related),
          on_concat_absent (key a) key R l each pairs others fresh, append_empty]
        exact related
      · have different : key b ≠ key a := fun same =>
          fresh (List.mem_map.mpr ⟨a, later, same.symm⟩)
        have gone : s.on (key a) = {} := on_other _ s (all_mono _ _ s (own b (by simp) s related)
          fun _ op named same => different (named.symm.trans same))
        rw [gone, empty_append]
        exact ih others distinct later

end Concat

end SchemaDrift
