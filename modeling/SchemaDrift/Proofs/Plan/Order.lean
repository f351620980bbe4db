import SchemaDrift.Plan.Order
import SchemaDrift.Proofs.Schema.Shape
/-!
The order of creation: every new table is created once, less the foreign keys that are added
afterwards, and no foreign key that it keeps points at a new table that comes later.
-/

set_option autoImplicit false

namespace SchemaDrift

namespace CreationOrder

-- A foreign key points at its own table, outside the new tables, or at one created before.
def Respected (new created : List String) : List Table → Prop
  | [] => True
  | table :: tables =>
    (∀ c ∈ table.constraints, ∀ r, c.reference? = some r → r.table ∈ new →
      r.table = table.name ∨ r.table ∈ created) ∧ Respected new (table.name :: created) tables

-- Each table with the names that were pending when it was its turn.
structure Arranged (new created : List String) (tables : List Table)
    (turns : List (Table × (String → Bool))) (order : CreationOrder) : Prop where
  placed : order.tables = turns.map fun turn => without turn.1 (blocking turn.2 turn.1)
  deferred : order.deferred = turns.flatMap fun turn =>
    (blocking turn.2 turn.1).map (.addConstraint turn.1.name)
  perm : (turns.map Prod.fst).Perm tables
  respected : Respected new created order.tables

end CreationOrder

open CreationOrder

theorem blocks_iff (pending : String → Bool) (table : Table) (c : Constraint) :
    blocks pending table c = true ↔
      ∃ r, c.reference? = some r ∧ r.table ≠ table.name ∧ pending r.table = true := by
  simp [blocks, Option.any_eq_true]

theorem not_pending (new created : List String) (name : String)
    (free : pendingIn new created name = false) (member : name ∈ new) : name ∈ created := by
  simpa [pendingIn, member] using free

theorem not_blocked (pending : String → Bool) (table : Table) (c : Constraint) (r : Reference)
    (free : blocks pending table c = false) (points : c.reference? = some r) :
    r.table = table.name ∨ pending r.table = false := by
  by_cases own : r.table = table.name
  · exact .inl own
  · right
    by_contra waiting
    have blocked := (blocks_iff pending table c).mpr ⟨r, points, own, by simpa using waiting⟩
    rw [free] at blocked
    cases blocked

-- Leaving out the blocking foreign keys leaves out exactly these: what is structurally equal to
-- one of them points at the same table and blocks too.
theorem without_blocking (pending : String → Bool) (table : Table) :
    (without table (blocking pending table)).constraints
      = table.constraints.filter (!blocks pending table ·) := by
  have alike (c d : Constraint) (same : c.shape = d.shape) (blocked : blocks pending table c = true) :
      blocks pending table d = true := by
    obtain ⟨r, points, other, waiting⟩ := (blocks_iff pending table c).mp blocked
    obtain ⟨s, pointed, target, _⟩ := same_target c d r same points
    exact (blocks_iff pending table d).mpr ⟨s, pointed, target ▸ other, target ▸ waiting⟩
  refine List.filter_congr fun c member => congrArg (! ·) (Bool.eq_iff_iff.mpr ?_)
  rw [List.any_eq_true]
  constructor
  · rintro ⟨split, inside, same⟩
    exact alike split c ((constraint_agree split c).mp same) (List.mem_filter.mp inside).2
  · intro blocked
    obtain ⟨r, points, _⟩ := (blocks_iff pending table c).mp blocked
    refine ⟨c, List.mem_filter.mpr ⟨List.mem_filter.mpr ⟨member, ?_⟩, blocked⟩, ?_⟩
    · simp [Constraint.isForeignKey, points]
    · exact (constraint_agree c c).mpr rfl

theorem blocking_filter (pending : String → Bool) (table : Table) :
    blocking pending table = table.constraints.filter (blocks pending table) := by
  unfold blocking Table.foreignKeys
  rw [List.filter_filter]
  refine List.filter_congr fun c _ => ?_
  cases blocked : blocks pending table c with
  | false => rfl
  | true =>
      obtain ⟨r, points, _⟩ := (blocks_iff pending table c).mp blocked
      simp [Constraint.isForeignKey, points]

theorem blocking_none (table : Table) : blocking (fun _ => false) table = [] := by
  rw [blocking_filter, List.filter_eq_nil_iff]
  intro c _ blocked
  obtain ⟨_, _, _, never⟩ := (blocks_iff _ table c).mp blocked
  cases never

theorem without_none (table : Table) : without table (blocking (fun _ => false) table) = table := by
  rw [blocking_none]
  simp [without, Table.retainConstraints]

theorem respected_append (new created : List String) (front back : List Table)
    (first : Respected new created front)
    (second : Respected new ((front.map Table.name).reverse ++ created) back) :
    Respected new created (front ++ back) := by
  induction front generalizing created with
  | nil => exact second
  | cons table front ih =>
      refine ⟨first.1, ih (table.name :: created) first.2 ?_⟩
      simpa using second

theorem respected_split (new created : List String) (front back : List Table) (table : Table)
    (respected : Respected new created (front ++ table :: back)) (c : Constraint) (r : Reference)
    (member : c ∈ table.constraints) (points : c.reference? = some r) (fresh : r.table ∈ new) :
    r.table = table.name ∨ r.table ∈ created ∨ r.table ∈ front.map Table.name := by
  induction front generalizing created with
  | nil => exact (respected.1 c member r points fresh).imp_right .inl
  | cons first front ih =>
      rcases ih (first.name :: created) respected.2 with own | before | between
      · exact .inl own
      · rcases List.mem_cons.mp before with same | earlier
        · exact .inr (.inr (by simp [same]))
        · exact .inr (.inl earlier)
      · exact .inr (.inr (List.mem_cons_of_mem _ between))

theorem pass_perm (new created : List String) (tables : List Table) :
    ((pass new created tables).1 ++ (pass new created tables).2).Perm tables := by
  induction tables generalizing created with
  | nil => exact .nil
  | cons table tables ih =>
      unfold CreationOrder.pass
      by_cases waits : isBlocked (pendingIn new created) table = true
      · rw [if_pos waits]
        exact List.perm_middle.trans ((ih created).cons table)
      · rw [if_neg waits]
        exact (ih (table.name :: created)).cons table

theorem pass_respected (new created : List String) (tables : List Table) :
    Respected new created (pass new created tables).1 := by
  induction tables generalizing created with
  | nil => trivial
  | cons table tables ih =>
      unfold CreationOrder.pass
      by_cases free : isBlocked (pendingIn new created) table = true
      · rw [if_pos free]
        exact ih created
      · rw [if_neg free]
        refine ⟨fun c member r points fresh => ?_, ih (table.name :: created)⟩
        have key : c ∈ table.foreignKeys :=
          List.mem_filter.mpr ⟨member, by simp [Constraint.isForeignKey, points]⟩
        have unblocked : blocks (pendingIn new created) table c = false := by
          simp only [isBlocked, List.any_eq_true, not_exists, not_and, Bool.not_eq_true] at free
          exact free c key
        exact (not_blocked _ table c r unblocked points).imp_right
          fun free => not_pending new created r.table free fresh

theorem of_remaining_arranged (new created : List String) (tables : List Table) :
    ∃ turns, Arranged new created tables turns (ofRemaining new created tables) := by
  -- The tables of a pass wait for nothing.
  have placed_turns (placed : List Table) :
      (placed.map fun t => (t, fun _ : String => false)).map
        (fun turn => without turn.1 (blocking turn.2 turn.1)) = placed := by
    rw [List.map_map]
    exact (List.map_congr_left fun t _ => without_none t).trans (List.map_id placed)
  have placed_deferred (placed : List Table) :
      (placed.map fun t => (t, fun _ : String => false)).flatMap
        (fun turn => (blocking turn.2 turn.1).map (Operation.addConstraint turn.1.name)) = [] := by
    simp [blocking_none]
  have placed_first (placed : List Table) :
      (placed.map fun t => (t, fun _ : String => false)).map Prod.fst = placed := by
    simp [Function.comp_def]
  fun_induction ofRemaining new created tables with
  | case1 created tables placed passed =>
      have perm := pass_perm new created tables
      have respected := pass_respected new created tables
      rw [passed] at perm respected
      refine ⟨placed.map fun t => (t, fun _ => false), (placed_turns placed).symm,
        (placed_deferred placed).symm, ?_, respected⟩
      rw [placed_first]
      simpa using perm
  | case2 created tables table waiting passed split order ih =>
      obtain ⟨turns, arranged⟩ := ih
      have perm := pass_perm new created tables
      rw [passed] at perm
      refine ⟨(table, pendingIn new created) :: turns, ?_, ?_, ?_, ?_, arranged.respected⟩
      · rw [List.map_cons, arranged.placed]
      · rw [List.flatMap_cons, arranged.deferred]
      · exact (arranged.perm.cons table).trans perm
      · intro c member r points fresh
        rw [without_blocking, List.mem_filter] at member
        exact (not_blocked _ table c r (by simpa using member.2) points).imp_right
          fun free => not_pending new created r.table free fresh
  | case3 created tables first placed waiting _ passed names order ih =>
      obtain ⟨turns, arranged⟩ := ih
      have perm := pass_perm new created tables
      have respected := pass_respected new created tables
      rw [passed] at perm respected
      refine ⟨((first :: placed).map fun t => (t, fun _ => false)) ++ turns, ?_, ?_, ?_, ?_⟩
      · rw [List.map_append, placed_turns, arranged.placed]
      · rw [List.flatMap_append, placed_deferred, List.nil_append, arranged.deferred]
      · rw [List.map_append, placed_first]
        exact (arranged.perm.append_left _).trans perm
      · exact respected_append new created (first :: placed) order.tables respected arranged.respected

end SchemaDrift
