import Mathlib.Data.Fintype.Card
import Mathlib.Logic.Relation
import Mathlib.Order.WellFounded
import SchemaDrift.Proofs.Plan.Creation
/-!
Which foreign keys have to wait until all new tables are created. The references between the new
tables are a graph; a pass that creates nothing has met one of its cycles, and the foreign keys that
are split out then lead to a cycle, though not always to one that they are part of.
-/

set_option autoImplicit false

namespace SchemaDrift

open CreationOrder Relation

namespace CreationOrder

def Needs (tables : List Table) (a b : String) : Prop :=
  a ≠ b ∧ b ∈ tables.map Table.name ∧
    ∃ t ∈ tables, t.name = a ∧ ∃ c ∈ t.constraints, ∃ r, c.reference? = some r ∧ r.table = b

def Acyclic (tables : List Table) : Prop := ∀ a, ¬TransGen (Needs tables) a a

def LeadsToCycle (tables : List Table) (a : String) : Prop :=
  ∃ b, ReflTransGen (Needs tables) a b ∧ TransGen (Needs tables) b b

def AddsKey (tables : List Table) (target : String → String → Prop) (op : Operation) : Prop :=
  ∃ t ∈ tables, ∃ c ∈ t.foreignKeys, ∃ r, op = .addConstraint t.name c ∧ c.reference? = some r ∧
    target t.name r.table

-- The rounds of the loop: a pass creates the tables that are not blocked, and where it creates none
-- the first of them is created without the foreign keys that block it.
inductive Rounds (new : List String) : List String → List Table → CreationOrder → Nat → Prop
  | finished (created : List String) : Rounds new created [] {} 0
  | placing (created : List String) (tables placed waiting : List Table) (order : CreationOrder)
      (rounds : Nat) (passed : pass new created tables = (placed, waiting)) (moved : placed ≠ [])
      (rest : Rounds new ((placed.map Table.name).reverse ++ created) waiting order rounds) :
      Rounds new created tables
        { tables := placed ++ order.tables, deferred := order.deferred } (rounds + 1)
  | stalled (created : List String) (tables waiting : List Table) (table : Table)
      (order : CreationOrder) (rounds : Nat) (passed : pass new created tables = ([], table :: waiting))
      (rest : Rounds new (table.name :: created) waiting order rounds) :
      Rounds new created tables
        { tables := without table (blocking (pendingIn new created) table) :: order.tables
          deferred := (blocking (pendingIn new created) table).map (.addConstraint table.name)
            ++ order.deferred } (rounds + 1)

-- A table as it is created, and the operations that add the foreign keys that it had to leave out.
structure SplitInto (table created : Table) (ops : List Operation) : Prop where
  unchanged : created = { table with constraints := created.constraints }
  others : created.constraints.filter (!·.isForeignKey) = table.constraints.filter (!·.isForeignKey)
  keys : ∃ split, ops = split.map (.addConstraint table.name) ∧
    (created.foreignKeys ++ split).Perm table.foreignKeys

structure Correct (tables : List Table) (order : CreationOrder) : Prop where
  terminates : ∃ rounds ≤ tables.length, Rounds (tables.map Table.name) [] tables order rounds
  names : (order.tables.map Table.name).Perm (tables.map Table.name)
  backward : ∀ front table back, order.tables = front ++ table :: back →
    ∀ c ∈ table.constraints, ∀ r, c.reference? = some r → r.table = table.name ∨
      r.table ∉ tables.map Table.name ∨ r.table ∈ front.map Table.name
  split : ∀ table ∈ tables, ∃ created ∈ order.tables,
    SplitInto table created (order.deferred.filter (·.table = table.name))
  foreign : ∀ op ∈ order.deferred, AddsKey tables (fun _ _ => True) op
  acyclic : Acyclic tables → order.deferred = []

end CreationOrder

/-! ### Cycles -/

theorem leads_on (tables : List Table) (a : String) (leads : LeadsToCycle tables a) :
    ∃ b, Needs tables a b ∧ LeadsToCycle tables b := by
  obtain ⟨c, path, cycle⟩ := leads
  rcases path.cases_head with same | ⟨b, needs, onward⟩
  · subst same
    obtain ⟨b, needs, back⟩ := TransGen.head'_iff.mp cycle
    exact ⟨b, needs, a, back, cycle⟩
  · exact ⟨b, needs, c, onward, cycle⟩

theorem cycle_of_onward {α : Type} [Finite α] [Nonempty α] (After : α → α → Prop)
    (transitive : ∀ a b c, After a b → After b c → After a c) (onward : ∀ a, ∃ b, After a b) :
    ∃ a, After a a := by
  by_contra free
  have : IsTrans α fun a b => After b a := ⟨fun a b c first second => transitive c b a second first⟩
  have : Std.Irrefl fun a b => After b a := ⟨fun a cycle => free ⟨a, cycle⟩⟩
  have founded : WellFounded fun a b => After b a := Finite.wellFounded_of_trans_of_irrefl _
  obtain ⟨last, _, none⟩ := founded.has_min Set.univ Set.univ_nonempty
  obtain ⟨next, after⟩ := onward last
  exact none next trivial after

-- Among finitely many tables each of which needs another of them, every way ends in a cycle: it is
-- found among the tables that are reached.
theorem all_lead_to_cycle (tables : List Table) (names : List String)
    (onward : ∀ a ∈ names, ∃ b ∈ names, Needs tables a b) (a : String) (member : a ∈ names) :
    LeadsToCycle tables a := by
  have : Nonempty { x : { name // name ∈ names } // ReflTransGen (Needs tables) a x.1 } :=
    ⟨⟨⟨a, member⟩, .refl⟩⟩
  obtain ⟨x, cycle⟩ := cycle_of_onward
    (fun x y : { x : { name // name ∈ names } // ReflTransGen (Needs tables) a x.1 } =>
      TransGen (Needs tables) x.1.1 y.1.1)
    (fun _ _ _ first second => first.trans second)
    fun x => by
      obtain ⟨next, inside, needs⟩ := onward x.1.1 x.1.2
      exact ⟨⟨⟨next, inside⟩, x.2.tail needs⟩, .single needs⟩
  exact ⟨x.1.1, x.2, cycle⟩

theorem acyclic_leads_nowhere (tables : List Table) (acyclic : Acyclic tables) (a : String) :
    ¬LeadsToCycle tables a := by
  rintro ⟨b, _, cycle⟩
  exact acyclic b cycle

/-! ### Rounds -/

theorem of_remaining_rounds (new created : List String) (tables : List Table) :
    ∃ rounds ≤ tables.length, Rounds new created tables (ofRemaining new created tables) rounds := by
  fun_induction ofRemaining new created tables with
  | case1 created tables placed passed =>
      have lengths := pass_length new created tables
      rw [passed] at lengths
      cases placed with
      | nil =>
          cases tables with
          | nil => exact ⟨0, le_refl _, .finished created⟩
          | cons => simp at lengths
      | cons first placed =>
          refine ⟨1, ?_, ?_⟩
          · simp only [List.length_cons] at lengths
            omega
          · simpa using Rounds.placing created tables (first :: placed) [] {} 0 passed (by simp)
              (.finished _)
  | case2 created tables table waiting passed split order ih =>
      obtain ⟨rounds, bound, rest⟩ := ih
      have lengths := pass_length new created tables
      rw [passed] at lengths
      simp only [List.length_cons, List.length_nil] at lengths
      exact ⟨rounds + 1, by omega, .stalled created tables waiting table order rounds passed rest⟩
  | case3 created tables first placed waiting _ passed names order ih =>
      obtain ⟨rounds, bound, rest⟩ := ih
      have lengths := pass_length new created tables
      rw [passed] at lengths
      simp only [List.length_cons] at lengths
      exact ⟨rounds + 1, by omega,
        .placing created tables (first :: placed) waiting order rounds passed (by simp) rest⟩

theorem stalled_pass (new created : List String) (tables waiting : List Table)
    (passed : pass new created tables = ([], waiting)) :
    waiting = tables ∧ ∀ t ∈ tables, isBlocked (pendingIn new created) t = true := by
  induction tables generalizing waiting with
  | nil =>
      cases passed
      exact ⟨rfl, by simp⟩
  | cons table tables ih =>
      unfold CreationOrder.pass at passed
      by_cases waits : isBlocked (pendingIn new created) table = true
      · rw [if_pos waits] at passed
        obtain ⟨nothing, rfl⟩ := Prod.mk.inj passed
        obtain ⟨same, blocked⟩ := ih (pass new created tables).2 (Prod.ext nothing rfl)
        refine ⟨by rw [same], fun t member => ?_⟩
        rcases List.mem_cons.mp member with rfl | later
        · exact waits
        · exact blocked t later
      · rw [if_neg waits] at passed
        simp at passed

theorem pending_iff (new created : List String) (name : String) :
    pendingIn new created name = true ↔ name ∈ new ∧ name ∉ created := by
  simp [pendingIn]

def Covers (new created : List String) (tables : List Table) : Prop :=
  ∀ name ∈ new, name ∈ created ∨ name ∈ tables.map Table.name

theorem covers_placed (new created : List String) (tables placed waiting : List Table)
    (covers : Covers new created tables) (passed : pass new created tables = (placed, waiting)) :
    Covers new ((placed.map Table.name).reverse ++ created) waiting := by
  intro name member
  have perm := (pass_perm new created tables).map Table.name
  rw [passed, List.map_append] at perm
  rcases covers name member with before | remaining
  · exact .inl (List.mem_append_right _ before)
  · rcases List.mem_append.mp (perm.mem_iff.mpr remaining) with now | later
    · exact .inl (List.mem_append_left _ (List.mem_reverse.mpr now))
    · exact .inr later

section Rounds

variable (all : List Table)

theorem needs_of_blocks (created : List String) (t : Table) (c : Constraint) (member : t ∈ all)
    (own : c ∈ t.constraints)
    (blocked : blocks (pendingIn (all.map Table.name) created) t c = true) :
    ∃ r, c.reference? = some r ∧ Needs all t.name r.table ∧ r.table ∉ created := by
  obtain ⟨r, points, other, pending⟩ := (blocks_iff _ t c).mp blocked
  obtain ⟨fresh, free⟩ := (pending_iff _ _ _).mp pending
  exact ⟨r, points, ⟨other.symm, fresh, t, member, rfl, c, own, r, points, rfl⟩, free⟩

theorem stalled_leads_to_cycle (created : List String) (tables waiting : List Table)
    (within : tables ⊆ all) (covers : Covers (all.map Table.name) created tables)
    (passed : pass (all.map Table.name) created tables = ([], waiting)) (name : String)
    (remaining : name ∈ tables.map Table.name) : LeadsToCycle all name := by
  refine all_lead_to_cycle all (tables.map Table.name) (fun a member => ?_) name remaining
  obtain ⟨t, inside, rfl⟩ := List.mem_map.mp member
  obtain ⟨c, key, blocked⟩ :=
    List.any_eq_true.mp ((stalled_pass _ created tables waiting passed).2 t inside)
  obtain ⟨r, _, needs, free⟩ :=
    needs_of_blocks all created t c (within inside) (List.mem_filter.mp key).1 blocked
  exact ⟨r.table, (covers r.table needs.2.1).resolve_left free, needs⟩

theorem rounds_deferred (created : List String) (tables : List Table) (order : CreationOrder)
    (n : Nat) (rounds : Rounds (all.map Table.name) created tables order n) (within : tables ⊆ all)
    (covers : Covers (all.map Table.name) created tables) :
    ∀ op ∈ order.deferred,
      AddsKey all (fun own target => Needs all own target ∧ LeadsToCycle all target) op := by
  induction rounds with
  | finished => simp
  | placing created tables placed waiting order n passed _ _ ih =>
      have perm := pass_perm (all.map Table.name) created tables
      rw [passed] at perm
      exact ih (fun t member => within (perm.subset (List.mem_append_right _ member)))
        (covers_placed _ created tables placed waiting covers passed)
  | stalled created tables waiting table order n passed _ ih =>
      have whole := (stalled_pass _ created tables _ passed).1
      have inside : table ∈ tables := whole ▸ List.mem_cons_self
      intro op member
      rcases List.mem_append.mp member with now | later
      · obtain ⟨c, split, rfl⟩ := List.mem_map.mp now
        obtain ⟨key, blocked⟩ := List.mem_filter.mp split
        obtain ⟨r, points, needs, free⟩ := needs_of_blocks all created table c (within inside)
          (List.mem_filter.mp key).1 blocked
        have remaining := (covers r.table needs.2.1).resolve_left free
        exact ⟨table, within inside, c, key, r, rfl, points, needs,
          stalled_leads_to_cycle all created tables _ within covers passed r.table remaining⟩
      · refine ih (fun t there => within (whole ▸ List.mem_cons_of_mem _ there)) ?_ op later
        intro name fresh
        rcases covers name fresh with before | remaining
        · exact .inl (List.mem_cons_of_mem _ before)
        · rw [← whole] at remaining
          rcases List.mem_cons.mp remaining with same | later
          · exact .inl (same ▸ List.mem_cons_self)
          · exact .inr later

theorem creation_order_deferred : ∀ op ∈ (creationOrder all).deferred,
    AddsKey all (fun own target => Needs all own target ∧ LeadsToCycle all target) op := by
  obtain ⟨n, _, rounds⟩ := of_remaining_rounds (all.map Table.name) [] all
  exact rounds_deferred all [] all _ n rounds (List.Subset.refl _) fun name member => .inr member

end Rounds

/-! ### The whole order -/

theorem split_into (pending : String → Bool) (table : Table) :
    SplitInto table (without table (blocking pending table)) (Diff.deferred pending table) where
  unchanged := rfl
  others := by
    rw [without_blocking, List.filter_filter]
    refine List.filter_congr fun c _ => ?_
    cases blocked : blocks pending table c with
    | false => simp
    | true =>
        obtain ⟨r, points, _⟩ := (blocks_iff pending table c).mp blocked
        simp [Constraint.isForeignKey, points]
  keys := by
    refine ⟨blocking pending table, rfl, ?_⟩
    have kept : (without table (blocking pending table)).foreignKeys
        = table.foreignKeys.filter (!blocks pending table ·) := by
      rw [Table.foreignKeys, without_blocking, Table.foreignKeys, List.filter_filter,
        List.filter_filter]
      exact List.filter_congr fun c _ => Bool.and_comm _ _
    rw [kept]
    exact List.perm_append_comm.trans (List.filter_append_perm _ _)

-- Every table once and after those that it points at, but for foreign keys that wait, and none waits
-- where the references form no cycle.
theorem creation_order_correct (tables : List Table) (distinct : (tables.map Table.name).Nodup) :
    Correct tables (creationOrder tables) := by
  obtain ⟨turns, arranged⟩ := of_remaining_arranged (tables.map Table.name) [] tables
  have placed : (creationOrder tables).tables = turns.map Diff.placed := arranged.placed
  have names : (turns.map fun turn => turn.1.name).Perm (tables.map Table.name) := by
    have mapped := arranged.perm.map Table.name
    rwa [List.map_map] at mapped
  constructor
  case terminates => exact of_remaining_rounds _ [] tables
  case names =>
    rw [placed, List.map_map]
    exact names
  case backward =>
    intro front table back parts c member r points
    by_cases fresh : r.table ∈ tables.map Table.name
    · have respected : Respected (tables.map Table.name) [] (front ++ table :: back) :=
        parts ▸ arranged.respected
      rcases respected_split _ [] front back table respected c r member points fresh with
        own | before | between
      · exact .inl own
      · cases before
      · exact .inr (.inr between)
    · exact .inr (.inl fresh)
  case split =>
    intro table member
    obtain ⟨turn, inside, rfl⟩ := List.mem_map.mp (arranged.perm.symm.subset member)
    refine ⟨Diff.placed turn, placed ▸ List.mem_map_of_mem inside, ?_⟩
    have own : (creationOrder tables).deferred.filter (·.table = turn.1.name)
        = Diff.deferred turn.2 turn.1 := by
      have deferred : (creationOrder tables).deferred
          = turns.flatMap fun turn => Diff.deferred turn.2 turn.1 := arranged.deferred
      rw [deferred]
      exact deferred_on turns (names.nodup_iff.mpr distinct) turn inside
    rw [own]
    exact split_into turn.2 turn.1
  case foreign =>
    intro op member
    obtain ⟨t, inside, c, key, r, same, points, _⟩ := creation_order_deferred tables op member
    exact ⟨t, inside, c, key, r, same, points, trivial⟩
  case acyclic =>
    intro acyclic
    refine List.eq_nil_iff_forall_not_mem.mpr fun op member => ?_
    obtain ⟨_, _, _, _, r, _, _, _, leads⟩ := creation_order_deferred tables op member
    exact acyclic_leads_nowhere tables acyclic r.table leads

-- A table that points at one of two that point at each other, and comes before them.
def Shop.complaint : Table where
  name := "complaint"
  columns := [number "id", number "receipt"]
  primaryKey := some (.primaryKey ["id"])
  constraints := [pointer "receipt" "receipt"]
  ordinal := 0

def Shop.fresh : List Table := [complaint, purchase, receipt]

theorem shop_order_correct : (Shop.fresh.map Table.name).Nodup ∧
    Correct Shop.fresh (creationOrder Shop.fresh) ∧
    (creationOrder Shop.fresh).tables.map Table.name = ["complaint", "purchase", "receipt"] :=
  ⟨by decide, creation_order_correct Shop.fresh (by decide), by decide +kernel⟩

/-! ### Foreign keys that wait and are on no cycle -/

section Bystander

variable (all : List Table) (distinct : (all.map Table.name).Nodup)

include distinct

theorem placed_leads_nowhere (created : List String) (placed : List Table)
    (respected : Respected (all.map Table.name) created placed) (within : placed ⊆ all)
    (free : ∀ name ∈ created, ¬LeadsToCycle all name) :
    ∀ t ∈ placed, ¬LeadsToCycle all t.name := by
  induction placed generalizing created with
  | nil => simp
  | cons first placed ih =>
      have firstFree : ¬LeadsToCycle all first.name := by
        intro leads
        obtain ⟨b, ⟨other, fresh, t, inside, named, c, own, r, points, target⟩, onward⟩ :=
          leads_on all first.name leads
        have same : t = first :=
          List.inj_on_of_nodup_map distinct inside (within List.mem_cons_self) named
        subst same target
        rcases respected.1 c own r points fresh with itself | before
        · exact other itself.symm
        · exact free r.table before onward
      intro t member
      rcases List.mem_cons.mp member with rfl | later
      · exact firstFree
      · refine ih (first.name :: created) respected.2
          (fun u there => within (List.mem_cons_of_mem _ there)) (fun name before => ?_) t later
        rcases List.mem_cons.mp before with rfl | earlier
        · exact firstFree
        · exact free name earlier

theorem first_is_split (created : List String) (t : Table) (rest : List Table)
    (order : CreationOrder) (n : Nat)
    (rounds : Rounds (all.map Table.name) created (t :: rest) order n) (within : t :: rest ⊆ all)
    (free : ∀ name ∈ created, ¬LeadsToCycle all name) (c : Constraint) (r : Reference)
    (key : c ∈ t.foreignKeys) (points : c.reference? = some r) (needs : Needs all t.name r.table)
    (leads : LeadsToCycle all r.table) : .addConstraint t.name c ∈ order.deferred := by
  have blocked (created : List String) (free : ∀ name ∈ created, ¬LeadsToCycle all name) :
      blocks (pendingIn (all.map Table.name) created) t c = true :=
    (blocks_iff _ t c).mpr ⟨r, points, needs.1.symm,
      (pending_iff _ _ _).mpr ⟨needs.2.1, fun before => free r.table before leads⟩⟩
  generalize start : t :: rest = tables at rounds
  induction rounds generalizing rest with
  | finished => cases start
  | placing created tables placed waiting order n passed _ _ ih =>
      subst start
      have perm := pass_perm (all.map Table.name) created (t :: rest)
      have respected := pass_respected (all.map Table.name) created (t :: rest)
      rw [passed] at perm respected
      have waits : isBlocked (pendingIn (all.map Table.name) created) t = true :=
        List.any_eq_true.mpr ⟨c, key, blocked created free⟩
      rw [CreationOrder.pass, if_pos waits] at passed
      obtain ⟨_, rfl⟩ := Prod.mk.inj passed
      refine ih _ (fun u there => within (perm.subset (List.mem_append_right _ there)))
        (fun name before => ?_) rfl
      rcases List.mem_append.mp before with now | earlier
      · obtain ⟨u, there, rfl⟩ := List.mem_map.mp (List.mem_reverse.mp now)
        exact placed_leads_nowhere all distinct created placed respected
          (fun u there => within (perm.subset (List.mem_append_left _ there))) free u there
      · exact free name earlier
  | stalled created tables waiting table order n passed _ _ =>
      have whole := (stalled_pass _ created tables _ passed).1
      rw [← start] at whole
      obtain ⟨rfl, _⟩ := List.cons.inj whole
      exact List.mem_append_left _
        (List.mem_map.mpr ⟨c, List.mem_filter.mpr ⟨key, blocked created free⟩, rfl⟩)

end Bystander

theorem needs_perm (tables others : List Table) (perm : others.Perm tables) :
    Needs others = Needs tables := by
  funext a b
  simp only [Needs, perm.mem_iff, (perm.map Table.name).mem_iff]

theorem leads_perm (tables others : List Table) (perm : others.Perm tables) :
    LeadsToCycle others = LeadsToCycle tables := by
  funext a
  rw [LeadsToCycle, LeadsToCycle, needs_perm tables others perm]

-- Each foreign key that waits leads to a cycle. That it is part of one, in whatever order the tables
-- are given, holds exactly where all foreign keys that lead to a cycle are part of one.
theorem deferred_keys_lead_to_cycles (tables : List Table)
    (distinct : (tables.map Table.name).Nodup) :
    (∀ op ∈ (creationOrder tables).deferred,
      AddsKey tables (fun own target => Needs tables own target ∧ LeadsToCycle tables target) op) ∧
    ((∀ others, others.Perm tables → ∀ op ∈ (creationOrder others).deferred,
        AddsKey tables (fun own target => ReflTransGen (Needs tables) target own) op) ↔
      ∀ a b, Needs tables a b → LeadsToCycle tables b → ReflTransGen (Needs tables) b a) := by
  refine ⟨creation_order_deferred tables, fun always a b needs leads => ?_,
    fun always others perm op member => ?_⟩
  · have whole := needs
    obtain ⟨other, fresh, t, inside, rfl, c, own, r, points, rfl⟩ := needs
    have perm : (t :: tables.erase t).Perm tables := (List.perm_cons_erase inside).symm
    have key : c ∈ t.foreignKeys :=
      List.mem_filter.mpr ⟨own, by simp [Constraint.isForeignKey, points]⟩
    obtain ⟨n, _, rounds⟩ := of_remaining_rounds ((t :: tables.erase t).map Table.name) []
      (t :: tables.erase t)
    have split := first_is_split (t :: tables.erase t)
      ((perm.map Table.name).nodup_iff.mpr distinct) [] t (tables.erase t) _ n rounds
      (List.Subset.refl _) (by simp) c r key points (by rwa [needs_perm tables _ perm])
      (by rwa [leads_perm tables _ perm])
    obtain ⟨u, _, d, _, s, same, pointed, back⟩ := always _ perm _ split
    obtain ⟨named, rfl⟩ := Operation.addConstraint.inj same
    cases points.symm.trans pointed
    rwa [named]
  · obtain ⟨t, inside, c, key, r, same, points, needs, leads⟩ :=
      creation_order_deferred others op member
    rw [needs_perm tables others perm] at needs
    rw [leads_perm tables others perm] at leads
    exact ⟨t, perm.subset inside, c, key, r, same, points, always t.name r.table needs leads⟩

-- Purchases and receipts point at each other, and complaints only point at receipts.
theorem complaint_waits : .addConstraint "complaint" (Shop.pointer "receipt" "receipt")
    ∈ (creationOrder Shop.fresh).deferred := by
  decide +kernel

theorem shop_keys_lead_to_cycles : (Shop.fresh.map Table.name).Nodup ∧
    .addConstraint "complaint" (Shop.pointer "receipt" "receipt")
      ∈ (creationOrder Shop.fresh).deferred ∧
    LeadsToCycle Shop.fresh "receipt" := by
  refine ⟨by decide, complaint_waits, ?_⟩
  obtain ⟨_, _, c, _, r, same, points, _, leads⟩ :=
    (deferred_keys_lead_to_cycles Shop.fresh (by decide)).1 _ complaint_waits
  obtain ⟨_, rfl⟩ := Operation.addConstraint.inj same
  cases points
  exact leads

theorem bystander_waits :
    ¬∀ tables : List Table, (tables.map Table.name).Nodup → ∀ op ∈ (creationOrder tables).deferred,
      AddsKey tables (fun own target => ReflTransGen (Needs tables) target own) op := by
  intro always
  obtain ⟨t, _, c, _, r, same, points, back⟩ := always Shop.fresh (by decide) _ complaint_waits
  obtain ⟨named, rfl⟩ := Operation.addConstraint.inj same
  cases points
  rw [← named] at back
  have unneeded : ∀ u ∈ Shop.fresh, ∀ d ∈ u.constraints,
      d.reference?.all (·.table ≠ "complaint") = true := by decide
  rcases back.cases_tail with equal | ⟨_, _, _, _, u, inside, _, d, own, s, pointed, target⟩
  · revert equal
    decide
  · have other := unneeded u inside d own
    simp [pointed, target] at other

end SchemaDrift
