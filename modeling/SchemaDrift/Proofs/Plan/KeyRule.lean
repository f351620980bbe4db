import SchemaDrift.Proofs.Plan.KeyLoss
import SchemaDrift.Proofs.Schema.KeyChange
/-!
Foreign keys that lose the key they point at. An operation that introduces a foreign key is refused
where there is no such key, and no other operation looks at it again. Whatever else happens to the
target, its key goes only where a primary key, a unique constraint or a unique index is dropped, and
comes back only where one is added.
-/

set_option autoImplicit false

namespace SchemaDrift

def Schema.References (schema : Schema) (r : Reference) : Prop :=
  ∃ t ∈ schema.tables, ∃ c ∈ t.constraints, c.reference? = some r

def Operation.GivesKey (op : Operation) (r : Reference) : Prop :=
  op.table = r.table ∧ ∃ key ∈ op.givenKeys, sameMembers key r.columns = true

-- The operation drops such a key and leaves the target no other.
structure Schema.LosesKey (schema : Schema) (op : Operation) (r : Reference) : Prop where
  target : op.table = r.table
  taken : ∃ key ∈ schema.takenKeys op, sameMembers key r.columns = true
  left : ∀ key ∈ (schema.keysOf r.table).diff (schema.takenKeys op),
    sameMembers key r.columns = false

-- Some operation takes the key, and none after it gives one back.
def Schema.KeyTaken (schema : Schema) (rules : ApplyRules) (ops : List Operation)
    (r : Reference) : Prop :=
  ∃ front op back before, ops = front ++ op :: back ∧ schema.apply rules front = .ok before ∧
    before.LosesKey op r ∧ ∀ later ∈ back, ¬later.GivesKey r

theorem unkeyed_iff (schema : Schema) (r : Reference) : schema.isKeyed r = false ↔
    ∀ key ∈ schema.keysOf r.table, sameMembers key r.columns = false := by
  rw [← Bool.not_eq_true, keyed_iff]
  simp

theorem taken_stays (schema : Schema) (op : Operation) (key : List String)
    (taken : key ∈ schema.takenKeys op) : op ≠ .dropTable op.table ∧ op.givenKeys = [] := by
  unfold Schema.takenKeys at taken
  cases found : schema.table? op.table with
  | none => simp [found] at taken
  | some t =>
      rw [found, Option.map_some, Option.getD_some] at taken
      cases op <;> simp_all [Table.takenKeys, Operation.givenKeys]

/-! ### One operation -/

section Step

variable (rules : ApplyRules) (schema next : Schema) (op : Operation) (r : Reference)
  (applied : schema.applyOne rules op = .ok next)

include applied

theorem reference_step (points : next.References r) :
    schema.References r ∨ next.isKeyed r = true := by
  obtain ⟨draft, redrafts, built, keyed⟩ := apply_one_redrafts rules schema next op applied
  obtain ⟨t, member, c, own, pointed⟩ := points
  obtain ⟨d, inside, _, n, rfl⟩ := built_mem draft next built t member
  have old (e : TableDraft) (present : e ∈ schema.toDraft.tables) (listed : c ∈ e.constraints) :
      schema.References r := by
    obtain ⟨s, found, rfl⟩ := List.mem_map.mp present
    exact ⟨s, found, c, listed, pointed⟩
  cases redrafts with
  | create table =>
      rcases List.mem_append.mp inside with before | new
      · exact .inl (old d before own)
      · rw [List.mem_singleton.mp new] at own
        have foreign : c ∈ table.foreignKeys :=
          List.mem_filter.mpr ⟨own, by simp [Constraint.isForeignKey, pointed]⟩
        exact .inr (keyed r (List.mem_filterMap.mpr ⟨c, foreign, pointed⟩))
  | drop name => exact .inl (old d (List.mem_filter.mp inside).1 own)
  | change _ table changed _ found changes =>
      rcases replace_first_mem _ _ _ _ inside with same | before
      · subst same
        have kept (listed : c ∈ table.constraints) : schema.References r :=
          ⟨table, (table_found schema _ table found).1, c, listed, pointed⟩
        cases changes with
        | addConstraint _ e other =>
            rcases List.mem_append.mp own with listed | new
            · exact .inl (kept listed)
            · rw [List.mem_singleton] at new
              exact .inr (keyed r (by simp [Operation.newReferences, ← new, pointed]))
        | dropConstraint _ _ _ _ erased =>
            exact .inl (kept ((erase_first_sublist _ _ _ erased).subset own))
        | _ => exact .inl (kept own)
      · exact .inl (old d before own)

theorem keys_left (key : List String) (taken : key ∈ schema.takenKeys op) :
    (next.keysOf op.table).Perm ((schema.keysOf op.table).diff (schema.takenKeys op)) := by
  obtain ⟨stays, nothing⟩ := taken_stays schema op key taken
  have balance := keys_balance rules schema next op applied stays
  rw [nothing, List.append_nil] at balance
  rw [List.perm_iff_count]
  intro other
  rw [List.count_diff, ← balance.count_eq, List.count_append, Nat.add_sub_cancel_left]

theorem loss_unkeyed (loses : schema.LosesKey op r) : next.isKeyed r = false := by
  obtain ⟨target, ⟨key, taken, _⟩, left⟩ := loses
  rw [unkeyed_iff]
  rw [← target] at left ⊢
  exact fun other member =>
    left other ((keys_left rules schema next op applied key taken).mem_iff.mp member)

theorem unkeyed_step (unkeyed : schema.isKeyed r = false) (gives : ¬op.GivesKey r) :
    next.isKeyed r = false := by
  rw [unkeyed_iff] at unkeyed ⊢
  by_cases target : op.table = r.table
  · by_cases gone : op = .dropTable op.table
    · have missing := dropped_table_gone rules schema next op applied op.table gone
      rw [← target, Schema.keysOf, missing]
      exact List.forall_mem_nil _
    · intro key member
      rw [← target] at member unkeyed
      have balance := keys_balance rules schema next op applied gone
      rcases List.mem_append.mp (balance.subset (List.mem_append_right _ member)) with old | new
      · exact unkeyed key old
      · by_contra same
        exact gives ⟨target, key, new, by simpa using same⟩
  · rw [keys_apart rules schema next op applied r.table target]
    exact unkeyed

theorem given_keyed (gives : op.GivesKey r) : next.isKeyed r = true := by
  obtain ⟨target, key, given, same⟩ := gives
  have stays : op ≠ .dropTable op.table := by
    intro drops
    rw [drops] at given
    cases given
  have untaken : schema.takenKeys op = [] := by
    refine List.eq_nil_iff_forall_not_mem.mpr fun other taken => ?_
    rw [(taken_stays schema op other taken).2] at given
    cases given
  have balance := keys_balance rules schema next op applied stays
  rw [untaken, List.nil_append] at balance
  exact (keyed_iff next r).mpr
    ⟨key, target ▸ balance.mem_iff.mpr (List.mem_append_right _ given), same⟩

theorem key_step (keyed : schema.isKeyed r = true) (resolves : next.Resolves r)
    (unkeyed : next.isKeyed r = false) : schema.LosesKey op r := by
  rw [keyed_iff] at keyed
  rw [unkeyed_iff] at unkeyed
  obtain ⟨key, before, same⟩ := keyed
  have lost : key ∉ next.keysOf r.table := fun kept => by simp [unkeyed key kept] at same
  have target : op.table = r.table := by
    by_contra apart
    rw [keys_apart rules schema next op applied r.table apart] at lost
    exact lost before
  have stays : op ≠ .dropTable op.table := by
    intro drops
    obtain ⟨t, there, _⟩ := resolves
    rw [← target, dropped_table_gone rules schema next op applied op.table drops] at there
    cases there
  have balance := keys_balance rules schema next op applied stays
  rw [target] at balance
  have taken : key ∈ schema.takenKeys op :=
    (List.mem_append.mp (balance.symm.subset (List.mem_append_left _ before))).resolve_right lost
  refine ⟨target, ⟨key, taken, same⟩, fun other member => unkeyed other ?_⟩
  rw [← target] at member ⊢
  exact (keys_left rules schema next op applied key taken).mem_iff.mpr member

end Step

/-! ### Runs of operations -/

theorem unkeyed_stays (schema result : Schema) (rules : ApplyRules) (ops : List Operation)
    (r : Reference) (applied : schema.apply rules ops = .ok result)
    (unkeyed : schema.isKeyed r = false) (gives : ∀ op ∈ ops, ¬op.GivesKey r) :
    result.isKeyed r = false := by
  induction ops generalizing schema with
  | nil =>
      cases applied
      exact unkeyed
  | cons op ops ih =>
      obtain ⟨next, first, others⟩ := (apply_cons_ok _ _ _ _ _).mp applied
      obtain ⟨own, rest⟩ := List.forall_mem_cons.mp gives
      exact ih next others (unkeyed_step rules schema next op r first unkeyed own) rest

theorem unkeyed_run (schema result : Schema) (rules : ApplyRules) (ops : List Operation)
    (r : Reference) (applied : schema.apply rules ops = .ok result) (points : result.References r)
    (unkeyed : result.isKeyed r = false) :
    (schema.References r ∧ schema.isKeyed r = false ∧ ∀ op ∈ ops, ¬op.GivesKey r) ∨
      schema.KeyTaken rules ops r := by
  induction ops generalizing schema with
  | nil =>
      cases applied
      exact .inl ⟨points, unkeyed, List.forall_mem_nil _⟩
  | cons op ops ih =>
      obtain ⟨next, first, others⟩ := (apply_cons_ok _ _ _ _ _).mp applied
      rcases ih next others with ⟨pointed, lost, silent⟩ | taken
      · have old : schema.References r :=
          (reference_step rules schema next op r first pointed).resolve_right (by simp [lost])
        cases keyed : schema.isKeyed r with
        | false =>
            refine .inl ⟨old, rfl, List.forall_mem_cons.mpr ⟨fun gives => ?_, silent⟩⟩
            rw [given_keyed rules schema next op r first gives] at lost
            cases lost
        | true =>
            obtain ⟨draft, _, built, _⟩ := apply_one_redrafts rules schema next op first
            obtain ⟨_, _, _, resolved⟩ := (schema_build_ok draft next).mp built
            obtain ⟨t, member, c, own, pointing⟩ := pointed
            exact .inr ⟨[], op, ops, schema, rfl, rfl, key_step rules schema next op r first keyed
              (resolved t member c own r pointing) lost, silent⟩
      · obtain ⟨front, o, back, before, parts, reached, rest⟩ := taken
        exact .inr ⟨op :: front, o, back, before, by rw [parts]; rfl,
          (apply_cons_ok _ _ _ _ _).mpr ⟨next, first, reached⟩, rest⟩

-- A foreign key of the schema that is reached points at no key exactly when an operation took the
-- key away and none has restored it.
theorem unkeyed_iff_key_taken (schema result : Schema) (rules : ApplyRules) (ops : List Operation)
    (keyed : schema.Keyed) (applied : schema.apply rules ops = .ok result) (t : Table)
    (member : t ∈ result.tables) (c : Constraint) (own : c ∈ t.constraints) (r : Reference)
    (points : c.reference? = some r) :
    result.isKeyed r = false ↔ schema.KeyTaken rules ops r := by
  constructor
  · intro unkeyed
    refine (unkeyed_run schema result rules ops r applied ⟨t, member, c, own, points⟩
      unkeyed).resolve_left ?_
    rintro ⟨⟨s, found, d, listed, pointed⟩, lost, _⟩
    rw [keyed s found d listed r pointed] at lost
    cases lost
  · rintro ⟨front, op, back, before, rfl, reached, loses, gives⟩
    obtain ⟨between, begun, rest⟩ := (apply_append_ok _ _ _ _ _).mp applied
    cases reached.symm.trans begun
    obtain ⟨next, first, last⟩ := (apply_cons_ok _ _ _ _ _).mp rest
    exact unkeyed_stays next result rules back r last
      (loss_unkeyed rules before next op r first loses) gives

/-! ### A primary key that is given up while entries point at it -/

namespace Demotion

def pointed : Reference := { table := "account", columns := ["id"] }

def drop : Operation := .dropConstraint "account" (.primaryKey ["id"])

def restore : Operation := .addConstraint "account" (.unique ["id"])

def midway : Schema where
  tables := [Promotion.account none [], Promotion.entry]

end Demotion

theorem demotion_takes_key : Promotion.after.KeyTaken {} [Demotion.drop] Demotion.pointed ∧
    ¬Promotion.after.KeyTaken {} [Demotion.drop, Demotion.restore] Demotion.pointed := by
  have dropped := unkeyed_iff_key_taken Promotion.after Demotion.midway {} [Demotion.drop] (by decide)
    rfl Promotion.entry (by decide) (Shop.pointer "account" "account") (by decide) Demotion.pointed rfl
  have restored := unkeyed_iff_key_taken Promotion.after Promotion.before {}
    [Demotion.drop, Demotion.restore] (by decide) rfl Promotion.entry (by decide)
    (Shop.pointer "account" "account") (by decide) Demotion.pointed rfl
  exact ⟨dropped.mp (by decide), fun taken => absurd (restored.mpr taken) (by decide)⟩

theorem demotion_leaves_unkeyed : Promotion.after.Validated ∧ Promotion.after.Keyed ∧
    Promotion.after.apply {} [Demotion.drop] = .ok Demotion.midway ∧ ¬Demotion.midway.Keyed :=
  ⟨⟨Promotion.after.toDraft, by decide, rfl⟩, by decide, rfl, by decide⟩

end SchemaDrift
