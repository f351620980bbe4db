import SchemaDrift.Proofs.Plan.Cut
/-!
References in the schemas that a plan passes through. Once the additions are done, every table that
is there offers the columns and keys that it has in the source.
-/

set_option autoImplicit false

namespace SchemaDrift

open CreationOrder

def Schema.Keyed (schema : Schema) : Prop :=
  ∀ t ∈ schema.tables, ∀ c ∈ t.constraints, ∀ r, c.reference? = some r → schema.isKeyed r = true

instance (schema : Schema) : Decidable schema.Keyed :=
  decidable_of_iff (∀ t ∈ schema.tables, ∀ c ∈ t.constraints, ∀ r ∈ c.reference?.toList,
      schema.isKeyed r = true) (by simp only [Schema.Keyed, Option.mem_toList])

def Table.Offers (table goal : Table) : Prop :=
  goal.columnNames ⊆ table.columnNames ∧
    ∀ columns, goal.hasKey columns = true → table.hasKey columns = true

theorem offered_reference (source next : Schema) (r : Reference) (resolves : source.Resolves r)
    (keyed : source.isKeyed r = true)
    (offers : ∀ des, source.table? r.table = some des →
      ∃ u, next.table? r.table = some u ∧ u.Offers des) :
    next.Resolves r ∧ next.isKeyed r = true := by
  obtain ⟨des, found, columns⟩ := resolves
  obtain ⟨u, there, names, keys⟩ := offers des found
  rw [Schema.isKeyed, found, Option.any_some] at keyed
  refine ⟨⟨u, there, fun name member => names (columns name member)⟩, ?_⟩
  rw [Schema.isKeyed, there, Option.any_some]
  exact keys r.columns keyed

/-! ### Operations apply where their foreign keys point at keys -/

theorem creation_applies (rules : ApplyRules) (schema : Schema) (t : Table) (wf : schema.WellFormed)
    (tableWf : t.WellFormed) (fresh : schema.hasTable t.name = false)
    (targets : ∀ c ∈ t.constraints, ∀ r, c.reference? = some r →
      (schema.withNew t).Resolves r ∧ (schema.withNew t).isKeyed r = true) :
    schema.applyOne rules (.createTable t) = .ok (schema.withNew t) := by
  refine (apply_one_iff _ schema _ (.createTable t) wf tableWf).mpr ⟨.create t fresh, ?_, ?_⟩
  · intro u inside c own r points
    rcases List.mem_append.mp inside with old | new
    · exact with_new_resolves schema t r (wf.resolved u old c own r points)
    · rw [List.mem_singleton.mp new] at own
      exact (targets c own r points).1
  · intro r new
    obtain ⟨c, own, points⟩ := List.mem_filterMap.mp new
    exact (targets c (List.mem_filter.mp own).1 r points).2

theorem growth_applies (rules : ApplyRules) (schema : Schema) (op : Operation) (u v : Table)
    (wf : schema.WellFormed) (inPlace : op.inPlace = true)
    (found : schema.table? op.table = some u) (grows : u.Grows op v)
    (targets : ∀ r ∈ op.newReferences,
      (schema.withTable v).Resolves r ∧ (schema.withTable v).isKeyed r = true) :
    schema.applyOne rules op = .ok (schema.withTable v) := by
  obtain ⟨becomes, names, constraints⟩ := grows
  have member := (table_found schema op.table u found).1
  have target := becomes_named schema u v op wf found becomes
  have old (t : Table) (inside : t ∈ schema.tables) (c : Constraint) (own : c ∈ t.constraints)
      (r : Reference) (points : c.reference? = some r) : (schema.withTable v).Resolves r :=
    with_table_resolves schema u v r (target ▸ found) (wf.resolved t inside c own r points)
      fun _ name _ present => names present
  refine (apply_one_iff _ schema _ op wf (in_place_payload op inPlace)).mpr
    ⟨.change op u v inPlace found becomes, fun t inside c own r points => ?_, fun r new =>
      (targets r new).2⟩
  rcases with_table_mem schema v t inside with rfl | ⟨before, _⟩
  · rcases constraints c own with kept | ⟨n, adds⟩
    · exact old u member c kept r points
    · exact (targets r (by simp [adds, Operation.newReferences, points])).1
  · exact old t before c own r points

section Cut

variable (dialect : Dialect) (source destination reached : Schema) (front rest : List Operation)
  (op : Operation) (cut : Cut dialect source destination front (op :: rest) reached)

include cut

theorem cut_offers (late : 5 ≤ op.stage) (name : String) (des u : Table)
    (wanted : source.table? name = some des) (there : reached.table? name = some u) :
    u.Offers des := by
  have progress := cut_progress dialect source destination reached front (op :: rest) cut name
  have wf := cut_reached dialect source destination reached front (op :: rest) cut
  have stages := back_stages dialect source destination reached front rest op cut name
  have uWf := wf.tables u (table_found reached name u there).1
  have desWf := cut.sourceWf.tables des (table_found source name des wanted).1
  rw [wanted, there] at progress
  generalize destination.table? name = before at progress
  generalize front.filter (·.table = name) = done at progress
  generalize (op :: rest).filter (·.table = name) = owed at progress stages
  cases progress with
  | kept _ _ _ _ _ _ _ _ _ owes | created _ _ _ _ _ _ _ _ owes =>
      exact late_offers u des owed uWf desWf owes fun o member => late.trans (stages o member)

theorem cut_present (late : 6 ≤ op.stage) (name : String) (des : Table)
    (wanted : source.table? name = some des) : ∃ u, reached.table? name = some u := by
  have progress := cut_progress dialect source destination reached front (op :: rest) cut name
  have stages := back_stages dialect source destination reached front rest op cut name
  rw [wanted] at progress
  generalize destination.table? name = before at progress
  generalize front.filter (·.table = name) = done at progress
  generalize (op :: rest).filter (·.table = name) = owed at progress stages
  generalize reached.table? name = now at progress
  cases progress with
  | kept _ _ u | created _ u => exact ⟨u, rfl⟩
  | awaited _ pending =>
      have stage : op.stage ≤ 5 := stages _ List.mem_cons_self
      omega

theorem cut_target (c : Table) (creates : op = .createTable c) (k : Constraint) (r : Reference)
    (member : k ∈ c.constraints) (points : k.reference? = some r) (other : r.table ≠ c.name)
    (des : Table) (wanted : source.table? r.table = some des) :
    ∃ u, reached.table? r.table = some u := by
  subst creates
  have progress := cut_progress dialect source destination reached front _ cut r.table
  cases before : destination.table? r.table with
  | some cur =>
      rw [before, wanted] at progress
      generalize front.filter (·.table = r.table) = done at progress
      generalize (Operation.createTable c :: rest).filter (·.table = r.table) = owed at progress
      generalize reached.table? r.table = now at progress
      cases progress with
      | kept _ _ u => exact ⟨u, rfl⟩
  | none =>
      have fresh : r.table ∈ (Diff.newTables source destination).map Table.name := by
        obtain ⟨inside, named⟩ := table_found source r.table des wanted
        refine List.mem_map.mpr ⟨des, List.mem_filter.mpr ⟨inside, ?_⟩, named⟩
        rw [named, (has_table_none destination r.table).mpr before, Bool.not_false]
      obtain ⟨d, done, named⟩ := (cut_created dialect source destination reached front _ cut c rest rfl
        k r member points fresh).resolve_left other
      have inFront : .createTable d ∈ front.filter (·.table = r.table) :=
        List.mem_filter.mpr ⟨done, by simp [Operation.table, named]⟩
      rw [before, wanted] at progress
      generalize front.filter (·.table = r.table) = done at progress inFront
      generalize (Operation.createTable c :: rest).filter (·.table = r.table) = owed at progress
      generalize reached.table? r.table = now at progress
      cases progress with
      | created _ u => exact ⟨u, rfl⟩
      | awaited => cases inFront

-- After the drops of constraints, a foreign key points where one of the source does, unless its
-- table is about to be dropped; then it points at the table itself or at one that stays.
theorem cut_reference (late : 2 ≤ op.stage) (t : Table) (member : t ∈ reached.tables) (c : Constraint)
    (own : c ∈ t.constraints) (r : Reference) (points : c.reference? = some r) :
    (∃ s, source.Resolves s ∧ s.table = r.table ∧ s.columns = r.columns) ∨
      .dropTable t.name ∈ op :: rest ∧
        (r.table = t.name ∨ Diff.droppedNames source destination r.table = false) := by
  have wf := cut_reached dialect source destination reached front (op :: rest) cut
  have declared : c ∈ t.declared := List.mem_append.mpr (.inr own)
  have progress := cut_progress dialect source destination reached front (op :: rest) cut t.name
  have stages := back_stages dialect source destination reached front rest op cut t.name
  have inBack : ∀ o ∈ (op :: rest).filter (·.table = t.name), o ∈ op :: rest :=
    fun o inside => (List.mem_filter.mp inside).1
  rw [table_of_mem reached wf.distinct t member] at progress
  have tables := table_well_formed dialect source destination reached front (op :: rest) cut t.name
  have looked := table_found source t.name
  have existed := table_found destination t.name
  -- The goal has a constraint of this shape, which is a foreign key as well.
  have likewise (goal : Table) (goalWf : goal.WellFormed) (owed : List Operation)
      (owes : t.Owes owed goal) (after : ∀ o ∈ owed, 2 ≤ o.stage) :
      ∃ d ∈ goal.constraints, ∃ s, d.reference? = some s ∧ s.table = r.table ∧
        s.columns = r.columns := by
    obtain ⟨d, inside, shape⟩ := late_declared t goal owed owes after c declared
    obtain ⟨s, pointed, target, columns⟩ := same_target c d r shape.symm points
    exact ⟨d, declared_foreign goal goalWf d s pointed inside, s, pointed, target, columns⟩
  generalize front.filter (·.table = t.name) = done at progress
  generalize (op :: rest).filter (·.table = t.name) = owed at progress stages inBack
  generalize destination.table? t.name = before at progress tables existed
  generalize source.table? t.name = after at progress tables looked
  cases progress with
  | kept _ des _ _ _ _ _ _ _ owes | created des _ _ _ _ _ _ _ owes =>
      obtain ⟨d, inGoal, s, pointed, target⟩ := likewise des ((tables des).2 rfl) owed owes
        fun o inside => late.trans (stages o inside)
      exact .inl ⟨s, cut.sourceWf.resolved des (looked des rfl).1 d inGoal s pointed, target⟩
  | leaving gone _ _ back _ _ owes =>
      obtain ⟨d, inGoal, s, pointed, target, _⟩ := likewise _
        (stripped_well_formed dialect _ gone ((tables gone).1 rfl)) back owes
        fun o inside => late.trans (stages o (by simp [inside]))
      have unblocked : d ∈ (without gone (blocking (Diff.droppedNames source destination)
        gone)).constraints := inGoal
      rw [without_blocking, List.mem_filter] at unblocked
      have named := (existed gone rfl).2
      refine .inr ⟨named ▸ inBack _ (by simp), ?_⟩
      rw [← target, ← named]
      exact not_blocked _ gone d s (by simpa using unblocked.2) pointed

end Cut

end SchemaDrift
