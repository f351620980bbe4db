import SchemaDrift.Proofs.Dialect.Canonical
import SchemaDrift.Proofs.Plan.Due
import SchemaDrift.Proofs.Plan.Progress
/-!
The schema that the first part of a plan reaches, and where each of its tables comes from.
-/

set_option autoImplicit false

namespace SchemaDrift

open CreationOrder

-- The front of a plan between two canonical schemas has been applied; the back is to come.
structure Cut (dialect : Dialect) (source destination : Schema) (front back : List Operation)
    (reached : Schema) : Prop where
  sourceWf : source.WellFormed
  destinationWf : destination.WellFormed
  staged : ∃ stages, Diff.stages dialect source destination = .ok stages ∧
    stages.operations = front ++ back
  applied : destination.apply dialect.applyRules front = .ok reached

theorem diff_ok (dialect : Dialect) (source destination S D : Schema) (plan : Plan)
    (sourceImage : dialect.canonicalize source = .ok S)
    (destinationImage : dialect.canonicalize destination = .ok D)
    (planned : diff dialect source destination = .ok plan) :
    ∃ stages, Diff.stages dialect S D = .ok stages ∧ stages.operations = plan.operations := by
  obtain ⟨_, first, rest⟩ := (bind_ok _ _ _).mp planned
  obtain ⟨_, second, rest⟩ := (bind_ok _ _ _).mp rest
  obtain ⟨stages, staged, same⟩ := (bind_ok _ _ _).mp rest
  cases sourceImage.symm.trans ((map_error_ok _ _ _).mp first)
  cases destinationImage.symm.trans ((map_error_ok _ _ _).mp second)
  cases same
  exact ⟨stages, staged, rfl⟩

theorem cut_of_diff (dialect : Dialect) (source destination S D M : Schema) (plan : Plan)
    (front back : List Operation) (sourceValid : source.Validated)
    (destinationValid : destination.Validated) (sourceImage : dialect.canonicalize source = .ok S)
    (destinationImage : dialect.canonicalize destination = .ok D)
    (planned : diff dialect source destination = .ok plan)
    (parts : plan.operations = front ++ back)
    (applied : D.apply dialect.applyRules front = .ok M) : Cut dialect S D front back M := by
  obtain ⟨stages, staged, same⟩ :=
    diff_ok dialect source destination S D plan sourceImage destinationImage planned
  exact ⟨image_well_formed dialect source S sourceValid sourceImage,
    image_well_formed dialect destination D destinationValid destinationImage,
    ⟨stages, staged, same.trans parts⟩, applied⟩

theorem own_back (op : Operation) (rest : List Operation) :
    (op :: rest).filter (·.table = op.table) = op :: rest.filter (·.table = op.table) :=
  List.filter_cons_of_pos (by simp)

section Cut

variable (dialect : Dialect) (source destination reached : Schema) (front back : List Operation)
  (cut : Cut dialect source destination front back reached)

include cut

theorem cut_sorted : (front ++ back).Pairwise fun a b => a.stage ≤ b.stage := by
  obtain ⟨stages, staged, parts⟩ := cut.staged
  rw [← parts]
  exact operations_sorted stages
    (stages_all dialect source destination stages cut.sourceWf cut.destinationWf staged)

theorem cut_part (name : String) :
    TablePlan dialect (Diff.droppedNames source destination) (destination.table? name)
      (source.table? name) ((front ++ back).filter (·.table = name)) := by
  obtain ⟨stages, staged, parts⟩ := cut.staged
  rw [← parts]
  exact plan_on_table dialect source destination stages cut.sourceWf cut.destinationWf name staged

theorem table_well_formed (name : String) (t : Table) :
    (destination.table? name = some t → t.WellFormed) ∧
      (source.table? name = some t → t.WellFormed) :=
  ⟨fun found => cut.destinationWf.tables t (table_found destination name t found).1,
    fun found => cut.sourceWf.tables t (table_found source name t found).1⟩

theorem cut_payload (op : Operation) (member : op ∈ front ++ back) : op.WellFormed := by
  cases op with
  | createTable c =>
      have part := cut_part dialect source destination reached front back cut c.name
      have wf := table_well_formed dialect source destination reached front back cut c.name
      have inside : .createTable c ∈ (front ++ back).filter (·.table = c.name) :=
        List.mem_filter.mpr ⟨member, by simp [Operation.table]⟩
      generalize (front ++ back).filter (·.table = c.name) = ops at part inside
      generalize destination.table? c.name = before at part wf
      generalize source.table? c.name = after at part wf
      cases part with
      | unknown => cases inside
      | kept cur des stages staged =>
          have all := table_stages_turn dialect cur des stages ((wf cur).1 rfl) ((wf des).2 rfl) staged
          exact absurd (all_operations _ _ (all_mono _ (fun _ op => op.Turns cur des) _ all
            fun _ _ facts => facts.2.2) _ inside) id
      | dropped cur =>
          have owes := leaving_owe dialect (Diff.droppedNames source destination) cur
          rcases List.mem_append.mp inside with early | last
          · exact absurd (owes.inPlace _ early) Bool.false_ne_true
          · cases List.mem_singleton.mp last
      | created des pending =>
          rcases List.mem_cons.mp inside with same | later
          · cases same
            exact without_well_formed des _ ((wf des).2 rfl)
          · exact absurd ((deferred_owe des pending 0).inPlace _ later) Bool.false_ne_true
  | _ => trivial

theorem cut_reached : reached.WellFormed :=
  apply_well_formed dialect.applyRules destination reached front cut.destinationWf
    (fun op member => cut_payload dialect source destination reached front back cut op
      (List.mem_append.mpr (.inl member))) cut.applied

theorem cut_progress (name : String) :
    Progress dialect (Diff.droppedNames source destination) (destination.table? name)
      (source.table? name) (front.filter (·.table = name)) (back.filter (·.table = name))
      (reached.table? name) := by
  have part := cut_part dialect source destination reached front back cut name
  have wf := table_well_formed dialect source destination reached front back cut name
  rw [List.filter_append] at part
  exact table_progress dialect _ _ _ _ _ _ part
    (run_on_table dialect.applyRules destination reached front name cut.destinationWf
      (fun op member => cut_payload dialect source destination reached front back cut op
        (List.mem_append.mpr (.inl member))) cut.applied)
    (fun t found => (wf t).1 found) fun t found => (wf t).2 found

theorem cut_created (c : Table) (rest : List Operation) (next : back = .createTable c :: rest)
    (k : Constraint) (r : Reference) (member : k ∈ c.constraints) (points : k.reference? = some r)
    (fresh : r.table ∈ (Diff.newTables source destination).map Table.name) :
    r.table = c.name ∨ ∃ d, .createTable d ∈ front ∧ d.name = r.table := by
  obtain ⟨stages, staged, parts⟩ := cut.staged
  have created := created_tables dialect source destination stages cut.sourceWf cut.destinationWf staged
  rw [parts, next, List.filterMap_append, List.filterMap_cons_some (by rfl)] at created
  obtain ⟨turns, arranged, _⟩ := creation_stages_concat (Diff.newTables source destination)
  have respected := arranged.respected
  rw [← created] at respected
  rcases respected_split _ [] _ _ c respected k r member points fresh with own | never | earlier
  · exact .inl own
  · cases never
  · obtain ⟨d, inside, named⟩ := List.mem_map.mp earlier
    obtain ⟨op, before, creates⟩ := List.mem_filterMap.mp inside
    cases op with
    | createTable => cases creates; exact .inr ⟨d, before, named⟩
    | _ => cases creates

end Cut

-- The next operation and the table that it names: what the plan has made of it, and what it owes.
inductive Next (dialect : Dialect) (source destination reached : Schema)
    (front rest : List Operation) (op : Operation) : Prop
  | kept (cur des u : Table) (stages : Stages) (existed : destination.table? op.table = some cur)
      (wanted : source.table? op.table = some des) (found : reached.table? op.table = some u)
      (staged : Diff.tableStages dialect cur des = .ok stages)
      (whole : stages.operations
        = front.filter (·.table = op.table) ++ op :: rest.filter (·.table = op.table))
      (run : cur.Run (front.filter (·.table = op.table)) u)
      (owes : u.Owes (op :: rest.filter (·.table = op.table)) des)
  | created (des u : Table) (pending : String → Bool) (ordinal : Nat) (first : List Operation)
      (new : destination.table? op.table = none) (wanted : source.table? op.table = some des)
      (found : reached.table? op.table = some u)
      (whole : Diff.deferred pending des = first ++ op :: rest.filter (·.table = op.table))
      (run : Table.Run { without des (blocking pending des) with ordinal } first u)
      (owes : u.Owes (op :: rest.filter (·.table = op.table)) des)
  | awaited (des : Table) (pending : String → Bool) (wanted : source.table? op.table = some des)
      (absent : reached.table? op.table = none)
      (creates : op = .createTable (without des (blocking pending des)))
  | leaving (cur u : Table) (tail : List Operation)
      (existed : destination.table? op.table = some cur) (found : reached.table? op.table = some u)
      (own : op ∈ Diff.leaving dialect (Diff.droppedNames source destination) cur)
      (later : tail ⊆ rest.filter (·.table = op.table))
      (owes : u.Owes (op :: tail) (Diff.stripped dialect (Diff.droppedNames source destination) cur))
  | dropped (cur u : Table) (existed : destination.table? op.table = some cur)
      (unwanted : source.table? op.table = none) (found : reached.table? op.table = some u)
      (drops : op = .dropTable cur.name)
      (owes : u.Owes [] (Diff.stripped dialect (Diff.droppedNames source destination) cur))

section Next

variable (dialect : Dialect) (source destination reached : Schema) (front rest : List Operation)
  (op : Operation) (cut : Cut dialect source destination front (op :: rest) reached)

include cut

theorem cut_stages : (∀ o ∈ front, o.stage ≤ op.stage) ∧ ∀ o ∈ op :: rest, op.stage ≤ o.stage := by
  have sorted := cut_sorted dialect source destination reached front (op :: rest) cut
  obtain ⟨_, later, across⟩ := List.pairwise_append.mp sorted
  refine ⟨fun o member => across o member op List.mem_cons_self, fun o member => ?_⟩
  rcases List.mem_cons.mp member with same | behind
  · exact same ▸ le_rfl
  · exact (List.pairwise_cons.mp later).1 o behind

theorem back_stages (name : String) (o : Operation)
    (member : o ∈ (op :: rest).filter (·.table = name)) : op.stage ≤ o.stage :=
  (cut_stages dialect source destination reached front rest op cut).2 o (List.mem_filter.mp member).1

theorem front_stages (name : String) (o : Operation)
    (member : o ∈ front.filter (·.table = name)) : o.stage ≤ op.stage :=
  (cut_stages dialect source destination reached front rest op cut).1 o (List.mem_filter.mp member).1

theorem cut_next : Next dialect source destination reached front rest op := by
  have progress := cut_progress dialect source destination reached front (op :: rest) cut op.table
  rw [own_back op rest] at progress
  generalize existed : destination.table? op.table = before at progress
  generalize wanted : source.table? op.table = after at progress
  generalize found : reached.table? op.table = now at progress
  generalize done : front.filter (·.table = op.table) = first at progress
  generalize owed : op :: rest.filter (·.table = op.table) = back at progress
  cases progress with
  | unknown | gone => cases owed
  | kept cur des u stages _ _ staged whole run owes =>
      subst done owed
      exact .kept cur des u stages existed wanted found staged whole run owes
  | created des u pending ordinal first _ whole run owes =>
      subst owed
      exact .created des u pending ordinal first existed wanted found whole run owes
  | awaited des pending =>
      obtain ⟨creates, _⟩ := List.cons.inj owed
      exact .awaited des pending wanted found creates
  | leaving cur u _ back whole _ owes =>
      rcases List.append_eq_cons_iff.mp owed.symm with ⟨rfl, last⟩ | ⟨tail, rfl, more⟩
      · obtain ⟨drops, _⟩ := List.cons.inj last
        exact .dropped cur u existed wanted found drops.symm owes
      · refine .leaving cur u tail existed found ?_ ?_ owes
        · rw [whole]
          simp
        · rw [more]
          exact List.subset_append_left tail _

end Next

/-! ### A shop that gives up notes and takes up purchases, whose receipts point back at them -/

namespace Shop

def number (name : String) : Column := { name, type := { base := .bigInt } }

def pointer (column table : String) : Constraint :=
  .foreignKey [column] { table, columns := ["id"] }

def customer : Table where
  name := "customer"
  columns := [number "id", number "phone"]
  primaryKey := some (.primaryKey ["id"])
  ordinal := 0

def note : Table where
  name := "note"
  columns := [number "customer"]
  constraints := [pointer "customer" "customer"]
  indexes := [Index.ascending "by_customer" ["customer"]]
  ordinal := 1

def renewed : Table where
  name := "customer"
  columns := [number "id", number "email"]
  primaryKey := some (.primaryKey ["id"])
  indexes := [Index.ascending "by_email" ["email"]]
  ordinal := 0

def purchase : Table where
  name := "purchase"
  columns := [number "id", number "receipt"]
  primaryKey := some (.primaryKey ["id"])
  constraints := [pointer "receipt" "receipt"]
  ordinal := 1

def receipt : Table where
  name := "receipt"
  columns := [number "id", number "purchase"]
  primaryKey := some (.primaryKey ["id"])
  constraints := [pointer "purchase" "purchase"]
  ordinal := 2

def before : Schema where
  tables := [customer, note]

def after : Schema where
  tables := [renewed, purchase, receipt]

-- On Spanner the index of a table is dropped before the table.
def plan : Plan where
  operations :=
    [.dropIndex "note" (Index.ascending "by_customer" ["customer"]), .dropTable "note",
      .dropColumn "customer" "phone", .addColumn "customer" (number "email"),
      .addIndex "customer" (Index.ascending "by_email" ["email"]),
      .createTable { purchase with constraints := [] }, .createTable receipt,
      .addConstraint "purchase" (pointer "receipt" "receipt")]

theorem before_validated : before.Validated := ⟨before.toDraft, by decide, rfl⟩

theorem after_validated : after.Validated := ⟨after.toDraft, by decide, rfl⟩

theorem planned : diff .spanner after before = .ok plan := by cbv

end Shop

end SchemaDrift
