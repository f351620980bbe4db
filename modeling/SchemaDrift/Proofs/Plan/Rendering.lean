import SchemaDrift.Plan.Emit
import SchemaDrift.Proofs.Dialect.Rendering
import SchemaDrift.Proofs.Plan.Cut
/-!
Every plan can be written. Its columns come from canonical images, it changes only columns that are
different, and it has no operation on a primary key where the dialect cannot write one.
-/

set_option autoImplicit false

namespace SchemaDrift

open CreationOrder Stages

theorem image_columns_canonical (dialect : Dialect) (schema image : Schema) (valid : schema.Validated)
    (canonical : dialect.canonicalize schema = .ok image) (t : Table) (member : t ∈ image.tables) :
    ∀ c ∈ t.columns, dialect.canonicalColumn c = .ok c := by
  obtain ⟨s, _, made⟩ := partner_of_right _ _ _
    (canonicalize_images dialect schema image valid canonical) t member
  exact List.forall₂_same.mp (image_fixed dialect s t made).columns

theorem foreign_not_primary (c : Constraint) (foreign : c.isForeignKey = true) :
    c.isPrimaryKey = false := by
  cases kind : c.kind <;>
    simp_all [Constraint.isForeignKey, Constraint.reference?, Constraint.isPrimaryKey]

/-! ### Tables that stay -/

section Kept

variable (dialect : Dialect) (cur des : Table) (curWf : cur.WellFormed) (desWf : des.WellFormed)
  (curCanonical : ∀ c ∈ cur.columns, dialect.canonicalColumn c = .ok c)
  (desCanonical : ∀ c ∈ des.columns, dialect.canonicalColumn c = .ok c)

include curCanonical desCanonical in
theorem column_stage_printable (ops : List Operation)
    (staged : Diff.columnStage dialect cur des = .ok ops) : ∀ op ∈ ops, op.Printable dialect := by
  obtain ⟨changes, rfl, altered, _⟩ := column_stage_ok dialect cur des ops staged
  refine List.forall_mem_append.mpr ⟨List.forall_mem_append.mpr ⟨?_, ?_⟩, ?_⟩
  · intro op member
    obtain ⟨c, _, rfl⟩ := List.mem_map.mp member
    trivial
  · intro op member
    obtain ⟨d, inside, old, found, different, rfl⟩ := altered op member
    obtain ⟨own, named⟩ := column_found cur d.name old found
    exact ⟨curCanonical old own, desCanonical d inside, named, different⟩
  · intro op member
    obtain ⟨c, inside, rfl⟩ := List.mem_map.mp member
    exact desCanonical c (List.mem_filter.mp inside).1

theorem key_stages_printable (stages : Stages) (staged : Diff.keyStages dialect cur des = .ok stages) :
    ∀ op ∈ stages.operations, op.Printable dialect := by
  by_cases spanner : dialect = .spanner
  · subst spanner
    have none : stages = {} := by
      unfold Diff.keyStages at staged
      split at staged
      · cases staged
        rfl
      · cases staged
    rw [none]
    exact fun op member => absurd member List.not_mem_nil
  · obtain ⟨removed, added, rfl, _⟩ := key_stages_ok dialect cur des stages staged
    intro op member
    simp only [Stages.operations, List.append_nil, List.nil_append, List.mem_append,
      List.mem_map] at member
    rcases member with ⟨c, _, rfl⟩ | ⟨c, _, rfl⟩ <;> exact fun same => absurd same spanner

include curWf desWf in
theorem constraint_stages_printable :
    ∀ op ∈ (Diff.constraintStages cur des).operations, op.Printable dialect := by
  have sub := unmatched_sublist Constraint.structurallyEq cur.constraints des.constraints
  intro op member
  simp only [Diff.constraintStages, Stages.operations, List.append_nil, List.mem_append,
    List.mem_map, or_assoc] at member
  rcases member with ⟨c, inside, rfl⟩ | ⟨c, inside, rfl⟩ | ⟨c, inside, rfl⟩ | ⟨c, inside, rfl⟩
  · exact fun _ => curWf.placed.constraints c (sub.1.subset (List.mem_filter.mp inside).1)
  · exact fun _ => curWf.placed.constraints c (sub.1.subset (List.mem_filter.mp inside).1)
  · exact fun _ => desWf.placed.constraints c (sub.2.subset (List.mem_filter.mp inside).1)
  · exact fun _ => desWf.placed.constraints c (sub.2.subset (List.mem_filter.mp inside).1)

include curWf desWf curCanonical desCanonical in
theorem table_stages_printable (stages : Stages)
    (staged : Diff.tableStages dialect cur des = .ok stages) :
    ∀ op ∈ stages.operations, op.Printable dialect := by
  obtain ⟨columnChanges, keys, columns, keyed, rfl⟩ := table_stages_ok dialect cur des stages staged
  intro op member
  simp only [mem_operations_append] at member
  rcases member with ((column | key) | constraint) | index
  · exact column_stage_printable dialect cur des curCanonical desCanonical columnChanges columns op
      (by simpa [Stages.operations] using column)
  · exact key_stages_printable dialect cur des keys keyed op key
  · exact constraint_stages_printable dialect cur des curWf desWf op constraint
  · have subject := index_stages_subject cur des op index
    cases op with
    | addIndex | dropIndex => trivial
    | _ => cases subject

end Kept

theorem leaving_printable (dialect : Dialect) (dropped : String → Bool) (cur : Table) :
    ∀ op ∈ Diff.leaving dialect dropped cur, op.Printable dialect := by
  refine List.forall_mem_append.mpr ⟨fun op member => ?_, fun op member => ?_⟩
  · obtain ⟨c, inside, rfl⟩ := List.mem_map.mp member
    exact fun _ => foreign_not_primary c (foreign_key_filtered cur dropped c inside).2
  · split at member
    · cases member
    · obtain ⟨index, _, rfl⟩ := List.mem_map.mp member
      trivial

theorem table_plan_printable (dialect : Dialect) (dropped : String → Bool) (before after : Option Table)
    (ops : List Operation) (plan : TablePlan dialect dropped before after ops)
    (old : ∀ t, before = some t → t.WellFormed ∧ ∀ c ∈ t.columns, dialect.canonicalColumn c = .ok c)
    (new : ∀ t, after = some t → t.WellFormed ∧ ∀ c ∈ t.columns, dialect.canonicalColumn c = .ok c) :
    ∀ op ∈ ops, op.Printable dialect := by
  cases plan with
  | unknown => simp
  | kept cur des stages staged =>
      exact table_stages_printable dialect cur des (old cur rfl).1 (new des rfl).1 (old cur rfl).2
        (new des rfl).2 stages staged
  | dropped cur =>
      refine List.forall_mem_append.mpr ⟨leaving_printable dialect dropped cur, fun op member => ?_⟩
      rw [List.mem_singleton.mp member]
      trivial
  | created des pending =>
      refine List.forall_mem_cons.mpr ⟨(new des rfl).2, fun op member => ?_⟩
      obtain ⟨c, inside, rfl⟩ := List.mem_map.mp member
      exact fun _ => foreign_not_primary c (foreign_key_filtered des pending c inside).2

theorem plan_printable (dialect : Dialect) (source destination : Schema) (plan : Plan)
    (sourceValid : source.Validated) (destinationValid : destination.Validated)
    (planned : diff dialect source destination = .ok plan) :
    ∀ op ∈ plan.operations, op.Printable dialect := by
  obtain ⟨S, sourceMade, rest⟩ := (bind_ok _ _ _).mp planned
  obtain ⟨D, destinationMade, _⟩ := (bind_ok _ _ _).mp rest
  have sourceImage := (map_error_ok _ _ _).mp sourceMade
  have destinationImage := (map_error_ok _ _ _).mp destinationMade
  obtain ⟨stages, staged, same⟩ :=
    diff_ok dialect source destination S D plan sourceImage destinationImage planned
  have sourceWf := image_well_formed dialect source S sourceValid sourceImage
  have destinationWf := image_well_formed dialect destination D destinationValid destinationImage
  intro op member
  refine table_plan_printable dialect _ _ _ _
    (plan_on_table dialect S D stages sourceWf destinationWf op.table staged) (fun t found => ?_)
    (fun t found => ?_) op (List.mem_filter.mpr ⟨same ▸ member, by simp⟩)
  · have inside := (table_found D op.table t found).1
    exact ⟨destinationWf.tables t inside,
      image_columns_canonical dialect destination D destinationValid destinationImage t inside⟩
  · have inside := (table_found S op.table t found).1
    exact ⟨sourceWf.tables t inside,
      image_columns_canonical dialect source S sourceValid sourceImage t inside⟩

-- The statements of a plan are those of its operations in their order, and the statement for a column
-- that changes says what changes.
theorem plan_renders (dialect : Dialect) (source destination : Schema) (plan : Plan)
    (sourceValid : source.Validated) (destinationValid : destination.Validated)
    (planned : diff dialect source destination = .ok plan) :
    ∃ parts : List (List String), plan.render dialect = .ok parts.flatten ∧
      List.Forall₂ (fun op part => dialect.render op = .ok part) plan.operations parts ∧
        ∀ table source target, .alterColumnType table source target ∈ plan.operations →
          ∃ action, Dialect.Alters source target dialect action ∧
            dialect.render (.alterColumnType table source target)
              = .ok ["ALTER TABLE " ++ dialect.quote table ++ " " ++ action] ∧
            "ALTER TABLE " ++ dialect.quote table ++ " " ++ action ∈ parts.flatten := by
  have printable :=
    plan_printable dialect source destination plan sourceValid destinationValid planned
  obtain ⟨parts, each, rendered⟩ := render_all_ok dialect plan.operations printable
  refine ⟨parts, (map_error_ok _ _ _).mpr rendered, each, fun table source target member => ?_⟩
  obtain ⟨first, second, named, different⟩ := printable _ member
  obtain ⟨action, written, alters⟩ :=
    alter_column_ok dialect source target first second named different
  have alone : dialect.render (.alterColumnType table source target)
      = .ok ["ALTER TABLE " ++ dialect.quote table ++ " " ++ action] := by
    unfold Dialect.render
    dsimp only
    rw [written]
    rfl
  obtain ⟨part, inside, same⟩ := partner_of_left _ _ _ each _ member
  rw [alone] at same
  cases same
  exact ⟨action, alters, alone, List.mem_flatten.mpr ⟨_, inside, List.mem_singleton.mpr rfl⟩⟩

/-! ### A balance that outgrows its column -/

namespace Ledger

def narrow : Column := { name := "balance", type := { base := .integer } }

def wide : Column :=
  { name := "balance", type := { base := .bigInt }, nullable := true, default := some "0" }

def account (balance : Column) : Table where
  name := "account"
  columns := [Shop.number "id", balance]
  primaryKey := some (.primaryKey ["id"])
  ordinal := 0

def before : Schema := { tables := [account narrow] }

def after : Schema := { tables := [account wide] }

def plan : Plan := { operations := [.alterColumnType "account" narrow wide] }

end Ledger

theorem ledger_renders : ∃ statement action,
    Dialect.Alters Ledger.narrow Ledger.wide .postgres action ∧
      statement = "ALTER TABLE " ++ Dialect.postgres.quote "account" ++ " " ++ action ∧
        Ledger.plan.render .postgres = .ok [statement] := by
  obtain ⟨parts, rendered, each, alters⟩ := plan_renders .postgres Ledger.after Ledger.before
    Ledger.plan ⟨Ledger.after.toDraft, by decide, rfl⟩ ⟨Ledger.before.toDraft, by decide, rfl⟩ (by cbv)
  obtain ⟨action, changes, alone, -⟩ :=
    alters "account" Ledger.narrow Ledger.wide (by simp [Ledger.plan])
  refine ⟨_, action, changes, rfl, ?_⟩
  cases each with
  | cons only none =>
      cases none
      rw [alone] at only
      cases only
      exact rendered

end SchemaDrift
