import SchemaDrift.Proofs.Schema.Change
import SchemaDrift.Proofs.Schema.Lookup
/-!
All that one operation can do to a well-formed schema, and that the schema stays well formed.
-/

set_option autoImplicit false

namespace SchemaDrift

def Operation.WellFormed : Operation → Prop
  | createTable table => table.WellFormed
  | _ => True

def Table.Becomes (table : Table) (op : Operation) (next : Table) : Prop :=
  ∃ draft, table.toDraft.Changed op draft ∧ draft.Sound ∧ next = draft.toTable 0

inductive Schema.Step (rules : ApplyRules) (schema : Schema) : Operation → Schema → Prop
  | create (table : Table) (fresh : schema.hasTable table.name = false) :
      Step rules schema (.createTable table) (schema.withNew table)
  | drop (name : String) (table : Table) (found : schema.table? name = some table)
      (free : rules.dropTableDropsIndexes = true ∨ table.indexes = []) :
      Step rules schema (.dropTable name) (schema.withoutTable name)
  | change (op : Operation) (table next : Table) (inPlace : op.inPlace = true)
      (found : schema.table? op.table = some table) (becomes : table.Becomes op next) :
      Step rules schema op (schema.withTable next)

theorem becomes_keeps (t u : Table) (op : Operation) (wf : t.WellFormed) (becomes : t.Becomes op u) :
    u.name = t.name ∧ u.ordinal = t.ordinal ∧ u.WellFormed := by
  obtain ⟨draft, changed, sound, built⟩ := becomes
  obtain ⟨name, ordinal⟩ := changed_keeps t.toDraft draft op changed
  have placed := changed_placed t.toDraft draft op changed wf.placed
  subst built
  refine ⟨name, ?_, built_well_formed draft 0 sound placed⟩
  simp only [TableDraft.toTable, ordinal]
  rfl

theorem becomes_named (schema : Schema) (t u : Table) (op : Operation) (wf : schema.WellFormed)
    (found : schema.table? op.table = some t) (becomes : t.Becomes op u) : u.name = op.table := by
  obtain ⟨member, named⟩ := table_found schema op.table t found
  exact (becomes_keeps t u op (wf.tables t member) becomes).1.trans named

theorem in_place_payload (op : Operation) (inPlace : op.inPlace = true) : op.WellFormed := by
  cases op with
  | createTable => cases inPlace
  | _ => trivial

end SchemaDrift
