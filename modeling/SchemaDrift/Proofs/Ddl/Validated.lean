import SchemaDrift.Proofs.Ddl.Invariant
import SchemaDrift.Proofs.Dialect.Canonical
/-!
Every schema that is read from a text is validated: constraints only come into its tables through
`addConstraint`.
-/

set_option autoImplicit false

namespace SchemaDrift

def SchemaDraft.Placed (draft : SchemaDraft) : Prop := ∀ d ∈ draft.tables, d.Placed

theorem placed_bare (draft : TableDraft) (keys : draft.primaryKeys = [])
    (constraints : draft.constraints = []) : draft.Placed :=
  ⟨by simp [keys], by simp [constraints]⟩

theorem placed_kept (reader : Ddl.Reader) : reader.Keeps TableDraft.Placed where
  bare := fun _ => placed_bare _ rfl rfl
  column := fun _ _ _ _ placed _ => ⟨placed.keys, placed.constraints⟩
  constraint := fun draft c placed _ => placed_add_constraint draft c placed
  index := fun _ _ placed => ⟨placed.keys, placed.constraints⟩
  option := by
    intro table tree result placed _ _ read
    unfold Ddl.Reader.tableOption at read
    dsimp only at read
    split at read
    · cases read
    · split at read
      · cases read
        exact placed
      · cases read
        exact ⟨placed.keys, placed.constraints⟩

theorem parse_validated (dialect : Dialect) (text : List Char) (schema : Schema)
    (parsed : dialect.parse text = .ok schema) : schema.Validated := by
  obtain ⟨draft, read, rest⟩ := (bind_ok _ _ _).mp parsed
  obtain ⟨built, build, rest⟩ := (bind_ok _ _ _).mp rest
  obtain ⟨_, _, last⟩ := (bind_ok _ _ _).mp rest
  cases last
  exact ⟨draft, Ddl.Reader.document_keeps _ _ (placed_kept _) draft read, build⟩

end SchemaDrift
