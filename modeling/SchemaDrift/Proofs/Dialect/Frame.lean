import SchemaDrift.Proofs.Dialect.Accepted
/-!
What canonicalization leaves as it is. Of the columns it rewrites types and defaults only, and of the
constraints and indexes it moves unique ones only, which stay keys of their table on either side.
-/

set_option autoImplicit false

namespace SchemaDrift

def Table.rules (table : Table) : List Constraint :=
  table.constraints.filter fun c => c.isForeignKey || c.isCheck

structure Column.SameFrame (column image : Column) : Prop where
  name : image.name = column.name
  nullable : image.nullable = column.nullable
  autoIncrement : image.autoIncrement = column.autoIncrement
  annotations : image.annotations = column.annotations
  rawDefinition : image.rawDefinition = column.rawDefinition

structure Table.SameFrame (table image : Table) : Prop where
  name : image.name = table.name
  ordinal : image.ordinal = table.ordinal
  options : image.options = table.options
  columns : List.Forall₂ Column.SameFrame table.columns image.columns
  primaryKey : image.primaryKey = table.primaryKey
  rules : image.rules = table.rules
  plainIndexes : image.indexes.filter (!·.unique) = table.indexes.filter (!·.unique)
  keys : ∀ columns, image.hasKey columns = table.hasKey columns

theorem filter_uniform {α β : Type} (f : α → β) (p : β → Bool) (flag : Bool)
    (constant : ∀ a, p (f a) = flag) (l : List α) :
    (l.map f).filter p = if flag = true then l.map f else [] := by
  induction l with
  | nil => cases flag <;> rfl
  | cons a l ih =>
      rw [List.map_cons, List.filter_cons, constant, ih]
      cases flag <;> rfl

namespace Dialect

/-! ### Constraints and indexes that stay -/

theorem unique_no_rule (c : Constraint) (unique : c.kind = .unique) :
    (c.isForeignKey || c.isCheck) = false := by
  simp [Constraint.isForeignKey, Constraint.reference?, Constraint.isCheck, unique]

theorem folded_rules (dialect : Dialect) (t : Table) : (dialect.folded t).rules = t.rules := by
  cases dialect with
  | postgres => rfl
  | mysql =>
      change List.filter _ (t.constraints ++ _) = _
      rw [List.filter_append,
        filter_uniform _ _ false (fun index => unique_no_rule index.asConstraint rfl)]
      exact List.append_nil _
  | spanner =>
      change List.filter _ (t.constraints.filter (·.kind ≠ .unique)) = _
      rw [List.filter_filter]
      refine List.filter_congr fun c _ => ?_
      by_cases unique : c.kind = .unique
      · rw [unique_no_rule c unique, Bool.false_and]
      · simp [unique]

theorem folded_plain_indexes (dialect : Dialect) (t : Table) :
    (dialect.folded t).indexes.filter (!·.unique) = t.indexes.filter (!·.unique) := by
  cases dialect with
  | postgres => rfl
  | mysql =>
      change List.filter _ (t.indexes.filter (!·.folds)) = _
      rw [List.filter_filter]
      refine List.filter_congr fun index _ => ?_
      cases unique : index.unique <;> simp [Index.folds, unique]
  | spanner =>
      change List.filter _ (t.indexes ++ _) = _
      rw [List.filter_append, filter_uniform _ _ false (fun _ => rfl)]
      exact List.append_nil _

/-! ### Keys -/

theorem unique_indexes_parted (indexes : List Index) :
    (indexes.filter Index.folds ++ (indexes.filter (!·.folds)).filter Index.unique).Perm
      (indexes.filter Index.unique) := by
  have folding : (indexes.filter Index.unique).filter Index.folds = indexes.filter Index.folds := by
    rw [List.filter_filter]
    refine List.filter_congr fun index _ => ?_
    cases unique : index.unique <;> simp [Index.folds, unique]
  have others : (indexes.filter Index.unique).filter (!·.folds)
      = (indexes.filter (!·.folds)).filter Index.unique := List.filter_comm _ _ _
  rw [← folding, ← others]
  exact List.filter_append_perm Index.folds (indexes.filter Index.unique)

theorem mysql_keys (t : Table) : (mysql.folded t).keys.Perm t.keys := by
  have moved : (((t.indexes.filter Index.folds).map Index.asConstraint).filter (·.kind = .unique)).map
      Constraint.columns = (t.indexes.filter Index.folds).map Index.columnNames := by
    rw [filter_uniform _ _ true (fun _ => rfl), if_pos rfl, List.map_map]
    rfl
  have merged := (unique_indexes_parted t.indexes).map Index.columnNames
  rw [List.map_append] at merged
  change (t.primaryKey.toList.map Constraint.columns
    ++ ((t.constraints ++ (t.indexes.filter Index.folds).map Index.asConstraint).filter
      (·.kind = .unique)).map Constraint.columns
    ++ ((t.indexes.filter (!·.folds)).filter Index.unique).map Index.columnNames).Perm _
  simp only [List.filter_append, List.map_append, moved, Table.keys, List.append_assoc]
  exact (merged.append_left _).append_left _

theorem spanner_keys (t : Table) : (spanner.folded t).keys.Perm t.keys := by
  have left : (t.constraints.filter (·.kind ≠ .unique)).filter (·.kind = .unique) = [] := by
    refine List.filter_eq_nil_iff.mpr fun c member => ?_
    simpa using (List.mem_filter.mp member).2
  have moved : (((t.constraints.filter (·.kind = .unique)).map (Constraint.asIndex t.name)).filter
      Index.unique).map Index.columnNames
        = (t.constraints.filter (·.kind = .unique)).map Constraint.columns := by
    rw [filter_uniform _ _ true (fun _ => rfl), if_pos rfl, List.map_map]
    exact List.map_congr_left fun c _ => as_index_columns t.name c
  change (t.primaryKey.toList.map Constraint.columns
    ++ ((t.constraints.filter (·.kind ≠ .unique)).filter (·.kind = .unique)).map Constraint.columns
    ++ ((t.indexes ++ (t.constraints.filter (·.kind = .unique)).map (Constraint.asIndex t.name)).filter
      Index.unique).map Index.columnNames).Perm _
  rw [left, List.map_nil, List.append_nil, List.filter_append, List.map_append, moved, Table.keys,
    List.append_assoc]
  exact List.perm_append_comm.append_left _

theorem folded_keys (dialect : Dialect) (t : Table) : (dialect.folded t).keys.Perm t.keys := by
  cases dialect with
  | postgres => exact .rfl
  | mysql => exact mysql_keys t
  | spanner => exact spanner_keys t

end Dialect

/-! ### Whole schemas -/

theorem canonical_column_frame (dialect : Dialect) (c d : Column)
    (canonical : dialect.canonicalColumn c = .ok d) : c.SameFrame d := by
  obtain ⟨_, _, _, rfl⟩ := (canonical_column_ok dialect c d).mp canonical
  exact ⟨rfl, rfl, rfl, rfl, rfl⟩

theorem image_frame (dialect : Dialect) (t u : Table) (made : dialect.Image t u) : t.SameFrame u := by
  refine ⟨made.name, made.ordinal, made.options, ?_, made.key, ?_, ?_, fun columns => ?_⟩
  · exact made.columns.imp fun c d single => canonical_column_frame dialect c d single
  · rw [Table.rules, made.constraints]
    exact dialect.folded_rules t
  · rw [made.indexes]
    exact dialect.folded_plain_indexes t
  · have same : u.keys = (dialect.folded t).keys := by
      rw [Table.keys, made.key, made.constraints, made.indexes]
      rfl
    rw [Table.hasKey, Table.hasKey, same]
    exact (dialect.folded_keys t).any_eq

theorem canonicalize_keeps_frame (dialect : Dialect) (schema image : Schema) (valid : schema.Validated)
    (canonical : dialect.canonicalize schema = .ok image) :
    List.Forall₂ Table.SameFrame schema.tables image.tables :=
  (canonicalize_images dialect schema image valid canonical).imp fun t u made =>
    image_frame dialect t u made

-- Seats whose number is declared unique twice, between two checks.
namespace Theatre

def seat : TableDraft where
  name := "seat"
  columns := [{ name := "id", type := { base := .integer } },
    { name := "number", type := { base := .char }, nullable := true, default := some "( 'A1' )" }]
  primaryKeys := [.primaryKey ["id"]]
  constraints := [.check [] "id > 0", .unique ["number"], .check ["number"] "number <> 'A13'",
    (Constraint.unique ["number"]).named "by_number"]
  indexes := [Index.ascending "by_place" ["number", "id"]]

def schema : Schema := { tables := [seat.toTable 0] }

def image : Schema where
  tables :=
    [{ name := "seat"
       columns := [{ name := "id", type := { base := .bigInt } },
         { name := "number", type := .varchar 1, nullable := true, default := some "'A1'" }]
       primaryKey := some (.primaryKey ["id"])
       constraints := [.check [] "id > 0", .check ["number"] "number <> 'A13'"]
       indexes := [Index.ascending "by_place" ["number", "id"],
         { Index.ascending "seat_number_key" ["number"] with unique := true },
         { Index.ascending "by_number" ["number"] with unique := true }]
       ordinal := 0 }]

end Theatre

theorem theatre_keeps_frame : Theatre.schema.Validated ∧
    Dialect.spanner.canonicalize Theatre.schema = .ok Theatre.image ∧
      List.Forall₂ Table.SameFrame Theatre.schema.tables Theatre.image.tables := by
  have valid : Theatre.schema.Validated := ⟨{ tables := [Theatre.seat] }, by decide, rfl⟩
  have canonical : Dialect.spanner.canonicalize Theatre.schema = .ok Theatre.image := by
    decide +kernel
  exact ⟨valid, canonical,
    canonicalize_keeps_frame .spanner Theatre.schema Theatre.image valid canonical⟩

end SchemaDrift
