import SchemaDrift.Dialect.Render
import SchemaDrift.Proofs.Dialect.Idempotent
/-!
What can be written. A column in canonical form has a type that the dialect knows, and values are
generated only where it can do so, so its definition can be written. A change of a column is written
as an action for each attribute that changes, or as the whole definition again.
-/

set_option autoImplicit false

namespace SchemaDrift

inductive Column.Attribute where
  | type | nullability | default | generation
deriving DecidableEq

namespace Column

def differs (a b : Column) : Attribute → Bool
  | .type => a.type ≠ b.type
  | .nullability => a.nullable ≠ b.nullable
  | .default => a.default ≠ b.default
  | .generation => a.autoIncrement ≠ b.autoIncrement

def changed (a b : Column) : List Attribute :=
  [.type, .nullability, .default, .generation].filter (a.differs b)

end Column

namespace Dialect

def action (target : Column) (type : String) : Column.Attribute → String
  | .type => " TYPE " ++ type ++ " USING " ++ postgres.quote target.name ++ "::" ++ type
  | .nullability => if target.nullable then " DROP NOT NULL" else " SET NOT NULL"
  | .default => match target.default with
    | some expression => " SET DEFAULT " ++ expression
    | none => " DROP DEFAULT"
  | .generation => if target.autoIncrement then " ADD GENERATED BY DEFAULT AS IDENTITY"
    else " DROP IDENTITY IF EXISTS"

inductive Alters (source target : Column) : Dialect → String → Prop
  | actions (type : String) (known : postgres.typeSql target.type = .ok type)
      (differ : source.changed target ≠ []) :
      Alters source target postgres (", ".intercalate ((source.changed target).map fun part =>
        "ALTER COLUMN " ++ postgres.quote target.name ++ action target type part))
  | modify (definition : String) (written : mysql.columnDefinition target = .ok definition)
      (differ : source.changed target ≠ []) :
      Alters source target mysql ("MODIFY COLUMN " ++ definition)
  | setDefault (expression : String) (wanted : target.default = some expression)
      (only : source.changed target = [.default]) :
      Alters source target spanner
        ("ALTER COLUMN " ++ spanner.quote target.name ++ s!" SET DEFAULT ({expression})")
  | dropDefault (unwanted : target.default = none) (only : source.changed target = [.default]) :
      Alters source target spanner ("ALTER COLUMN " ++ spanner.quote target.name ++ " DROP DEFAULT")
  | restate (definition : String) (written : spanner.columnDefinition target = .ok definition)
      (differ : source.changed target ≠ [])
      (more : source.changed target ≠ [.default] ∨ source.rawDefinition ≠ target.rawDefinition) :
      Alters source target spanner ("ALTER COLUMN " ++ definition)

def clauses (dialect : Dialect) (table : Table) : List Constraint :=
  (if dialect = spanner then [] else table.primaryKey.toList) ++ table.constraints

end Dialect

-- Columns are in canonical form, a change of a column changes something, and Spanner keeps its
-- primary keys.
def Operation.Printable (dialect : Dialect) : Operation → Prop
  | createTable table => ∀ c ∈ table.columns, dialect.canonicalColumn c = .ok c
  | addColumn _ c => dialect.canonicalColumn c = .ok c
  | alterColumnType _ source target => dialect.canonicalColumn source = .ok source ∧
    dialect.canonicalColumn target = .ok target ∧ source.name = target.name ∧
      source.sameDefinition target = false
  | addConstraint _ c | dropConstraint _ c => dialect = .spanner → c.isPrimaryKey = false
  | _ => True

/-! ### Attributes that change -/

theorem mem_changed (a b : Column) (part : Column.Attribute) :
    part ∈ a.changed b ↔ a.differs b part = true := by
  rw [Column.changed, List.mem_filter]
  cases part <;> simp

theorem changed_of_different (a b : Column) (named : a.name = b.name)
    (different : a.sameDefinition b = false) : a.changed b ≠ [] := by
  intro none
  have alike (part : Column.Attribute) : a.differs b part = false := by
    rw [Bool.eq_false_iff, Ne, ← mem_changed, none]
    exact List.not_mem_nil
  have type := alike .type
  have nullability := alike .nullability
  have default := alike .default
  have generation := alike .generation
  simp only [Column.differs, ne_eq, decide_not, Bool.not_eq_false', decide_eq_true_eq]
    at type nullability default generation
  simp [Column.sameDefinition, named, type, nullability, default, generation] at different

theorem alter_actions_ok (source target : Column) (type : String)
    (known : Dialect.postgres.typeSql target.type = .ok type) :
    Dialect.alterActions source target = .ok ((source.changed target).map fun part =>
      "ALTER COLUMN " ++ Dialect.postgres.quote target.name ++ Dialect.action target type part) := by
  -- Each of the four lists holds the action for its attribute, if that changes.
  have piece (part : Column.Attribute) (same : Prop) [Decidable same]
      (agree : source.differs target part = decide ¬same) (text : Column.Attribute → String) :
      ([part].filter (source.differs target)).map text = if same then [] else [text part] := by
    by_cases equal : same <;> simp [agree, equal]
  have parts : source.changed target = [.type].filter (source.differs target)
      ++ [.nullability].filter (source.differs target) ++ [.default].filter (source.differs target)
      ++ [.generation].filter (source.differs target) := by
    rw [← List.filter_append, ← List.filter_append, ← List.filter_append]
    rfl
  unfold Dialect.alterActions
  rw [known, parts, List.map_append, List.map_append, List.map_append,
    piece .type (source.type = target.type) rfl,
    piece .nullability (source.nullable = target.nullable) rfl,
    piece .default (source.default = target.default) rfl,
    piece .generation (source.autoIncrement = target.autoIncrement) rfl]
  cases wanted : target.default <;>
    simp only [bind, Except.bind, Dialect.action, wanted, String.append_assoc]

/-! ### Columns -/

theorem type_sql_ok (dialect : Dialect) (type : ColumnType)
    (canonical : dialect.canonicalType type = .ok type) : ∃ sql, dialect.typeSql type = .ok sql := by
  obtain ⟨spelled, native, _⟩ := (bind_ok _ _ _).mp canonical
  exact ⟨dialect.nativeSql spelled, by rw [Dialect.typeSql, native]; rfl⟩

section Canonical

variable (dialect : Dialect) (c : Column) (canonical : dialect.canonicalColumn c = .ok c)

include canonical

theorem canonical_column_type : dialect.canonicalType c.type = .ok c.type := by
  obtain ⟨_, type, read, same⟩ := (canonical_column_ok dialect c c).mp canonical
  have typed : c.type = type := congrArg Column.type same
  rw [← typed] at read
  exact read

theorem canonical_column_generates (generated : c.autoIncrement = true) :
    dialect.generates c.type = true :=
  (check_column_ok dialect c).mp ((canonical_column_ok dialect c c).mp canonical).1 generated

theorem column_type_sql_ok : ∃ sql, dialect.columnTypeSql c = .ok sql := by
  unfold Dialect.columnTypeSql
  by_cases serial : (dialect = .postgres && c.autoIncrement) = true
  · rw [if_pos serial]
    rw [Bool.and_eq_true, decide_eq_true_eq] at serial
    obtain ⟨rfl, generated⟩ := serial
    obtain ⟨name, found⟩ :=
      Option.isSome_iff_exists.mp (canonical_column_generates .postgres c canonical generated)
    exact ⟨name, by rw [found]⟩
  · rw [if_neg serial]
    exact type_sql_ok dialect c.type (canonical_column_type dialect c canonical)

theorem column_definition_ok : ∃ definition, dialect.columnDefinition c = .ok definition := by
  obtain ⟨sql, typed⟩ := column_type_sql_ok dialect c canonical
  unfold Dialect.columnDefinition
  cases c.rawDefinition with
  | some raw => exact ⟨_, rfl⟩
  | none => exact ⟨_, by rw [typed]; rfl⟩

end Canonical

theorem spanner_generation (source target : Column)
    (sourceCanonical : Dialect.spanner.canonicalColumn source = .ok source)
    (targetCanonical : Dialect.spanner.canonicalColumn target = .ok target) :
    source.differs target .generation = false := by
  have never (c : Column) (canonical : Dialect.spanner.canonicalColumn c = .ok c) :
      c.autoIncrement = false :=
    Bool.eq_false_iff.mpr fun generated =>
      Bool.false_ne_true (canonical_column_generates .spanner c canonical generated)
  simp [Column.differs, never source sourceCanonical, never target targetCanonical]

theorem default_only_iff (source target : Column) (differ : source.changed target ≠ [])
    (generation : source.differs target .generation = false) :
    Dialect.changesDefaultOnly source target = true ↔
      source.changed target = [.default] ∧ source.rawDefinition = target.rawDefinition := by
  have changed : source.changed target = [.default] ↔
      source.type = target.type ∧ source.nullable = target.nullable := by
    constructor
    · intro only
      have type := mem_changed source target .type
      have nullability := mem_changed source target .nullability
      rw [only] at type nullability
      simpa [Column.differs] using And.intro type nullability
    · rintro ⟨type, nullability⟩
      have sameType : source.differs target .type = false := by simp [Column.differs, type]
      have sameNull : source.differs target .nullability = false := by
        simp [Column.differs, nullability]
      have parts : source.changed target
          = [Column.Attribute.default].filter (source.differs target) := by
        simp [Column.changed, List.filter_cons, sameType, sameNull, generation]
      rw [parts] at differ ⊢
      by_cases default : source.differs target .default = true
      · rw [List.filter_cons_of_pos default, List.filter_nil]
      · rw [List.filter_cons_of_neg default] at differ
        exact absurd rfl differ
  simp only [Dialect.changesDefaultOnly, Bool.and_eq_true, decide_eq_true_eq, changed]

theorem alter_column_ok (dialect : Dialect) (source target : Column)
    (sourceCanonical : dialect.canonicalColumn source = .ok source)
    (targetCanonical : dialect.canonicalColumn target = .ok target) (named : source.name = target.name)
    (different : source.sameDefinition target = false) :
    ∃ action, dialect.alterColumn source target = .ok action ∧
      Dialect.Alters source target dialect action := by
  have differ := changed_of_different source target named different
  cases dialect with
  | postgres =>
      obtain ⟨type, known⟩ := type_sql_ok .postgres target.type
        (canonical_column_type .postgres target targetCanonical)
      exact ⟨_, by rw [Dialect.alterColumn, alter_actions_ok source target type known]; rfl,
        .actions type known differ⟩
  | mysql =>
      obtain ⟨definition, written⟩ := column_definition_ok .mysql target targetCanonical
      exact ⟨_, by rw [Dialect.alterColumn, written]; rfl, .modify definition written differ⟩
  | spanner =>
      have only := default_only_iff source target differ
        (spanner_generation source target sourceCanonical targetCanonical)
      unfold Dialect.alterColumn
      by_cases default : Dialect.changesDefaultOnly source target = true
      · rw [if_pos default]
        cases wanted : target.default with
        | some expression => exact ⟨_, rfl, .setDefault expression wanted (only.mp default).1⟩
        | none => exact ⟨_, rfl, .dropDefault wanted (only.mp default).1⟩
      · obtain ⟨definition, written⟩ := column_definition_ok .spanner target targetCanonical
        rw [if_neg default, written]
        exact ⟨_, rfl, .restate definition written differ
          (not_and_or.mp fun both => default (only.mpr both))⟩

/-! ### Operations -/

theorem table_lines_ok (dialect : Dialect) (table : Table)
    (canonical : ∀ c ∈ table.columns, dialect.canonicalColumn c = .ok c) : ∃ columns,
      table.columns.mapM dialect.columnDefinition = .ok columns ∧
        dialect.tableLines table = .ok (columns
          ++ (dialect.clauses table).map (dialect.tableConstraint table.name)
          ++ (table.indexes.filter dialect.isInline).map dialect.inlineIndex) := by
  obtain ⟨columns, written⟩ := pairs_exist _ table.columns fun c member =>
    column_definition_ok dialect c (canonical c member)
  have all := (map_m_ok _ _ _).mpr written
  exact ⟨columns, all, by rw [Dialect.tableLines, all]; rfl⟩

theorem create_table_ok (dialect : Dialect) (table : Table)
    (canonical : ∀ c ∈ table.columns, dialect.canonicalColumn c = .ok c) :
    ∃ statements, dialect.createTable table = .ok statements := by
  obtain ⟨columns, _, lines⟩ := table_lines_ok dialect table canonical
  unfold Dialect.createTable
  rw [lines]
  exact ⟨_, rfl⟩

theorem printable_renders (dialect : Dialect) (op : Operation) (printable : op.Printable dialect) :
    ∃ statements, dialect.render op = .ok statements := by
  have kept (c : Constraint) (spared : dialect = .spanner → c.isPrimaryKey = false) :
      ¬(dialect = .spanner && c.isPrimaryKey) = true := by
    rw [Bool.and_eq_true, decide_eq_true_eq]
    rintro ⟨same, primary⟩
    rw [spared same] at primary
    cases primary
  unfold Dialect.render
  cases op with
  | createTable table => exact create_table_ok dialect table printable
  | addColumn n c =>
      obtain ⟨definition, written⟩ := column_definition_ok dialect c printable
      exact ⟨_, by dsimp only; rw [written]; rfl⟩
  | alterColumnType n source target =>
      obtain ⟨first, second, named, different⟩ := printable
      obtain ⟨action, written, _⟩ := alter_column_ok dialect source target first second named different
      exact ⟨_, by dsimp only; rw [written]; rfl⟩
  | addConstraint n c | dropConstraint n c =>
      dsimp only
      rw [if_neg (kept c printable)]
      exact ⟨_, rfl⟩
  | dropTable | dropColumn | addIndex | dropIndex => exact ⟨_, rfl⟩

theorem render_all_ok (dialect : Dialect) (ops : List Operation)
    (printable : ∀ op ∈ ops, op.Printable dialect) :
    ∃ parts : List (List String),
      List.Forall₂ (fun op part => dialect.render op = .ok part) ops parts ∧
        dialect.renderAll ops = .ok parts.flatten := by
  obtain ⟨each, rendered⟩ := pairs_exist _ ops fun op member =>
    printable_renders dialect op (printable op member)
  refine ⟨each, rendered, ?_⟩
  unfold Dialect.renderAll
  rw [(map_m_ok _ _ _).mpr rendered]
  rfl

end SchemaDrift
