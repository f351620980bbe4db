import SchemaDrift.Dialect.Render
import SchemaDrift.Proofs.Ddl.Validated
import SchemaDrift.Proofs.Plan.Creation
import SchemaDrift.Proofs.Plan.Rendering
/-!
The names in the CONSTRAINT clauses of a printed table. A constraint without a name is printed with
one that is generated from the table, its columns and its kind, whatever the other names are, so two
constraints can come out with one name.
-/

set_option autoImplicit false

namespace SchemaDrift

def ConstraintKind.suffix : ConstraintKind → String
  | primaryKey => "pkey"
  | foreignKey _ => "fkey"
  | unique => "key"
  | check _ => "check"

namespace Dialect

def writtenNames (dialect : Dialect) (table : Table) : List String :=
  (dialect.clauses table).filterMap (dialect.writtenName? table.name)

-- Those that were given; the name of a primary key is written by PostgreSQL only.
def givenNames (dialect : Dialect) (table : Table) : List String :=
  ((if dialect = postgres then table.primaryKey.toList else []) ++ table.constraints).filterMap
    Constraint.name

end Dialect

def Table.unnamed (table : Table) : List Constraint := table.constraints.filter (·.name = none)

/-! ### Generated names -/

theorem effective_name_generated (c : Constraint) (table : String) (unnamed : c.name = none)
    (other : c.isPrimaryKey = false) :
    c.effectiveName table = "_".intercalate (table :: c.columns) ++ "_" ++ c.kind.suffix := by
  have joined : "_".intercalate (table :: c.columns ++ [c.kind.suffix])
      = "_".intercalate (table :: c.columns) ++ "_" ++ c.kind.suffix := by
    rw [String.intercalate_append_of_ne_nil (List.cons_ne_nil _ _) (List.cons_ne_nil _ _),
      String.intercalate_singleton]
  rw [← joined, Constraint.effectiveName, unnamed]
  cases kind : c.kind with
  | primaryKey => simp [Constraint.isPrimaryKey, kind] at other
  | _ => rfl

theorem first_mark_unique (mark : Char) (front other back rest : List Char) (first : mark ∉ front)
    (second : mark ∉ other) (same : front ++ mark :: back = other ++ mark :: rest) :
    front = other ∧ back = rest := by
  induction front generalizing other with
  | nil =>
      cases other with
      | nil => exact ⟨rfl, (List.cons.inj same).2⟩
      | cons d other => exact absurd (List.mem_cons.mpr (.inl (List.cons.inj same).1)) second
  | cons c front ih =>
      cases other with
      | nil => exact absurd (List.mem_cons.mpr (.inl (List.cons.inj same).1.symm)) first
      | cons d other =>
          obtain ⟨head, tail⟩ := List.cons.inj same
          obtain ⟨fronts, backs⟩ := ih other (fun member => first (List.mem_cons_of_mem c member))
            (fun member => second (List.mem_cons_of_mem d member)) tail
          exact ⟨by rw [head, fronts], backs⟩

theorem last_mark_unique (mark : Char) (front other back rest : List Char) (first : mark ∉ back)
    (second : mark ∉ rest) (same : front ++ mark :: back = other ++ mark :: rest) :
    front = other ∧ back = rest := by
  have flipped := congrArg List.reverse same
  simp only [List.reverse_append, List.reverse_cons, List.append_assoc, List.singleton_append]
    at flipped
  obtain ⟨backs, fronts⟩ := first_mark_unique mark back.reverse rest.reverse front.reverse
    other.reverse (by simpa using first) (by simpa using second) flipped
  exact ⟨List.reverse_inj.mp fronts, List.reverse_inj.mp backs⟩

theorem suffix_unbroken (kind : ConstraintKind) : '_' ∉ kind.suffix.toList := by
  cases kind <;> simp [ConstraintKind.suffix]

theorem joined_columns (columns : List String) (named : "" ∉ columns)
    (empty : "_".intercalate columns = "") : columns = [] := by
  cases columns with
  | nil => rfl
  | cons first rest =>
      have length := congrArg String.length empty
      have some : first.length ≠ 0 := by
        intro zero
        exact named (List.mem_cons.mpr (.inl (String.length_eq_zero_iff.mp zero).symm))
      cases rest with
      | nil =>
          rw [String.intercalate_singleton] at length
          exact absurd length some
      | cons second rest =>
          rw [String.intercalate_cons_cons, String.length_append, String.length_append] at length
          simp at length

theorem table_apart (table : String) (columns : List String) (inhabited : columns ≠ []) :
    "_".intercalate (table :: columns) ≠ table := by
  intro same
  have mark : "_".length = 1 := rfl
  have length := congrArg String.length same
  rw [String.intercalate_cons_of_ne_nil inhabited, String.length_append, String.length_append, mark]
    at length
  omega

theorem joined_same_iff (table : String) (k l : List String) (named : "" ∉ k) (alsoNamed : "" ∉ l) :
    "_".intercalate (table :: k) = "_".intercalate (table :: l) ↔
      "_".intercalate k = "_".intercalate l := by
  by_cases first : k = []
  · by_cases second : l = []
    · rw [first, second]
      exact ⟨fun _ => rfl, fun _ => rfl⟩
    · rw [first, String.intercalate_singleton, String.intercalate_nil]
      exact ⟨fun same => absurd same.symm (table_apart table l second),
        fun same => absurd (joined_columns l alsoNamed same.symm) second⟩
  · by_cases second : l = []
    · rw [second, String.intercalate_singleton, String.intercalate_nil]
      exact ⟨fun same => absurd same (table_apart table k first),
        fun same => absurd (joined_columns k named same) first⟩
    · rw [String.intercalate_cons_of_ne_nil first, String.intercalate_cons_of_ne_nil second]
      refine ⟨fun same => ?_, fun same => by rw [same]⟩
      have chars := congrArg String.toList same
      simp only [String.toList_append] at chars
      exact String.toList_inj.mp (List.append_cancel_left chars)

theorem generated_same_iff (c d : Constraint) (table : String) (unnamed : c.name = none)
    (alsoUnnamed : d.name = none) (other : c.isPrimaryKey = false) (another : d.isPrimaryKey = false)
    (named : "" ∉ c.columns) (alsoNamed : "" ∉ d.columns) :
    c.effectiveName table = d.effectiveName table ↔
      c.kind.suffix = d.kind.suffix ∧ "_".intercalate c.columns = "_".intercalate d.columns := by
  rw [effective_name_generated c table unnamed other,
    effective_name_generated d table alsoUnnamed another,
    ← joined_same_iff table c.columns d.columns named alsoNamed]
  constructor
  · intro same
    have chars := congrArg String.toList same
    simp only [String.toList_append, List.append_assoc] at chars
    obtain ⟨fronts, suffixes⟩ := last_mark_unique '_' _ _ _ _ (suffix_unbroken c.kind)
      (suffix_unbroken d.kind) chars
    exact ⟨String.toList_inj.mp suffixes, String.toList_inj.mp fronts⟩
  · rintro ⟨suffix, columns⟩
    rw [suffix, columns]

/-! ### One table -/

section Table

variable (dialect : Dialect) (t : Table) (wf : t.WellFormed)

theorem names_split (l : List Constraint) (table : String) :
    (l.map (·.effectiveName table)).Perm (l.filterMap Constraint.name
      ++ (l.filter (·.name = none)).map (·.effectiveName table)) := by
  induction l with
  | nil => exact .nil
  | cons c l ih =>
      cases name : c.name with
      | some given =>
          have own : c.effectiveName table = given := by rw [Constraint.effectiveName, name]
          rw [List.map_cons, List.filterMap_cons_some name, List.filter_cons_of_neg (by simp [name]),
            own]
          exact ih.cons given
      | none =>
          rw [List.map_cons, List.filterMap_cons_none name, List.filter_cons_of_pos (by simp [name])]
          exact (ih.cons _).trans List.perm_middle.symm

include wf

theorem written_names_split : (dialect.writtenNames t).Perm
    (dialect.givenNames t ++ t.unnamed.map (·.effectiveName t.name)) := by
  have keys : (if dialect = .spanner then [] else t.primaryKey.toList).filterMap
      (dialect.writtenName? t.name)
      = (if dialect = .postgres then t.primaryKey.toList else []).filterMap Constraint.name := by
    cases found : t.primaryKey with
    | none => cases dialect <;> rfl
    | some key =>
        have primary := wf.placed.keys key (by simp [Table.toDraft, found])
        have written : dialect.writtenName? t.name key
            = if dialect = .postgres then key.name else none := by
          rw [Dialect.writtenName?, if_pos primary]
        cases dialect <;> simp [List.filterMap_cons, written]
  have others : t.constraints.filterMap (dialect.writtenName? t.name)
      = t.constraints.map (·.effectiveName t.name) := by
    rw [← List.filterMap_eq_map]
    refine List.filterMap_congr fun c member => ?_
    rw [Dialect.writtenName?, wf.placed.constraints c member, if_neg Bool.false_ne_true]
    rfl
  rw [Dialect.writtenNames, Dialect.clauses, Dialect.givenNames, List.filterMap_append,
    List.filterMap_append, keys, others, List.append_assoc]
  exact (names_split t.constraints t.name).append_left _

theorem unnamed_generated (c : Constraint) (member : c ∈ t.unnamed) :
    c.name = none ∧ c.isPrimaryKey = false ∧ "" ∉ c.columns := by
  obtain ⟨own, unnamed⟩ := List.mem_filter.mp member
  refine ⟨of_decide_eq_true unnamed, wf.placed.constraints c own, fun empty => ?_⟩
  rcases (wf.sound.constraints c own).columns with ⟨_, none⟩ | listed
  · rw [none] at empty
    cases empty
  · exact wf.sound.columnsNamed (listed.2.2 "" empty)

theorem written_names_nodup_iff : (dialect.writtenNames t).Nodup ↔ (dialect.givenNames t).Nodup ∧
    (∀ c ∈ t.unnamed, c.effectiveName t.name ∉ dialect.givenNames t) ∧
      t.unnamed.Pairwise fun c d => c.kind.suffix = d.kind.suffix →
        "_".intercalate c.columns ≠ "_".intercalate d.columns := by
  have generated : (t.unnamed.map (·.effectiveName t.name)).Nodup ↔ t.unnamed.Pairwise fun c d =>
      c.kind.suffix = d.kind.suffix → "_".intercalate c.columns ≠ "_".intercalate d.columns := by
    rw [List.Nodup, List.pairwise_map]
    refine List.Pairwise.iff_of_mem fun {c d} first second => ?_
    obtain ⟨unnamed, other, named⟩ := unnamed_generated t wf c first
    obtain ⟨alsoUnnamed, another, alsoNamed⟩ := unnamed_generated t wf d second
    rw [Ne, generated_same_iff c d t.name unnamed alsoUnnamed other another named alsoNamed, not_and]
  rw [(written_names_split dialect t wf).nodup_iff, List.nodup_append, generated]
  constructor
  · rintro ⟨given, apart, disjoint⟩
    exact ⟨given, fun c member taken => disjoint _ taken _ (List.mem_map_of_mem member) rfl, apart⟩
  · rintro ⟨given, free, apart⟩
    refine ⟨given, apart, fun name taken other listed same => ?_⟩
    obtain ⟨c, member, rfl⟩ := List.mem_map.mp listed
    exact free c member (same ▸ taken)

end Table

/-! ### Printed schemas -/

-- A printed table is one of the schema's, less foreign keys that are added later.
theorem creation_table (schema : Schema) (t : Table) (created : .createTable t ∈ schema.creation) :
    ∃ s ∈ schema.tables, ∃ split, t = CreationOrder.without s split := by
  rw [Schema.creation, creations_from_turns] at created
  rcases List.mem_append.mp created with table | added
  · obtain ⟨placed, listed, same⟩ := List.mem_map.mp table
    obtain ⟨turn, inside, rfl⟩ := List.mem_map.mp listed
    cases same
    have member : turn.1 ∈ schema.tables := by
      rw [← turns_from_tables [] schema.tables]
      exact List.mem_map_of_mem inside
    exact ⟨turn.1, member, _, rfl⟩
  · obtain ⟨turn, _, inside⟩ := List.mem_flatMap.mp added
    have table := (deferred_operation turn _ inside).1
    cases table

-- The names in the CONSTRAINT clauses of a printed table are distinct exactly when those that were
-- given are, no generated name is among them, and no two constraints without a name are of one kind
-- with columns that give the same text when they are joined. Then the name by which a constraint is
-- dropped stands in one clause.
theorem printed_names_distinct_iff (dialect : Dialect) (text : List Char) (schema image : Schema)
    (t : Table) (parsed : dialect.parse text = .ok schema)
    (canonical : dialect.canonicalize schema = .ok image) (created : .createTable t ∈ image.creation) :
    (∃ columns, t.columns.mapM dialect.columnDefinition = .ok columns ∧
      dialect.tableLines t = .ok (columns ++ (dialect.clauses t).map (dialect.tableConstraint t.name)
        ++ (t.indexes.filter dialect.isInline).map dialect.inlineIndex)) ∧
    ((dialect.writtenNames t).Nodup ↔ (dialect.givenNames t).Nodup ∧
      (∀ c ∈ t.unnamed, c.effectiveName t.name ∉ dialect.givenNames t) ∧
        t.unnamed.Pairwise fun c d => c.kind.suffix = d.kind.suffix →
          "_".intercalate c.columns ≠ "_".intercalate d.columns) ∧
    ((dialect.writtenNames t).Nodup → ∀ c ∈ t.constraints,
      (dialect.writtenNames t).count (c.effectiveName t.name) = 1) := by
  have valid := parse_validated dialect text schema parsed
  obtain ⟨s, member, split, rfl⟩ := creation_table image t created
  have wf := without_well_formed s split
    ((image_well_formed dialect schema image valid canonical).tables s member)
  refine ⟨table_lines_ok dialect _ ?_, written_names_nodup_iff dialect _ wf, fun distinct c own => ?_⟩
  · exact image_columns_canonical dialect schema image valid canonical s member
  · refine List.count_eq_one_of_mem distinct (List.mem_filterMap.mpr ⟨c, ?_, ?_⟩)
    · exact List.mem_append_right _ own
    · rw [Dialect.writtenName?, wf.placed.constraints c own, if_neg Bool.false_ne_true]

/-! ### A column with limits -/

namespace Limits

def table (constraints : List Constraint) : Table where
  name := "t"
  columns := [{ name := "a", type := { base := .bigInt }, nullable := true }]
  constraints := constraints
  ordinal := 0

def clashing : Table := table [.check [] "a > 0", .check [] "a < 10"]

def apart : Table := table [.check [] "a > 0", .unique ["a"]]

end Limits

theorem limits_apart : (Dialect.postgres.writtenNames Limits.apart).Nodup ∧
    (Dialect.postgres.writtenNames Limits.apart).count "t_check" = 1 := by
  obtain ⟨_, distinct, once⟩ := printed_names_distinct_iff .postgres
    "CREATE TABLE t (a BIGINT, CHECK (a > 0), UNIQUE (a));".toList { tables := [Limits.apart] }
    { tables := [Limits.apart] } Limits.apart (by decide +kernel) (by decide +kernel)
    (by decide +kernel)
  have written := distinct.mpr (by decide +kernel)
  exact ⟨written, once written (.check [] "a > 0") (by decide)⟩

-- Neither CHECK has a name, and both are written with the name t_check.
theorem unnamed_checks_clash : ¬∀ dialect text schema image t, Dialect.parse dialect text = .ok schema →
    dialect.canonicalize schema = .ok image → .createTable t ∈ image.creation →
    ((t.primaryKey.toList ++ t.constraints).filterMap Constraint.name).Nodup →
    (dialect.writtenNames t).Nodup := by
  intro always
  have distinct := always .postgres
    "CREATE TABLE t (a BIGINT, CHECK (a > 0), CHECK (a < 10));".toList { tables := [Limits.clashing] }
    { tables := [Limits.clashing] } Limits.clashing (by decide +kernel) (by decide +kernel)
    (by decide +kernel) (by decide)
  revert distinct
  decide

end SchemaDrift
