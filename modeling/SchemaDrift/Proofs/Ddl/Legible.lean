import SchemaDrift.Proofs.Ddl.PrintedSchema
import SchemaDrift.Proofs.Ddl.ReadTable
import SchemaDrift.Proofs.Ddl.RoundTrip
/-!
Which printed schemas are read back. Every schema that was read can be printed, and all it takes to
read it again is that each default and each check ends where the grammar has it end.
-/

set_option autoImplicit false

namespace SchemaDrift

open Grammar

/-! ### Expressions -/

-- The rule reads the text from its first character to its last, with no comment on the way.
def ReadsWhole (r : Rule) (text : List Char) : Prop :=
  commentFree false text = true ∧ ∃ tree, Accepts r text tree

theorem reads_whole (fuel : Nat) (r : Rule) (text : List Char) (free : commentFree false text = true)
    (read : (accepted? fuel r text).isSome = true) : ReadsWhole r text := by
  obtain ⟨tree, found⟩ := Option.isSome_iff_exists.mp read
  exact ⟨free, tree, fuel, found⟩

def Enclosable (e : List Char) : Prop :=
  Default.escapesQuote e = false ∧ ReadsWhole .parenGroup ('(' :: (e ++ [')']))

theorem enclosable_enclosed (e : List Char) (enclosable : Enclosable e) : Default.Enclosed e := by
  obtain ⟨plain, free, tree, accepted⟩ := enclosable
  obtain ⟨inner, same, body⟩ := group_accepted _ tree free accepted
  cases same
  exact ⟨body, plain⟩

theorem number_run (e : List Char) (number : Default.isNumber e = true) : Run tokenEnd e [] := by
  have other (c : Char) (member : c ∈ e) : tokenEnd.meets c = false := by
    have char := Default.number_chars e number c member
    refine Bool.eq_false_iff.mpr fun meets => ?_
    change (isSpace c || decide (c = ',') || decide (c = '(') || decide (c = ')')
      || decide (c = '\'') || decide (c = ';')) = true at meets
    simp only [isSpace, Bool.or_eq_true, decide_eq_true_eq] at meets
    rcases meets with (((((((rfl | rfl) | rfl) | rfl) | rfl) | rfl) | rfl) | rfl) | rfl <;>
      simp at char
  have bare : opensComment e = false := by
    unfold opensComment
    split
    · simp [Default.isNumber] at number
    · have slash := Default.number_chars _ number '/' List.mem_cons_self
      simp at slash
    · rfl
  cases e with
  | nil => cases number
  | cons c e =>
      exact ⟨⟨c, e, rfl, token_solid c (other c List.mem_cons_self)⟩, other, by rintro d ⟨⟩, bare⟩

theorem literal_term (e : List Char) (literal : Default.isLiteral e = true)
    (quoted : Default.isQuoted e = true → StringLiteral e) : Term e [] := by
  have word (c : Char) (s : List Char) (solid : isSpace c = false)
      (inside : (c :: s).all (!tokenEnd.meets ·) = true) (bare : opensComment (c :: s) = false) :
      Term (c :: s) [] := by
    refine .token _ [] ⟨⟨c, s, rfl, solid⟩, fun d member => ?_, by rintro d ⟨⟩, bare⟩
    exact (Bool.not_eq_true' _).mp (List.all_eq_true.mp inside d member)
  rcases Bool.or_eq_true_iff.mp literal with simple | keyword
  · rcases Bool.or_eq_true_iff.mp simple with number | quotes
    · exact .token e [] (number_run e number)
    · exact .literal e [] (quoted quotes) (by rintro ⟨⟩)
  · have known := List.mem_map_of_mem (f := String.toList) (List.contains_iff_mem.mp keyword)
    rw [String.toList_ofList] at known
    simp only [Default.keywords, List.map_cons, List.map_nil, List.mem_cons, List.not_mem_nil,
      or_false] at known
    rcases known with rfl | rfl | rfl | rfl | rfl | rfl
    all_goals exact word _ _ rfl rfl rfl

structure Dialect.WholeDefault (dialect : Dialect) (e : String) : Prop where
  bare : dialect = .postgres → ReadsWhole .defaultExpr e.toList
  quoted : dialect = .mysql → Default.isQuoted e.toList = true → StringLiteral e.toList
  enclosed : dialect.defaultSql e ≠ e → Enclosable e.toList

-- PostgreSQL writes each default as it is kept, MySQL the literals, and Spanner none.
theorem default_sql_cases (dialect : Dialect) (e : String) :
    dialect.defaultSql e = e ∧ (dialect = .postgres ∨
        dialect = .mysql ∧ Default.isLiteral e.toList = true) ∨
      dialect.defaultSql e ≠ e ∧ dialect ≠ .postgres ∧
        (dialect.defaultSql e).toList = '(' :: (e.toList ++ [')']) := by
  have text : ("(" ++ e ++ ")").toList = '(' :: (e.toList ++ [')']) := by simp
  have other : "(" ++ e ++ ")" ≠ e := by
    intro same
    have lengths := congrArg List.length (text.symm.trans (congrArg String.toList same))
    simp at lengths
    omega
  cases dialect with
  | postgres => exact .inl ⟨rfl, .inl rfl⟩
  | spanner => exact .inr ⟨other, by decide, text⟩
  | mysql =>
      by_cases literal : Default.isLiteral e.toList = true
      · exact .inl ⟨if_pos literal, .inr ⟨rfl, literal⟩⟩
      · have enclosed : Dialect.mysql.defaultSql e = "(" ++ e ++ ")" := if_neg literal
        rw [enclosed]
        exact .inr ⟨other, by decide, text⟩

theorem normalize_default_enclosed (dialect : Dialect) (e : String) (other : dialect ≠ .postgres)
    (normal : dialect.normalizeDefault e.toList = some e) (enclosed : Default.Enclosed e.toList) :
    dialect.normalizeDefault ('(' :: (e.toList ++ [')'])) = some e := by
  have plain (s : List Char) :
      dialect.normalizeDefault s = (Default.normalize s).map String.ofList := by
    cases dialect with
    | postgres => exact absurd rfl other
    | mysql | spanner => rfl
  rw [plain] at normal ⊢
  obtain ⟨s, found, rfl⟩ := Option.map_eq_some_iff.mp normal
  have kept := Default.normalize_normal _ s found
  rw [String.toList_ofList] at enclosed ⊢
  rw [Default.normalize_enclosed s kept enclosed]
  rfl

theorem whole_default_legible (dialect : Dialect) (e : String)
    (normal : dialect.normalizeDefault e.toList = some e) (whole : dialect.WholeDefault e) :
    dialect.LegibleDefault e := by
  rcases default_sql_cases dialect e with ⟨same, rfl | ⟨rfl, literal⟩⟩ | ⟨different, other, text⟩
  · obtain ⟨free, tree, accepted⟩ := whole.bare rfl
    obtain ⟨t, s, parts, first, later⟩ := default_accepted _ tree free accepted
    exact ⟨⟨t, s, by rw [same, parts], first, later⟩, by rw [same, normal]⟩
  · have term := literal_term e.toList literal (whole.quoted rfl)
    exact ⟨⟨e.toList, [], by rw [same, List.append_nil], term, .done [] (List.forall_mem_nil _)⟩,
      by rw [same, normal]⟩
  · have enclosed := enclosable_enclosed _ (whole.enclosed different)
    refine ⟨⟨_, [], by rw [text, List.append_nil], .group _ [] enclosed.group,
      .done [] (List.forall_mem_nil _)⟩, ?_⟩
    rw [text]
    exact normalize_default_enclosed dialect e other normal enclosed

theorem stripped_steady (e : String) (stripped : Default.stripParens e.toList = e.toList)
    (enclosed : Default.Enclosed e.toList) : SteadyCheck e := by
  rw [SteadyCheck, Default.strip_parens_enclosed _ enclosed stripped, String.ofList_toList]

/-! ### Tables -/

-- What is left to the texts of a table: that its expressions end where they are meant to, that a
-- definition that is written as it stands gives the column when it is read by itself, and in Spanner,
-- where names can stand without quotes, that none is taken for a keyword.
structure Dialect.Legible (dialect : Dialect) (t : Table) : Prop where
  defaults : ∀ c ∈ t.columns, c.rawDefinition = none → ∀ e, c.default = some e →
    dialect.WholeDefault e
  definitions : ∀ c ∈ t.columns, ∀ raw, c.rawDefinition = some raw → dialect.Defines t c raw
  checks : ∀ c ∈ t.constraints, ∀ e, c.kind = .check e → Enclosable e.toList
  names : dialect = .spanner → dialect.NamesApart t

theorem names_apart (dialect : Dialect) (t : Table)
    (spanner : dialect = .spanner → dialect.NamesApart t) : dialect.NamesApart t := by
  by_cases bare : dialect = .spanner
  · exact spanner bare
  · exact ⟨always_apart dialect _ _ bare, fun c _ => always_apart dialect _ _ bare,
      fun i _ => always_apart dialect _ _ bare⟩

theorem legible_column (dialect : Dialect) (t : Table) (wf : t.WellFormed)
    (legible : dialect.Legible t) (c : Column) (member : c ∈ t.columns) (narrow : c.type.Narrow)
    (fixed : dialect.canonicalColumn c = .ok c) : dialect.ReadableColumn c ∧ dialect.Agrees t c := by
  cases raw : c.rawDefinition with
  | none =>
      refine ⟨⟨fixed, fun _ => ⟨fixed, narrow, raw, fun e default => ?_⟩, ?_⟩,
        made_agrees dialect t wf c member raw fixed⟩
      · refine whole_default_legible dialect e ?_ (legible.defaults c member raw e default)
        obtain ⟨-, type, -, same⟩ := (canonical_column_ok dialect c c).mp fixed
        have normal := congrArg Column.default same
        rw [default] at normal
        exact normal.symm
      · rw [raw]
        rintro definition ⟨⟩
  | some definition =>
      have defines := legible.definitions c member definition raw
      refine ⟨⟨fixed, ?_, ?_⟩, defines.agrees⟩
      · rw [raw]
        rintro ⟨⟩
      · rw [raw]
        rintro _ ⟨⟩
        exact ⟨defines.bare, defines.reads⟩

theorem legible_table (dialect : Dialect) (t : Table) (image : dialect.Image t t)
    (writable : Writable t.columns t.constraints t.options) (wf : t.WellFormed)
    (legible : dialect.Legible t) :
    dialect.LegibleTable t ∧ (∀ c ∈ t.columns, dialect.Agrees t c) ∧ ∀ c ∈ t.constraints, c.Steady := by
  have enclosed (c : Constraint) (member : c ∈ t.constraints) (e : String) (check : c.kind = .check e) :
      Default.Enclosed e.toList := enclosable_enclosed _ (legible.checks c member e check)
  have columns (c : Column) (member : c ∈ t.columns) :=
    legible_column dialect t wf legible c member (writable.types c member)
      (List.forall₂_same.mp image.columns c member)
  refine ⟨⟨names_apart dialect t legible.names, fun c member => (columns c member).1,
    fun c member e check => (enclosed c member e check).group, writable.options⟩,
    fun c member => (columns c member).2, fun c member e check =>
      stripped_steady e (writable.checks c member e check) (enclosed c member e check)⟩

/-! ### Schemas -/

theorem legible_read_back (dialect : Dialect) (schema image : Schema) (valid : schema.Validated)
    (canonical : dialect.canonicalize schema = .ok image)
    (writable : ∀ t ∈ schema.tables, Writable t.columns t.constraints t.options) :
    ∃ printed, dialect.printSchema schema = .ok printed ∧
      ((∀ t ∈ image.tables, dialect.Legible t) → dialect.ReadsBack schema) := by
  obtain ⟨pairs, accepts⟩ := (canonicalize_iff dialect schema image valid).mp canonical
  have wf := image_well_formed dialect schema image valid canonical
  have images (u : Table) (member : u ∈ image.tables) : dialect.Image u u ∧ dialect.Accepts u ∧
      Writable u.columns u.constraints u.options := by
    obtain ⟨t, among, made⟩ := partner_of_right _ _ _ pairs u member
    exact ⟨image_fixed dialect t u made, accepts_image dialect t u made (accepts t among),
      image_writable dialect t u made (writable t among)⟩
  obtain ⟨parts, -, written⟩ := render_all_ok dialect image.creation <|
    creation_printable dialect image wf fun t member =>
      List.forall₂_same.mp (images t member).1.columns
  have printed : dialect.printSchema schema = .ok (script parts.flatten) :=
    (bind_ok _ _ _).mpr ⟨image, canonical, (bind_ok _ _ _).mpr ⟨parts.flatten, written, rfl⟩⟩
  refine ⟨script parts.flatten, printed, fun legible => ?_⟩
  have tables (t : Table) (member : t ∈ image.tables) := legible_table dialect t
    (images t member).1 (images t member).2.2 (wf.tables t member) (legible t member)
  obtain ⟨again, copy, read, second, same⟩ := image_read_back dialect image wf
    (fun t member => (images t member).1) (fun t member => (images t member).2.1)
    (fun t member => (tables t member).1) (fun t member => (tables t member).2.1)
    (fun t member => (tables t member).2.2) parts.flatten written
  exact ⟨script parts.flatten, again, image, copy, printed, read, canonical, second, same⟩

theorem printed_read_back (dialect : Dialect) (text : List Char) (schema : Schema)
    (parsed : dialect.parse text = .ok schema) :
    ∃ image printed, dialect.canonicalize schema = .ok image ∧
      dialect.printSchema schema = .ok printed ∧
        ((∀ t ∈ image.tables, (∀ c ∈ t.columns, c.rawDefinition = none) → dialect.Legible t) →
          dialect.ReadsBack schema) := by
  have valid := parse_validated dialect text schema parsed
  obtain ⟨image, canonical⟩ := parsed_canonicalizes dialect text schema parsed
  obtain ⟨-, -, tables⟩ := parsed_tables dialect text schema parsed
  obtain ⟨printed, print, back⟩ := legible_read_back dialect schema image valid canonical
    fun t member => (tables t member).1
  refine ⟨image, printed, canonical, print, fun legible => back fun u member => ?_⟩
  obtain ⟨t, among, made⟩ := partner_of_right _ _ _
    ((canonicalize_iff dialect schema image valid).mp canonical).1 u member
  exact legible u member (image_made dialect t u made fun c inside => ((tables t among).2 c inside).made)

theorem plain_legible (dialect : Dialect) (t : Table) (made : ∀ c ∈ t.columns, c.rawDefinition = none)
    (defaults : ∀ c ∈ t.columns, ∀ e, c.default = some e → dialect.WholeDefault e)
    (checks : ∀ c ∈ t.constraints, ∀ e, c.kind = .check e → Enclosable e.toList)
    (names : dialect = .spanner → dialect.NamesApart t) : dialect.Legible t := by
  refine ⟨fun c member _ => defaults c member, fun c member raw given => ?_, checks, names⟩
  rw [made c member] at given
  cases given

-- PostgreSQL has no parentheses around a default, so that each must be one expression by itself.
theorem postgres_schemas_read_back (text : List Char) (schema : Schema)
    (parsed : Dialect.postgres.parse text = .ok schema) :
    ∃ image printed, Dialect.postgres.canonicalize schema = .ok image ∧
      Dialect.postgres.printSchema schema = .ok printed ∧
        ((∀ t ∈ image.tables,
            (∀ c ∈ t.columns, ∀ e, c.default = some e → ReadsWhole .defaultExpr e.toList) ∧
              ∀ c ∈ t.constraints, ∀ e, c.kind = .check e → Enclosable e.toList) →
          Dialect.postgres.ReadsBack schema) := by
  obtain ⟨image, printed, canonical, print, back⟩ := printed_read_back .postgres text schema parsed
  refine ⟨image, printed, canonical, print, fun whole => back fun t member made => ?_⟩
  obtain ⟨defaults, checks⟩ := whole t member
  refine plain_legible .postgres t made
    (fun c inside e default => ⟨fun _ => defaults c inside e default, ?_, ?_⟩) checks ?_
  · rintro ⟨⟩
  · exact fun other => absurd rfl other
  · rintro ⟨⟩

namespace Tasks

def text : List Char :=
  ("CREATE TABLE task (id BIGSERIAL PRIMARY KEY, owner BIGINT REFERENCES person (id), "
    ++ "note TEXT DEFAULT 'it''s new', CHECK ((id) > 0)); "
    ++ "CREATE TABLE person (id BIGINT PRIMARY KEY);").toList

def task : Table where
  name := "task"
  columns :=
    [{ name := "id", type := { base := .bigInt }, autoIncrement := true },
      { name := "owner", type := { base := .bigInt }, nullable := true },
      { name := "note", type := { base := .text }, nullable := true, default := some "'it''s new'" }]
  primaryKey := some (.primaryKey ["id"])
  constraints :=
    [.foreignKey ["owner"] { table := "person", columns := ["id"] },
      { columns := [], kind := .check "(id) > 0" }]
  ordinal := 0

def person : Table where
  name := "person"
  columns := [{ name := "id", type := { base := .bigInt } }]
  primaryKey := some (.primaryKey ["id"])
  ordinal := 1

def schema : Schema where
  tables := [task, person]

end Tasks

theorem tasks_read_back : Dialect.postgres.parse Tasks.text = .ok Tasks.schema ∧
    Dialect.postgres.ReadsBack Tasks.schema := by
  have parsed : Dialect.postgres.parse Tasks.text = .ok Tasks.schema :=
    ok_of_option _ _ (by decide +kernel)
  have canonical : Dialect.postgres.canonicalize Tasks.schema = .ok Tasks.schema :=
    ok_of_option _ _ (by decide +kernel)
  obtain ⟨image, printed, same, -, back⟩ := postgres_schemas_read_back Tasks.text Tasks.schema parsed
  rw [canonical] at same
  cases same
  have note : ReadsWhole .defaultExpr "'it''s new'".toList :=
    reads_whole 60 _ _ (by decide +kernel) (by decide +kernel)
  have positive : Enclosable "(id) > 0".toList :=
    ⟨by decide +kernel, reads_whole 60 _ _ (by decide +kernel) (by decide +kernel)⟩
  refine ⟨parsed, back ?_⟩
  simpa [Tasks.schema, Tasks.task, Tasks.person, Constraint.foreignKey] using ⟨note, positive⟩

-- In MySQL a default without parentheses is a literal, if quotes at both ends are those of one.
theorem mysql_and_spanner_schemas_read_back (dialect : Dialect) (other : dialect ≠ .postgres)
    (text : List Char) (schema : Schema) (parsed : dialect.parse text = .ok schema) :
    ∃ image printed, dialect.canonicalize schema = .ok image ∧
      dialect.printSchema schema = .ok printed ∧
        ((∀ t ∈ image.tables,
            (∀ c ∈ t.columns, ∀ e, c.default = some e →
              if dialect.defaultSql e = e then Default.isQuoted e.toList = true → StringLiteral e.toList
              else Enclosable e.toList) ∧
            (∀ c ∈ t.constraints, ∀ e, c.kind = .check e → Enclosable e.toList) ∧
              (dialect = .spanner → dialect.NamesApart t)) →
          dialect.ReadsBack schema) := by
  obtain ⟨image, printed, canonical, print, back⟩ := printed_read_back dialect text schema parsed
  refine ⟨image, printed, canonical, print, fun whole => back fun t member made => ?_⟩
  obtain ⟨defaults, checks, names⟩ := whole t member
  refine plain_legible dialect t made (fun c inside e default => ?_) checks names
  have written := defaults c inside e default
  split at written
  case isTrue bare =>
    exact ⟨fun postgres => absurd postgres other, fun _ => written, fun enclosed => absurd bare enclosed⟩
  case isFalse enclosed =>
    refine ⟨fun postgres => absurd postgres other, ?_, fun _ => written⟩
    rintro rfl quoted
    have literal : Default.isLiteral e.toList = true := by simp [Default.isLiteral, quoted]
    exact absurd (if_pos literal) enclosed

namespace Titles

def text : List Char :=
  ("CREATE TABLE note (id BIGINT AUTO_INCREMENT PRIMARY KEY, title VARCHAR(80) NOT NULL DEFAULT 'new', "
    ++ "code TEXT DEFAULT (concat('a', title)), CHECK (id > 0)) engine=InnoDB; "
    ++ "CREATE UNIQUE INDEX by_title ON note (title);").toList

def note : Table where
  name := "note"
  columns :=
    [{ name := "id", type := { base := .bigInt }, autoIncrement := true },
      { name := "title", type := { base := .varchar, length := some (.fixed 80) },
        default := some "'new'" },
      { name := "code", type := { base := .text }, nullable := true,
        default := some "concat('a', title)" }]
  primaryKey := some (.primaryKey ["id"])
  indexes := [{ name := "by_title", columns := [{ name := "title" }], unique := true }]
  constraints := [{ columns := [], kind := .check "id > 0" }]
  options := [("ENGINE", "InnoDB")]
  ordinal := 0

def schema : Schema where
  tables := [note]

def image : Schema where
  tables := [{ note with
    indexes := []
    constraints := note.constraints ++
      [{ name := some "by_title", columns := ["title"], kind := .unique }] }]

end Titles

namespace Readings

def text : List Char :=
  ("CREATE TABLE reading (id INT64 NOT NULL, taken TIMESTAMP DEFAULT (current_timestamp())) "
    ++ "PRIMARY KEY (id);").toList

def reading : Table where
  name := "reading"
  columns :=
    [{ name := "id", type := { base := .bigInt } },
      { name := "taken", type := { base := .timestampTz }, nullable := true,
        default := some "current_timestamp()" }]
  primaryKey := some (.primaryKey ["id"])
  ordinal := 0

def schema : Schema where
  tables := [reading]

end Readings

theorem titles_and_readings_read_back :
    (Dialect.mysql.parse Titles.text = .ok Titles.schema ∧ Dialect.mysql.ReadsBack Titles.schema) ∧
      Dialect.spanner.parse Readings.text = .ok Readings.schema ∧
        Dialect.spanner.ReadsBack Readings.schema := by
  constructor
  case left =>
    have parsed : Dialect.mysql.parse Titles.text = .ok Titles.schema :=
      ok_of_option _ _ (by decide +kernel)
    have canonical : Dialect.mysql.canonicalize Titles.schema = .ok Titles.image :=
      ok_of_option _ _ (by decide +kernel)
    obtain ⟨image, printed, same, -, back⟩ :=
      mysql_and_spanner_schemas_read_back .mysql (by decide) Titles.text Titles.schema parsed
    rw [canonical] at same
    cases same
    have bare : Dialect.mysql.defaultSql "'new'" = "'new'" := by decide +kernel
    have quoted : Default.isQuoted "'new'".toList = true → StringLiteral "'new'".toList :=
      fun _ => ⟨_, rfl, .other _ _ (by decide) (by decide) <| .other _ _ (by decide) (by decide) <|
        .other _ _ (by decide) (by decide) .close⟩
    have called : Dialect.mysql.defaultSql "concat('a', title)" ≠ "concat('a', title)" := by
      decide +kernel
    have call : Enclosable "concat('a', title)".toList :=
      ⟨by decide +kernel, reads_whole 60 _ _ (by decide +kernel) (by decide +kernel)⟩
    have positive : Enclosable "id > 0".toList :=
      ⟨by decide +kernel, reads_whole 60 _ _ (by decide +kernel) (by decide +kernel)⟩
    refine ⟨parsed, back ?_⟩
    simpa [Titles.image, Titles.note, bare, called] using ⟨⟨quoted, call⟩, positive⟩
  case right =>
    have parsed : Dialect.spanner.parse Readings.text = .ok Readings.schema :=
      ok_of_option _ _ (by decide +kernel)
    have canonical : Dialect.spanner.canonicalize Readings.schema = .ok Readings.schema :=
      ok_of_option _ _ (by decide +kernel)
    obtain ⟨image, printed, same, -, back⟩ :=
      mysql_and_spanner_schemas_read_back .spanner (by decide) Readings.text Readings.schema parsed
    rw [canonical] at same
    cases same
    have called : Dialect.spanner.defaultSql "current_timestamp()" ≠ "current_timestamp()" := by
      decide +kernel
    have call : Enclosable "current_timestamp()".toList :=
      ⟨by decide +kernel, reads_whole 60 _ _ (by decide +kernel) (by decide +kernel)⟩
    have apart : Dialect.spanner.NamesApart Readings.reading := by
      refine ⟨fun _ => by decide +kernel, ?_, List.forall_mem_nil _⟩
      simp only [Readings.reading, List.forall_mem_cons]
      exact ⟨fun _ => by decide +kernel, fun _ => by decide +kernel, List.forall_mem_nil _⟩
    refine ⟨parsed, back ?_⟩
    simpa [Readings.schema, Readings.reading, called] using ⟨call, apart⟩

end SchemaDrift
