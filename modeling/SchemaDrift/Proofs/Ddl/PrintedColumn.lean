import SchemaDrift.Proofs.Ddl.Corresponding
import SchemaDrift.Proofs.Ddl.NameList
import SchemaDrift.Proofs.Ddl.PrintedType
import SchemaDrift.Proofs.Dialect.Idempotent
import SchemaDrift.Proofs.Grammar.DefaultTerm
/-!
A column in canonical form is read back from the line that a dialect writes for it. What it takes is
that the default can be told from the clauses around it.
-/

set_option autoImplicit false

namespace SchemaDrift

open Grammar

/-! ### The type -/

structure Dialect.Spells (dialect : Dialect) (column : Column) (spelled : NativeType) : Prop where
  plain : spelled.Plain
  flat : spelled.arrayDepth ≤ 1
  known : dialect.columnType spelled = .ok column.type
  generated : dialect.impliesAutoIncrement spelled
    = (decide (dialect = .postgres) && column.autoIncrement)

-- A generated integer is canonical as an integer, whatever its size.
theorem serial_type (type : ColumnType) (name : String) (serial : Postgres.serial? type = some name) :
    ∃ base, Dialect.postgres.columnType (.plain name) = .ok { base } ∧
      Dialect.postgres.canonicalType type = .ok { base } ∧ isTypeName name = true ∧
      Dialect.postgres.impliesAutoIncrement (.plain name) = true := by
  have canonical (native : String) (flat : type.array = false)
      (named : Postgres.scalarNative type = .plain native) :
      Dialect.postgres.canonicalType type = Dialect.postgres.columnType (.plain native) := by
    show Dialect.postgres.columnType (Postgres.nativeType type) = _
    simp [Postgres.nativeType, flat, named]
  unfold Postgres.serial? at serial
  split at serial
  case h_1 base flat =>
    cases serial
    exact ⟨.smallInt, rfl, canonical "SMALLINT" flat (by simp [Postgres.scalarNative, base]), by decide,
      by decide⟩
  case h_2 base flat =>
    cases serial
    exact ⟨.integer, rfl, canonical "INTEGER" flat (by simp [Postgres.scalarNative, base]), by decide,
      by decide⟩
  case h_3 base flat =>
    cases serial
    exact ⟨.bigInt, rfl, canonical "BIGINT" flat (by simp [Postgres.scalarNative, base]), by decide,
      by decide⟩
  case h_4 => cases serial

theorem column_spelled (dialect : Dialect) (column : Column) (sql : String)
    (fixed : dialect.canonicalColumn column = .ok column) (narrow : column.type.Narrow)
    (written : dialect.columnTypeSql column = .ok sql) :
    ∃ spelled, sql = dialect.nativeSql spelled ∧ dialect.Spells column spelled := by
  obtain ⟨-, type, canonical, same⟩ := (canonical_column_ok dialect column column).mp fixed
  obtain rfl : column.type = type := congrArg Column.type same
  unfold Dialect.columnTypeSql at written
  split at written
  case isTrue serial =>
    rw [Bool.and_eq_true, decide_eq_true_eq] at serial
    obtain ⟨rfl, generated⟩ := serial
    cases found : Postgres.serial? column.type with
    | none =>
        rw [found] at written
        cases written
    | some name =>
        rw [found] at written
        cases written
        obtain ⟨base, known, other, plain, implied⟩ := serial_type column.type _ found
        refine ⟨.plain _, by simp [Dialect.nativeSql, NativeType.sql, NativeType.scalarSql,
          NativeType.plain], ⟨plain, List.forall_mem_nil _, rfl, rfl⟩, Nat.zero_le 1, ?_, ?_⟩
        · exact known.trans (other.symm.trans canonical)
        · rw [implied, generated]
          rfl
  case isFalse other =>
    rw [Bool.not_eq_true] at other
    cases spelling : dialect.nativeType column.type with
    | error reason =>
        rw [Dialect.typeSql, spelling] at written
        cases written
    | ok spelled =>
        rw [Dialect.typeSql, spelling] at written
        cases written
        obtain ⟨depth, flat, writes⟩ := native_writes dialect column.type spelled narrow spelling
        rw [Dialect.canonicalType, spelling] at canonical
        exact ⟨spelled, rfl, writes.plain, writes.dimensions ▸ flat, canonical,
          writes.given.trans other.symm⟩

/-! ### Clauses -/

def IsClause (dialect : Dialect) (clause : Ddl.ColumnClause) (tree : Tree) : Prop :=
  ∃ inner, tree.children = [inner] ∧ Ddl.columnClause dialect inner = .ok clause

theorem clause_read (dialect : Dialect) (r : Rule) (c : Char) (text rest : List Char)
    (clause : Ddl.ColumnClause) (head : (text ++ rest).head? = some c) (solid : isSolid c = true)
    (picks : columnClauses.picks c r = true)
    (reads : ReadsAs r text rest fun tree => Ddl.columnClause dialect tree = .ok clause) :
    ReadsAs .columnClause text rest (IsClause dialect clause) := by
  obtain ⟨left, tree, given, leaves, -, meant⟩ := reads
  have chosen := picked_given _ _ _ columnClauses r c head solid picks given
  exact ⟨left, _, gives_rule .columnClause chosen, leaves, rfl, tree, rfl, meant⟩

theorem not_null_read (dialect : Dialect) (rest : List Char) (apart : CharSet.identifier.Ends rest) :
    ReadsAs .columnClause "NOT NULL".toList rest (IsClause dialect (.nullable false)) := by
  have parts := parts_word .not "NOT".toList rfl (keyword_solid .null "NULL".toList rest rfl)
    (.last (keyword_read .null "NULL".toList rest rfl apart))
  exact clause_read dialect .notNull 'N' _ rest _ rfl rfl rfl
    (sequence_read .notNull _ _ "NOT NULL".toList rest rest _ _ rfl rfl parts rfl rfl)

theorem auto_increment_read (rest : List Char) (apart : CharSet.identifier.Ends rest) :
    ReadsAs .columnClause "AUTO_INCREMENT".toList rest (IsClause .mysql .autoIncrement) := by
  have word : Gives .free (.kw .autoIncrement) ("AUTO_INCREMENT".toList ++ rest) _ :=
    keyword_read .autoIncrement "AUTO_INCREMENT".toList rest rfl apart
  exact clause_read .mysql .autoIncrement 'A' _ rest _ rfl rfl rfl
    (sequence_read .autoIncrement _ _ _ rest rest _ _ rfl rfl (.last word) rfl rfl)

/-! ### Defaults -/

structure Dialect.LegibleDefault (dialect : Dialect) (e : String) : Prop where
  terms : ∃ t s, (dialect.defaultSql e).toList = t ++ s ∧ Term t s ∧ Terms s
  normal : dialect.normalizeDefault (dialect.defaultSql e).toList = some e

theorem default_clause_read (dialect : Dialect) (e : String) (legible : dialect.LegibleDefault e)
    (rest : List Char) (ends : EndsDefault rest) :
    ReadsAs .columnClause ("DEFAULT".toList ++ ' ' :: (dialect.defaultSql e).toList) rest
      (IsClause dialect (.default (some e))) := by
  obtain ⟨t, s, text, first, later⟩ := legible.terms
  obtain ⟨left, tree, given, leaves, rule, b, c, before, after, same⟩ :=
    default_given t s first later rest ends
  -- A default may start with a minus sign.
  have solid : skipLayout (' ' :: (t ++ s ++ rest)) = t ++ s ++ rest := by
    rw [skip_blank ' ' _ rfl, List.append_assoc]
    exact term_solid t _ (term_before t s rest first ends)
  have parts := PartsRead.next (word_read .default "DEFAULT".toList ' ' (t ++ s ++ rest) rfl rfl) solid
    (.last given)
  have whole : ("DEFAULT".toList ++ ' ' :: (dialect.defaultSql e).toList) ++ rest
      = "DEFAULT".toList ++ ' ' :: (t ++ s ++ rest) := by
    rw [text]
    simp
  rw [← whole] at parts
  refine clause_read dialect .defaultClause 'D' _ rest _ rfl rfl rfl
    (sequence_read .defaultClause _ _ _ rest left _ _ rfl rfl parts leaves ?_)
  have meant : dialect.normalizeDefault tree.text = some e := by
    rw [← normalize_blanks dialect tree.text b before, same, ← text,
      normalize_blanks dialect _ c after, legible.normal]
  simp [Ddl.columnClause, Ddl.defaultExpression, rule, meant]

theorem auto_increment_ends_default (rest : List Char) (apart : CharSet.identifier.Ends rest) :
    EndsDefault (' ' :: ("AUTO_INCREMENT".toList ++ rest)) := by
  have solid := keyword_solid .autoIncrement "AUTO_INCREMENT".toList rest rfl
  have skipped := skip_gap _ solid
  have word : Gives .token (.word "auto_increment".toList) ("AUTO_INCREMENT".toList ++ rest)
      (.matched rest []) := gives_word _ (drop_own_word "AUTO_INCREMENT".toList rest)
  have stops : Gives .free (.rule .stopWord) ("AUTO_INCREMENT".toList ++ rest)
      (.matched rest [.node .stopWord ("AUTO_INCREMENT".toList ++ rest) rest []]) := by
    have whole : Gives .token (.notAt (.one .identifier)) rest (.matched rest []) :=
      gives_not (gives_no_one .identifier apart)
    have found : Gives .token stopWords ("AUTO_INCREMENT".toList ++ rest) (.matched rest []) := by
      iterate 8 apply gives_left
      exact gives_right (refused_front _ _ 'A' rfl rfl rfl) word
    exact gives_rule .stopWord (gives_seq [] found whole)
  refine ⟨?_, ends_cons _ ' ' _ rfl, ⟨[' '], List.forall_mem_singleton.mpr rfl, ?_⟩, ?_⟩
  · rintro c ⟨⟩
    exact ⟨rfl, by decide⟩
  · rw [skipped]
    rfl
  · rw [skipped]
    exact gives_seq_failed (gives_no_not stops)

/-! ### Columns -/

structure Dialect.LegibleColumn (dialect : Dialect) (column : Column) : Prop where
  fixed : dialect.canonicalColumn column = .ok column
  narrow : column.type.Narrow
  made : column.rawDefinition = none
  default : ∀ e, column.default = some e → dialect.LegibleDefault e

def Column.requires (column : Column) : List Char :=
  if column.nullable then [] else ' ' :: "NOT NULL".toList

def Dialect.defaults (dialect : Dialect) (column : Column) : List Char :=
  match column.default with
  | some e => ' ' :: ("DEFAULT".toList ++ ' ' :: (dialect.defaultSql e).toList)
  | none => []

-- The keyword is MySQL's; PostgreSQL has types for generated integers.
def Dialect.generatedText (dialect : Dialect) (column : Column) : List Char :=
  if dialect = .mysql && column.autoIncrement then ' ' :: "AUTO_INCREMENT".toList else []

def Dialect.columnClauses (dialect : Dialect) (column : Column) : List Ddl.ColumnClause :=
  (if column.nullable then [] else [.nullable false])
    ++ ((column.default.map fun e => Ddl.ColumnClause.default (some e)).toList
      ++ (if dialect = .mysql && column.autoIncrement then [.autoIncrement] else []))

def Spaced (text : List Char) : Prop :=
  text = [] ∨ ∃ c s, text = ' ' :: c :: s ∧ c ∈ columnLetters

theorem spaced_append (s t : List Char) (first : Spaced s) (second : Spaced t) : Spaced (s ++ t) := by
  rcases first with rfl | ⟨c, u, rfl, letter⟩
  · exact second
  · exact .inr ⟨c, u ++ t, rfl, letter⟩

def Dialect.clausesText (dialect : Dialect) (column : Column) : List Char :=
  column.requires ++ (dialect.defaults column ++ dialect.generatedText column)

section Column

variable (dialect : Dialect) (column : Column) (rest : List Char) (ends : EndsItem rest)

include ends in
theorem generated_row :
    RowReads .columnClause (IsClause dialect) rest (dialect.generatedText column)
      (if dialect = .mysql && column.autoIncrement then [.autoIncrement] else []) := by
  unfold Dialect.generatedText
  split
  case isFalse => exact .nil
  case isTrue generated =>
    obtain rfl : dialect = .mysql := of_decide_eq_true (Bool.and_eq_true_iff.mp generated).1
    have row := RowReads.cons Ddl.ColumnClause.autoIncrement [] "AUTO_INCREMENT".toList []
      ⟨'A', _, rfl, rfl⟩ (auto_increment_read rest (ends_item_apart rest ends)) .nil
    rwa [List.append_nil] at row

include ends in
theorem generated_ends_default : EndsDefault (dialect.generatedText column ++ rest) := by
  unfold Dialect.generatedText
  split
  case isFalse => exact item_ends_default rest ends
  case isTrue => exact auto_increment_ends_default rest (ends_item_apart rest ends)

include ends in
theorem default_row (legible : dialect.LegibleColumn column) :
    RowReads .columnClause (IsClause dialect) rest
      (dialect.defaults column ++ dialect.generatedText column)
      ((column.default.map fun e => Ddl.ColumnClause.default (some e)).toList
        ++ (if dialect = .mysql && column.autoIncrement then [.autoIncrement] else [])) := by
  have later := generated_row dialect column rest ends
  unfold Dialect.defaults
  cases given : column.default with
  | none => exact later
  | some e =>
      exact .cons (.default (some e)) _ _ _ ⟨'D', _, rfl, rfl⟩
        (default_clause_read dialect e (legible.default e given) _
          (generated_ends_default dialect column rest ends)) later

include ends in
theorem clauses_row (legible : dialect.LegibleColumn column) :
    RowReads .columnClause (IsClause dialect) rest (dialect.clausesText column)
      (dialect.columnClauses column) := by
  have later := default_row dialect column rest ends legible
  unfold Dialect.clausesText Column.requires Dialect.columnClauses
  split
  case isTrue => exact later
  case isFalse =>
    exact .cons (.nullable false) _ _ _ ⟨'N', _, rfl, rfl⟩
      (not_null_read dialect _ (row_apart _ _ rest _ _ later (ends_item_apart rest ends))) later

theorem clauses_spaced : Spaced (dialect.clausesText column) := by
  refine spaced_append _ _ ?_ (spaced_append _ _ ?_ ?_)
  · unfold Column.requires
    split
    case isTrue => exact .inl rfl
    case isFalse => exact .inr ⟨'N', _, rfl, by decide⟩
  · unfold Dialect.defaults
    split
    case h_1 => exact .inr ⟨'D', _, rfl, by decide⟩
    case h_2 => exact .inl rfl
  · unfold Dialect.generatedText
    split
    case isTrue => exact .inr ⟨'A', _, rfl, by decide⟩
    case isFalse => exact .inl rfl

theorem bracket_apart (c : Char) (s : List Char) (member : c ∈ [',', ')', ';', 'N', 'D', 'A']) :
    (c :: s).head? ≠ some '(' ∧ (c :: s).head? ≠ some '[' := by
  simp only [List.mem_cons, List.not_mem_nil, or_false] at member
  rcases member with rfl | rfl | rfl | rfl | rfl | rfl <;> simp

include ends in
theorem type_end (text : List Char) (spaced : Spaced text) :
    EndsType (text ++ rest) ∧ (skipLayout (text ++ rest)).head? ≠ some '(' ∧
      (skipLayout (text ++ rest)).head? ≠ some '[' := by
  rcases spaced with rfl | ⟨c, s, rfl, letter⟩
  · obtain ⟨c, s, member, next⟩ := skip_item_end rest ends
    rw [List.nil_append, next]
    refine ⟨?_, bracket_apart c s (List.mem_append_left ['N', 'D', 'A'] member)⟩
    obtain ⟨d, t, among, same⟩ := ends
    have mark : d ∈ typeMarks := by
      simp only [List.mem_cons, List.not_mem_nil, or_false] at among
      rcases among with rfl | rfl | rfl <;> decide
    rcases same with rfl | rfl
    · exact .inr ⟨[], d, t, List.forall_mem_nil _, rfl, .inl mark⟩
    · exact .inr ⟨['\n'], d, t, List.forall_mem_singleton.mpr rfl, rfl, .inl mark⟩
  · have next : skipLayout (' ' :: c :: s ++ rest) = c :: (s ++ rest) :=
      (skip_blank ' ' _ rfl).trans (skip_solid_char c _ (letter_solid c letter))
    rw [next]
    exact ⟨.inr ⟨[' '], c, s ++ rest, List.forall_mem_singleton.mpr rfl, rfl,
      .inr ⟨List.cons_ne_nil _ _, letter⟩⟩,
      bracket_apart c _ (List.mem_append_right [',', ')', ';'] letter)⟩

theorem clause_trees (trees : List Tree) (clauses : List Ddl.ColumnClause)
    (all : List.Forall₂ (fun tree clause => IsClause dialect clause tree) trees clauses) :
    (trees.flatMap Tree.children).mapM (Ddl.columnClause dialect) = .ok clauses := by
  rw [map_m_ok]
  induction all with
  | nil => exact .nil
  | cons is others ih =>
      obtain ⟨inner, children, meant⟩ := is
      rw [List.flatMap_cons, children]
      exact .cons meant ih

theorem generates_nothing (column : Column) (checked : Dialect.spanner.checkColumn column = .ok ()) :
    column.autoIncrement = false := by
  rw [check_column_ok] at checked
  cases generated : column.autoIncrement with
  | false => rfl
  | true => exact absurd (checked generated) Bool.false_ne_true

theorem clauses_added (spelled : NativeType) (spells : dialect.Spells column spelled)
    (checked : dialect.checkColumn column = .ok ()) :
    Ddl.addClauses dialect [column.name] none
        { type := column.type, autoIncrement := dialect.impliesAutoIncrement spelled }
        (dialect.columnClauses column)
      = { type := column.type, nullable := column.nullable, default := column.default,
          autoIncrement := column.autoIncrement } := by
  rw [spells.generated]
  unfold Dialect.columnClauses
  cases dialect with
  | postgres | mysql =>
      cases column.nullable <;> cases column.default <;> cases column.autoIncrement <;> rfl
  | spanner =>
      rw [generates_nothing column checked]
      cases column.nullable <;> cases column.default <;> rfl

theorem definition_type (printed : String) (made : column.rawDefinition = none)
    (written : dialect.columnDefinition column = .ok printed) :
    ∃ sql, dialect.columnTypeSql column = .ok sql := by
  cases spelling : dialect.columnTypeSql column with
  | ok sql => exact ⟨sql, rfl⟩
  | error reason =>
      simp only [Dialect.columnDefinition, made, spelling, bind, Except.bind] at written
      cases written

theorem column_text (sql printed : String) (made : column.rawDefinition = none)
    (spelled : dialect.columnTypeSql column = .ok sql)
    (written : dialect.columnDefinition column = .ok printed) :
    printed.toList = (dialect.quote column.name).toList ++ ' ' :: (sql.toList
      ++ dialect.clausesText column) := by
  have definition : dialect.columnDefinition column = .ok (dialect.quote column.name ++ " " ++ sql
      ++ (if column.nullable then "" else " NOT NULL")
      ++ (match column.default with
        | some expression => " DEFAULT " ++ dialect.defaultSql expression
        | none => "")
      ++ (if dialect = .mysql && column.autoIncrement then " AUTO_INCREMENT" else "")) := by
    rw [Dialect.columnDefinition, made, spelled]
    rfl
  rw [definition] at written
  cases written
  unfold Dialect.clausesText Column.requires Dialect.defaults Dialect.generatedText
  cases column.nullable <;> cases column.default <;>
    cases decide (dialect = .mysql) && column.autoIncrement <;> simp

theorem column_body (tree : Tree) (legible : dialect.LegibleColumn column) (type : Tree)
    (trees : List Tree) (spelled : NativeType) (spells : dialect.Spells column spelled)
    (lowered : Ddl.nativeType dialect type = .ok spelled)
    (typed : tree.first? .dataType = some type) (clauses : tree.all .columnClause = trees)
    (all : List.Forall₂ (fun tree clause => IsClause dialect clause tree) trees
      (dialect.columnClauses column)) :
    Ddl.columnBody dialect [column.name] tree
      = .ok { type := column.type, nullable := column.nullable, default := column.default,
              autoIncrement := column.autoIncrement } := by
  have checked := ((canonical_column_ok dialect column column).mp legible.fixed).1
  unfold Ddl.columnBody
  rw [typed, clauses]
  refine (bind_ok _ _ _).mpr ⟨some spelled, ?_, (bind_ok _ _ _).mpr ⟨column.type, spells.known,
    (bind_ok _ _ _).mpr ⟨dialect.columnClauses column, clause_trees dialect trees _ all, ?_⟩⟩⟩
  · show some <$> Ddl.nativeType dialect type = _
    rw [lowered]
    rfl
  · exact congrArg Except.ok (clauses_added dialect column spelled spells checked)

theorem column_read (legible : dialect.LegibleColumn column) (printed : String)
    (written : dialect.columnDefinition column = .ok printed) (ends : EndsItem rest) :
    ReadsAs .columnDef printed.toList rest fun tree =>
      Ddl.columnDefinition dialect tree = .ok (column.shape, []) := by
  obtain ⟨sql, spelling⟩ := definition_type dialect column printed legible.made written
  have checked := ((canonical_column_ok dialect column column).mp legible.fixed).1
  obtain ⟨spelled, rfl, spells⟩ := column_spelled dialect column sql legible.fixed legible.narrow spelling
  obtain ⟨ended, call, array⟩ := type_end rest ends _ (clauses_spaced dialect column)
  obtain ⟨mid, children, leaves, typed, lowered⟩ := native_text_followed dialect spelled
    spells.plain spells.flat _ ended call array
  obtain ⟨name, named, rule, same⟩ := name_read dialect column.name (' ' ::
    ((dialect.nativeSql spelled).toList ++ (dialect.clausesText column ++ rest)))
    (ends_name ' ' _ (by decide) (by decide))
  have skipped : skipLayout mid = skipLayout (dialect.clausesText column ++ rest) := by
    rcases leaves with rfl | rfl
    · rfl
    · exact skip_again _
  obtain ⟨left, trees, clauses, last, pairs⟩ := row_read .columnClause (IsClause dialect) rest
    (absent_at_end _ rest rfl ends) _ _ (clauses_row dialect column rest ends legible)
    (skipLayout (dialect.clausesText column ++ rest)) (skip_again _)
  obtain ⟨rules, all⟩ := paired_rules _ _ _ _ pairs
  have parts := PartsRead.next named
    (skip_gap _ (solid_front _ _ (native_text_solid dialect spelled spells.plain)))
    (.next typed skipped (.last (gives_many_later (free_skip_again _) clauses)))
  have text : printed.toList ++ rest = (dialect.quote column.name).toList
      ++ ' ' :: ((dialect.nativeSql spelled).toList ++ (dialect.clausesText column ++ rest)) := by
    rw [column_text dialect column _ printed legible.made spelling written]
    simp only [List.append_assoc, List.cons_append]
  rw [← text] at parts
  refine sequence_read .columnDef _ _ _ rest left _ _ rfl rfl parts last ?_
  have body := fun tree => column_body dialect column tree legible _ trees spelled spells lowered
  simp [Ddl.columnDefinition, rule, same, body, all_of_rule _ _ _ _ _ rules, all,
    Column.shape, bind, Except.bind]

end Column

end SchemaDrift
