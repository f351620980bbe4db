import SchemaDrift.Ddl.Document
import SchemaDrift.Proofs.Ddl.Definition
import SchemaDrift.Proofs.Ddl.PrintedConstraint
/-!
A table is read back from its statement: each line between the parentheses adds to the draft what it
was written for, and what follows them adds the options or the key.
-/

set_option autoImplicit false

namespace SchemaDrift

open Grammar

/-! ### Lines -/

def lineWords : List Keyword :=
  [.constraint, .primary, .foreign, .unique, .check, .fulltext, .spatial, .index, .key]

inductive Line where
  | column (column : Column)
  | constraint (constraint : Constraint)
  | index (index : Index)

def Line.add (dialect : Dialect) (table : String) (draft : TableDraft) : Line → TableDraft
  | column c => draft.addColumn (dialect.columnBack c)
  | constraint c => draft.addConstraint (dialect.readBack table c)
  | index i => draft.addIndex i

inductive Dialect.Prints (dialect : Dialect) (table : String) : Line → String → Prop
  | column (c : Column) (text : String) (readable : dialect.ReadableColumn c)
      (apart : dialect.Apart lineWords c.name) (written : dialect.columnDefinition c = .ok text) :
      Prints dialect table (.column c) text
  | constraint (c : Constraint) (legible : c.Legible) :
      Prints dialect table (.constraint c) (dialect.tableConstraint table c)
  | index (i : Index) (inline : dialect.isInline i = true) (some : i.columns ≠ []) :
      Prints dialect table (.index i) (dialect.inlineIndex i)

def IsLine (dialect : Dialect) (table : String) (line : Line) (tree : Tree) : Prop :=
  ∃ inner, tree.children = [inner] ∧ ∀ input draft,
    Ddl.Reader.tableElement { dialect, input } draft inner = .ok (line.add dialect table draft)

theorem index_line_read (dialect : Dialect) (i : Index) (inline : dialect.isInline i = true)
    (some : i.columns ≠ []) (rest : List Char) :
    ReadsAs .indexDefinition (dialect.inlineIndex i).toList rest
      fun tree => Ddl.indexDefinition dialect tree = .ok i := by
  obtain ⟨mysql, plain⟩ := Bool.and_eq_true_iff.mp inline
  obtain rfl : dialect = .mysql := of_decide_eq_true mysql
  obtain ⟨list, listed, list_rule, list_meant⟩ := index_columns_read .mysql i.columns some rest
  obtain ⟨name, named, name_rule, same⟩ := name_read .mysql i.name
    (' ' :: '(' :: ((Dialect.mysql.indexColumns i.columns).toList ++ ')' :: rest))
    (ends_name ' ' _ (by decide) (by decide))
  have solid := solid_front _ (' ' :: '(' :: ((Dialect.mysql.indexColumns i.columns).toList
    ++ ')' :: rest)) (quote_solid .mysql i.name)
  have given : Gives .free optionalName _ (.matched _ [name]) := gives_opt (gives_next _
    (gives_not (gives_other_char '(' (quote_other .mysql i.name _ '(' (by decide) (by decide))))
    (solid_text _ solid) named)
  have word (s : List Char) : Gives .free (.kw .index ||| .kw .key) ("KEY".toList ++ ' ' :: s)
      (.matched (' ' :: s) [.node (.keyword .key) ("KEY".toList ++ ' ' :: s) (' ' :: s) []]) :=
    gives_right (refused_front _ _ 'K' rfl rfl rfl) (word_read .key "KEY".toList ' ' s rfl rfl)
  have parts := parts_passed (.opt (.rule .indexKind)) 'K' rfl rfl rfl
    (.next (word _) (skip_gap _ solid) (.next given (skip_gap _ (opening_solid _)) (.last listed)))
  have text : (Dialect.mysql.inlineIndex i).toList ++ rest = "KEY".toList
      ++ ' ' :: ((Dialect.mysql.quote i.name).toList
        ++ ' ' :: '(' :: ((Dialect.mysql.indexColumns i.columns).toList ++ ')' :: rest)) := by
    simp [Dialect.inlineIndex]
  rw [← text] at parts
  refine sequence_read .indexDefinition _ _ _ rest rest _ _ rfl rfl parts rfl ?_
  obtain ⟨index_name, columns, unique⟩ := i
  simpa [Ddl.indexDefinition, Ddl.indexColumns, name_rule, list_rule, list_meant, same, bind,
    Except.bind] using plain

theorem no_other_line (dialect : Dialect) (name : String) (rest : List Char)
    (ends : CharSet.identifier.Ends rest) (apart : dialect.Apart lineWords name) :
    Gives .free (.rule .tableConstraint ||| .rule .indexDefinition)
      ((dialect.quote name).toList ++ rest) .failed := by
  cases name_written dialect name with
  | quoted q s chars quote =>
      have solid : isSolid q = true := by
        simp only [List.mem_cons, List.not_mem_nil, or_false] at quote
        rcases quote with rfl | rfl <;> rfl
      rw [chars]
      exact gives_refused _ solid _ (refused_by ['"', '\x60'] _ rfl q quote)
  | bare c s same chars start inside free =>
      have solid := identifier_solid c (inside c List.mem_cons_self)
      have words (r : Rule) (layout : Layout)
          (known : decide (r ∈ lineWords.map Rule.keyword) = true) :
          Gives layout (.rule r) (c :: (s ++ rest)) .failed := by
        obtain ⟨k, among, rfl⟩ := List.mem_map.mp (of_decide_eq_true known)
        have other := apart same k among
        rw [chars] at other
        exact keyword_refused k (c :: s) rest inside ends other
      rw [same, chars]
      exact gives_start_with (s ++ rest) solid _ (refused_within _ solid _ words 6) .free _ _ rfl

theorem line_read (dialect : Dialect) (table : String) (line : Line) (r : Rule)
    (text rest : List Char) (means : Tree → Prop) (reads : ReadsAs r text rest means)
    (chosen : ∀ left tree, Gives .free (.rule r) (text ++ rest) (.matched left [tree]) →
      Gives .free Rule.tableElement.body (text ++ rest) (.matched left [tree]))
    (adds : ∀ tree, tree.rule = r → means tree → ∀ input draft,
      Ddl.Reader.tableElement { dialect, input } draft tree = .ok (line.add dialect table draft)) :
    ReadsAs .tableElement text rest (IsLine dialect table line) := by
  obtain ⟨left, tree, given, leaves, rule, meant⟩ := reads
  exact ⟨left, _, gives_rule .tableElement (chosen left tree given), leaves, rfl, tree, rfl,
    adds tree rule meant⟩

theorem line_item (dialect : Dialect) (table : String) (line : Line) (text : String)
    (prints : dialect.Prints table line text) :
    ReadsItem .tableElement (fun item : Line × String => item.2.toList)
      (fun item tree => IsLine dialect table item.1 tree) (line, text) := by
  cases prints with
  | column c _ readable apart written =>
      obtain ⟨s, chars⟩ := column_front dialect c text written
      have solid : Solid text.toList := by
        rw [chars]
        exact solid_front _ _ (quote_solid dialect c.name)
      refine ⟨solid, fun rest ends => ?_⟩
      refine line_read dialect table _ .columnDef text.toList rest _
        (column_reread dialect c readable text written rest ends) (fun left tree given => ?_)
        fun tree rule meant input draft => ?_
      · refine gives_right ?_ given
        rw [chars, List.append_assoc]
        exact no_other_line dialect c.name _ (ends_cons _ ' ' _ rfl) apart
      · simp [Ddl.Reader.tableElement, rule, meant, bind, Except.bind, Line.add,
          TableDraft.addConstraints]
  | constraint c legible =>
      have front := line_front dialect table c []
      rw [List.append_nil] at front
      have solid : isSolid (lineLetter (dialect.writtenName? table c)) = true := by
        cases dialect.writtenName? table c <;> rfl
      refine ⟨front_solid _ _ front solid, fun rest ends => ?_⟩
      refine line_read dialect table _ .tableConstraint _ rest _
        (constraint_line_read dialect table c legible rest ends)
        (fun left tree given => gives_left (gives_left given)) fun tree rule meant input draft => ?_
      simp [Ddl.Reader.tableElement, rule, meant, bind, Except.bind, Line.add]
  | index i inline some =>
      have front (rest : List Char) : ((dialect.inlineIndex i).toList ++ rest).head? = Option.some 'K' := by
        simp [Dialect.inlineIndex]
      have start := front []
      rw [List.append_nil] at start
      refine ⟨front_solid _ 'K' start rfl, fun rest ends => ?_⟩
      refine line_read dialect table _ .indexDefinition _ rest _
        (index_line_read dialect i inline some rest) (fun left tree given => ?_)
        fun tree rule meant input draft => ?_
      · exact picked_given _ _ _ Rule.tableElement.body .indexDefinition 'K' (front rest) rfl rfl given
      · simp [Ddl.Reader.tableElement, rule, meant, bind, Except.bind, Line.add]

/-! ### Options -/

-- The names that options are kept under; the next generated value is not kept.
def optionKeys : List String :=
  let names := ["CHARACTER SET", "CHARSET", "COLLATE", "ENGINE", "COMMENT", "ROW_FORMAT"]
  names ++ ("AUTO_INCREMENT" :: names).map ("DEFAULT " ++ ·)

def OptionValue (value : List Char) : Prop :=
  StringLiteral value ∨ value ≠ [] ∧ ∀ c ∈ value, CharSet.identifier.has c = true

structure LegibleOption (option : String × String) : Prop where
  key : option.1 ∈ optionKeys
  value : OptionValue option.2.toList

def optionText (option : String × String) : List Char :=
  option.1.toList ++ '=' :: option.2.toList

structure ReadableKey (key : String) : Prop where
  meant : Text.upperWords key.toList = key
  kept : key ≠ "AUTO_INCREMENT"
  start : ∃ c s, key.toList = c :: s ∧ isSolid c = true ∧ c ≠ ','
  read : ∀ s, Gives .token Rule.optionName.body (key.toList ++ '=' :: s) (.matched ('=' :: s) [])
  only : ∀ s, Gives .free (.rule .spannerPrimaryKey ||| .rule .interleaveClause
    ||| .rule .rowDeletionPolicy ||| .rule .unsupportedTableClause) (key.toList ++ '=' :: s) .failed

theorem key_readable (key : String) (member : key ∈ optionKeys) : ReadableKey key := by
  simp only [optionKeys, List.mem_append, List.mem_cons, List.not_mem_nil, or_false, List.map_cons,
    List.map_nil] at member
  rcases member with (rfl | rfl | rfl | rfl | rfl | rfl) | (rfl | rfl | rfl | rfl | rfl | rfl | rfl)
  all_goals exact ⟨by decide, by decide, ⟨_, _, rfl, rfl, by decide⟩,
    fun _ => gives_computed 64 fun _ => rfl, fun _ => gives_computed 64 fun _ => rfl⟩

theorem value_read (value rest : List Char) (legible : OptionValue value)
    (ends : CharSet.identifier.Ends rest) (apart : rest.head? ≠ some '\'') :
    Solid value ∧ ∃ trees, Gives .free (.rule .optionValue) (value ++ rest)
      (.matched rest [.node .optionValue (value ++ rest) rest trees]) := by
  rcases legible with literal | ⟨some, inside⟩
  · have given : Gives .free (.rule .stringLit) _ _ := literal_given value rest literal apart
    obtain ⟨body, rfl, -⟩ := literal
    exact ⟨⟨'\'', body, rfl, rfl⟩, _, gives_rule .optionValue (gives_left given)⟩
  · obtain ⟨c, s, rfl⟩ := List.exists_cons_of_ne_nil some
    obtain ⟨first, others⟩ := List.forall_mem_cons.mp inside
    have solid := identifier_solid c first
    have word : Gives .free (.rule .optionWord) (c :: s ++ rest)
        (.matched rest [.node .optionWord (c :: s ++ rest) rest []]) :=
      gives_rule .optionWord
        (gives_seq [] (gives_one .identifier c first) (span_read .identifier s rest others ends))
    have other : Gives .free (.rule .stringLit) (c :: s ++ rest) .failed := by
      refine no_literal _ ?_
      rintro ⟨⟩
      exact absurd first (by decide)
    exact ⟨⟨c, s, rfl, solid⟩, _, gives_rule .optionValue (gives_right other word)⟩

/-! ### Suffixes -/

inductive Suffix where
  | option (key value : String)
  | primary (columns : List String)

def Suffix.add (draft : TableDraft) : Suffix → TableDraft
  | option key value => draft.addOption key value
  | primary columns => if columns = [] then draft else draft.addConstraint (.primaryKey columns)

def suffixClauses : Expr :=
  .rule .spannerPrimaryKey ||| .rule .interleaveClause ||| .rule .rowDeletionPolicy
    ||| .rule .unsupportedTableClause ||| .rule .tableOption

def IsSuffix (dialect : Dialect) (suffix : Suffix) (tree : Tree) : Prop :=
  ∃ inner, tree.children = [inner] ∧ ∀ input draft,
    Ddl.Reader.tableClause { dialect, input } draft inner = .ok (suffix.add draft)

theorem option_read (option : String × String) (legible : LegibleOption option) (rest : List Char)
    (ends : CharSet.identifier.Ends rest) (apart : rest.head? ≠ some '\'') :
    ReadsAs .tableSuffix (optionText option) rest
      (IsSuffix .mysql (.option option.1 option.2)) := by
  obtain ⟨key, value⟩ := option
  obtain ⟨meant, kept, ⟨c, s, chars, solid, comma⟩, read, only⟩ := key_readable key legible.key
  obtain ⟨start, trees, valued⟩ := value_read value.toList rest legible.value ends apart
  have named : Gives .free (.rule .optionName) (key.toList ++ '=' :: (value.toList ++ rest))
      (.matched ('=' :: (value.toList ++ rest))
        [.node .optionName (key.toList ++ '=' :: (value.toList ++ rest))
          ('=' :: (value.toList ++ rest)) []]) := gives_rule .optionName (read _)
  have parts := PartsRead.next named (skip_solid_char '=' _ rfl)
    (.next (gives_opt (gives_char '=')) (solid_skip _ _ start) (.last valued))
  have option := parts_given _ _ _ _ _ parts
  have whole : Gives .free (.rule .tableOption) _ _ := gives_rule .tableOption option
  have chosen := gives_right (only (value.toList ++ rest)) whole
  have text : optionText (key, value) ++ rest = key.toList ++ '=' :: (value.toList ++ rest) := by
    simp only [optionText, List.append_assoc, List.cons_append]
  have front : (key.toList ++ '=' :: (value.toList ++ rest)).head? ≠ some ',' := by
    rw [chars]
    rintro ⟨⟩
    exact comma rfl
  have whole := PartsRead.next (gives_no_opt (gives_other_char ',' front))
    (solid_text _ (solid_front _ _ ⟨c, s, chars, solid⟩)) (.last chosen)
  rw [← text] at whole
  refine sequence_read .tableSuffix _ _ _ rest rest _ _ rfl rfl whole rfl ⟨_, rfl, fun input draft => ?_⟩
  have word : Ddl.upperText (.node .optionName (optionText (key, value) ++ rest)
      ('=' :: (value.toList ++ rest)) []) = key := by
    rw [Ddl.upperText, text, tree_text, meant]
  simp [Ddl.Reader.tableClause, Ddl.Reader.tableOption, word, kept, tree_text, Suffix.add]

theorem spanner_key_read (names : List String) (rest : List Char) :
    ReadsAs .tableSuffix ("PRIMARY KEY (" ++ Dialect.spanner.quoteList names ++ ")").toList rest
      (IsSuffix .spanner (.primary names)) := by
  obtain ⟨trees, listed, rules, meant⟩ := optional_key_read .spanner names rest
  have parts := parts_word .primary "PRIMARY".toList rfl (keyword_solid .key "KEY".toList _ rfl)
    (parts_word .key "KEY".toList rfl (opening_solid _) (.last listed))
  have text : ("PRIMARY KEY (" ++ Dialect.spanner.quoteList names ++ ")").toList ++ rest
      = "PRIMARY".toList ++ ' ' :: ("KEY".toList
        ++ ' ' :: '(' :: ((Dialect.spanner.quoteList names).toList ++ ')' :: rest)) := by
    simp
  rw [← text] at parts
  have front : (("PRIMARY KEY (" ++ Dialect.spanner.quoteList names ++ ")").toList ++ rest).head?
      = some 'P' := by
    simp
  have key : Gives .free (.rule .spannerPrimaryKey) _ _ :=
    gives_rule .spannerPrimaryKey (parts_given _ _ _ _ _ parts)
  have chosen := picked_given _ _ _ suffixClauses .spannerPrimaryKey 'P' front rfl rfl key
  have whole := parts_passed (.opt (.char ',')) 'P' front rfl rfl (.last chosen)
  refine sequence_read .tableSuffix _ _ _ rest rest _ _ rfl rfl whole rfl ⟨_, rfl, fun input draft => ?_⟩
  by_cases empty : names = [] <;>
    simp [Ddl.Reader.tableClause, Ddl.Reader.keyAfterColumns, all_of_rule _ _ _ _ _ rules, meant,
      bind, Except.bind, Suffix.add, empty]

-- What MySQL writes behind a table without options.
def usualOptions : List (String × String) :=
  [("ENGINE", "InnoDB"), ("DEFAULT CHARSET", "utf8mb4")]

def Table.writtenOptions (table : Table) : List (String × String) :=
  if table.options.isEmpty then usualOptions else table.options

def Dialect.suffixes : Dialect → Table → List Suffix
  | .postgres, _ => []
  | .mysql, table => table.writtenOptions.map fun option => .option option.1 option.2
  | .spanner, table => [.primary table.primaryKeyColumns]

theorem usual_options_legible : ∀ option ∈ usualOptions, LegibleOption option := by
  have legible (key value : String) (known : key ∈ optionKeys)
      (word : value.toList ≠ [] ∧ value.toList.all CharSet.identifier.has = true) :
      LegibleOption (key, value) :=
    ⟨known, .inr ⟨word.1, List.all_eq_true.mp word.2⟩⟩
  refine List.forall_mem_cons.mpr ⟨legible _ _ (by decide) (by decide), ?_⟩
  exact List.forall_mem_singleton.mpr (legible _ _ (by decide) (by decide))

theorem options_row (options : List (String × String))
    (legible : ∀ option ∈ options, LegibleOption option) (rest : List Char) (ends : EndsItem rest) :
    RowReads .tableSuffix (IsSuffix .mysql) rest (options.flatMap fun option => ' ' :: optionText option)
      (options.map fun option => Suffix.option option.1 option.2) := by
  induction options with
  | nil => exact .nil
  | cons option options ih =>
      obtain ⟨first, others⟩ := List.forall_mem_cons.mp legible
      have later := ih others
      have solid : Solid (optionText option) := by
        obtain ⟨c, s, chars, ink, -⟩ := (key_readable option.1 first.key).start
        exact solid_front _ _ ⟨c, s, chars, ink⟩
      have apart : (options.flatMap (fun option => ' ' :: optionText option) ++ rest).head?
          ≠ some '\'' := by
        cases options with
        | cons => simp
        | nil =>
            obtain ⟨c, head, member⟩ := item_end_char rest ends
            rw [List.flatMap_nil, List.nil_append, head]
            rintro ⟨⟩
            exact absurd member (by decide)
      exact .cons _ _ _ _ solid
        (option_read option first _ (row_apart _ _ rest _ _ later (ends_item_apart rest ends)) apart) later

theorem written_options_text (table : Table) :
    (Dialect.mysql.tableSuffix table).toList
      = table.writtenOptions.flatMap fun option => ' ' :: optionText option := by
  show (if table.options.isEmpty then " ENGINE=InnoDB DEFAULT CHARSET=utf8mb4"
    else " " ++ " ".intercalate (table.options.map fun option => option.1 ++ "=" ++ option.2)).toList = _
  unfold Table.writtenOptions
  cases table.options with
  | nil => decide
  | cons option options =>
      rw [if_neg (by simp), if_neg (by simp), String.toList_append, intercalate_text]
      simp [optionText]

theorem suffixes_row (dialect : Dialect) (table : Table)
    (legible : ∀ option ∈ table.options, LegibleOption option) (rest : List Char)
    (ends : EndsItem rest) :
    RowReads .tableSuffix (IsSuffix dialect) rest (dialect.tableSuffix table).toList
      (dialect.suffixes table) := by
  cases dialect with
  | postgres => exact .nil
  | mysql =>
      rw [written_options_text]
      refine options_row _ (fun option member => ?_) rest ends
      unfold Table.writtenOptions at member
      split at member
      · exact usual_options_legible option member
      · exact legible option member
  | spanner =>
      have text : (Dialect.spanner.tableSuffix table).toList = ' ' :: (("PRIMARY KEY ("
          ++ Dialect.spanner.quoteList table.primaryKeyColumns ++ ")").toList ++ []) := by
        simp [Dialect.tableSuffix]
      have solid : Solid ("PRIMARY KEY (" ++ Dialect.spanner.quoteList table.primaryKeyColumns
          ++ ")").toList := by
        rw [String.toList_append, String.toList_append]
        exact ⟨'P', _, rfl, rfl⟩
      rw [text]
      exact RowReads.cons (Suffix.primary table.primaryKeyColumns) [] _ [] solid
        (spanner_key_read table.primaryKeyColumns rest) .nil

/-! ### Statements -/

inductive Declaration where
  | table (draft : TableDraft)
  | index (table : String) (index : Index)
  | constraint (table : String) (constraint : Constraint)

def SchemaDraft.update (schema : SchemaDraft) (name : String) (change : TableDraft → TableDraft) :
    SchemaDraft :=
  (schema.table? name).elim schema fun table => schema.setTable name (change table)

namespace Declaration

def add (schema : SchemaDraft) : Declaration → SchemaDraft
  | table draft => schema.addTable draft
  | index name i => schema.update name (·.addIndex i)
  | constraint name c => schema.update name (·.addConstraint c)

def Fits (schema : SchemaDraft) : Declaration → Prop
  | table _ => True
  | index name _ | constraint name _ => (schema.table? name).isSome = true

end Declaration

def IsStatement (dialect : Dialect) (declaration : Declaration) (tree : Tree) : Prop :=
  ∃ inner, tree.children = [inner] ∧ ∀ input schema, declaration.Fits schema →
    Ddl.Reader.statement { dialect, input } schema inner = .ok (declaration.add schema)

def Dialect.declared (dialect : Dialect) (table : Table) (lines : List Line) : TableDraft :=
  (dialect.suffixes table).foldl Suffix.add
    (lines.foldl (Line.add dialect table.name) { name := table.name })

def Dialect.tableStatement (dialect : Dialect) (table : Table) (lines : List String) : String :=
  "CREATE TABLE " ++ dialect.quote table.name ++ " (\n    " ++ ",\n    ".intercalate lines ++ "\n)"
    ++ dialect.tableSuffix table

theorem no_if_not_exists (dialect : Dialect) (name : String) (rest : List Char) :
    Gives .free (.opt (.rule .ifNotExists)) ((dialect.quote name).toList ++ ' ' :: rest)
      (.matched ((dialect.quote name).toList ++ ' ' :: rest) []) :=
  gives_no_opt (gives_no_rule .ifNotExists (gives_seq_failed (gives_seq_failed
    (keyword_before_name dialect .ifWord name (' ' :: rest) .free (ends_cons _ ' ' rest rfl)
      (reserved_apart dialect .ifWord name (by decide))))))

theorem fold_children {α β : Type} (step : β → Tree → Except SchemaError β) (add : β → α → β)
    (trees : List Tree) (items : List α)
    (all : List.Forall₂ (fun tree item => ∃ inner, tree.children = [inner] ∧
      ∀ b, step b inner = .ok (add b item)) trees items) (b : β) :
    (trees.flatMap Tree.children).foldlM step b = .ok (items.foldl add b) := by
  induction all generalizing b with
  | nil => rfl
  | cons is others ih =>
      obtain ⟨inner, children, does⟩ := is
      rw [List.flatMap_cons, children, List.singleton_append, List.foldlM_cons, does]
      exact ih _

def lineGap : List Char := ['\n', ' ', ' ', ' ', ' ']

def Dialect.bodyText (dialect : Dialect) (table : Table) (line : Line × String)
    (lines : List (Line × String)) (rest : List Char) : List Char :=
  line.2.toList ++ (laterItems (fun item : Line × String => item.2.toList) lineGap lines
    ++ '\n' :: ')' :: ((dialect.tableSuffix table).toList ++ rest))

theorem table_text (dialect : Dialect) (table : Table) (line : Line × String)
    (lines : List (Line × String)) (rest : List Char) :
    (dialect.tableStatement table ((line :: lines).map Prod.snd)).toList ++ rest
      = "CREATE".toList ++ ' ' :: ("TABLE".toList ++ ' ' :: ((dialect.quote table.name).toList
        ++ ' ' :: '(' :: (lineGap ++ dialect.bodyText table line lines rest))) := by
  have joined := intercalate_items (Prod.snd (α := Line)) ",\n    " lineGap rfl line lines
  unfold Dialect.tableStatement Dialect.bodyText
  simp only [String.toList_append, joined]
  simp [lineGap]

section Table

variable (dialect : Dialect) (table : Table) (line : Line × String) (lines : List (Line × String))
  (prints : ∀ l ∈ line :: lines, dialect.Prints table.name l.1 l.2)
  (legible : ∀ option ∈ table.options, LegibleOption option) (s : List Char)

include prints legible in
theorem table_body_read :
    Solid (dialect.bodyText table line lines (';' :: s)) ∧ ∃ final elements suffixes,
      PartsRead [.rule .tableElement, .many (.char ',' ++ .rule .tableElement), .opt (.char ','),
          .char ')', .many (.rule .tableSuffix)] (dialect.bodyText table line lines (';' :: s)) final
        (elements ++ suffixes) ∧
      skipLayout final = skipLayout (';' :: s) ∧
      List.Forall₂ (fun tree item => tree.rule = .tableElement ∧
        IsLine dialect table.name item.1 tree) elements (line :: lines) ∧
      List.Forall₂ (fun tree suffix => tree.rule = .tableSuffix ∧ IsSuffix dialect suffix tree)
        suffixes (dialect.suffixes table) := by
  have items (l : Line × String) (member : l ∈ line :: lines) :=
    line_item dialect table.name l.1 l.2 (prints l member)
  obtain ⟨first, others⟩ := List.forall_mem_cons.mp items
  have close : skipLayout ('\n' :: ')' :: ((dialect.tableSuffix table).toList ++ ';' :: s))
      = ')' :: ((dialect.tableSuffix table).toList ++ ';' :: s) :=
    (skip_blank '\n' _ rfl).trans (skip_solid_char ')' _ rfl)
  obtain ⟨mid, last, tree, trees, one, more, leaves, all⟩ := items_given .tableElement _ _
    lineGap (by simp [Blank, isSpace, lineGap]) line lines first others
    ('\n' :: ')' :: ((dialect.tableSuffix table).toList ++ ';' :: s))
    (ends_item_line ')' _ (by decide)) (by simp [close])
  have absent : Gives .free (.rule .tableSuffix) (skipLayout (';' :: s)) .failed := by
    rw [skip_solid_char ';' s rfl]
    exact gives_refused s rfl _ rfl
  obtain ⟨final, suffixes, suffixed, done, kinds⟩ := row_read .tableSuffix (IsSuffix dialect)
    (';' :: s) absent _ _ (suffixes_row dialect table legible _ (ends_item_cons ';' s (by decide)))
    (skipLayout ((dialect.tableSuffix table).toList ++ ';' :: s)) (skip_again _)
  have parts := PartsRead.next one rfl (.next more (leaves.trans close)
    (parts_passed (.opt (.char ',')) ')' rfl rfl rfl (.next (gives_char ')') rfl
      (.last (gives_many_later (free_skip_again _) suffixed)))))
  exact ⟨solid_front _ _ first.1, final, tree :: trees, suffixes, parts, done, all, kinds⟩

theorem created_table (tree name : Tree) (elements suffixes : List Tree)
    (named : tree.first? .qualifiedName = some name)
    (meant : Ddl.qualified dialect name = .ok table.name) (always : tree.has .ifNotExists = false)
    (inside : tree.all .tableElement = elements) (after : tree.all .tableSuffix = suffixes)
    (all : List.Forall₂ (fun tree item => IsLine dialect table.name item.1 tree) elements
      (line :: lines))
    (kinds : List.Forall₂ (fun tree suffix => IsSuffix dialect suffix tree) suffixes
      (dialect.suffixes table)) (input : List Char) (schema : SchemaDraft) :
    Ddl.Reader.createTable { dialect, input } schema tree
      = .ok (schema.addTable (dialect.declared table ((line :: lines).map Prod.fst))) := by
  have declared := fold_children (Ddl.Reader.tableElement { dialect, input })
    (fun draft item => Line.add dialect table.name draft item.1) elements (line :: lines)
    (all.imp fun tree item is => is.imp fun inner both => ⟨both.1, both.2 input⟩)
  have followed := fold_children (Ddl.Reader.tableClause { dialect, input }) Suffix.add suffixes
    (dialect.suffixes table) (kinds.imp fun tree item is => is.imp fun inner both =>
      ⟨both.1, both.2 input⟩)
  unfold Ddl.Reader.createTable Dialect.declared
  rw [named, inside, after, always, List.foldl_map]
  simp [meant, declared, followed, bind, Except.bind]

include prints legible in
theorem table_read :
    ReadsAs .statement (dialect.tableStatement table ((line :: lines).map Prod.snd)).toList (';' :: s)
      (IsStatement dialect (.table (dialect.declared table ((line :: lines).map Prod.fst)))) := by
  obtain ⟨solid, final, elements, suffixes, body, done, all, kinds⟩ :=
    table_body_read dialect table line lines prints legible s
  obtain ⟨left, name, named, name_leaves, name_rule, name_meant⟩ := qualified_read dialect table.name
    (' ' :: '(' :: (lineGap ++ dialect.bodyText table line lines (';' :: s)))
    (ends_name ' ' _ (by decide) (by decide)) (by simp [skip_gap _ (opening_solid _)])
  have name_solid (s : List Char) := solid_front _ s (quote_solid dialect table.name)
  have opened := (skip_blanks lineGap _ (by simp [Blank, isSpace, lineGap])).trans (solid_text _ solid)
  have parts := parts_word .create "CREATE".toList rfl (keyword_solid .table "TABLE".toList _ rfl)
    (parts_word .table "TABLE".toList rfl (name_solid _)
      (.next (no_if_not_exists dialect table.name _) (solid_text _ (name_solid _))
        (.next named (name_leaves.trans (skip_gap _ (opening_solid _)))
          (.next (gives_char '(') opened body))))
  rw [← table_text] at parts
  have created : Gives .free (.rule .createTable) _ _ :=
    gives_rule .createTable (parts_given _ _ _ _ _ parts)
  obtain ⟨rules, lined⟩ := paired_rules _ _ _ _ all
  obtain ⟨suffix_rules, follow⟩ := paired_rules _ _ _ _ kinds
  have front : ((dialect.tableStatement table ((line :: lines).map Prod.snd)).toList ++ ';' :: s).head?
      = some 'C' := by
    rw [table_text]
    rfl
  have chosen := picked_given _ _ _ Rule.statement.body .createTable 'C' front rfl rfl created
  refine ⟨final, _, gives_rule .statement chosen, done, rfl, _, rfl, fun input schema fits => ?_⟩
  have line_rules (r : Rule) (apart : .tableElement ≠ r) := rules_apart elements _ r rules apart
  have suffixed (r : Rule) (apart : .tableSuffix ≠ r) := rules_apart suffixes _ r suffix_rules apart
  refine created_table dialect table line lines _ name elements suffixes ?_ name_meant ?_ ?_ ?_ lined
    follow input schema
  · simp [name_rule]
  · simp [name_rule, has_not _ _ _ _ _ (line_rules .ifNotExists (by decide)),
      has_not _ _ _ _ _ (suffixed .ifNotExists (by decide))]
  · simp [name_rule, all_of_rule _ _ _ _ _ rules,
      all_of_other _ _ _ _ _ (suffixed .tableElement (by decide))]
  · simp [name_rule, all_of_rule _ _ _ _ _ suffix_rules,
      all_of_other _ _ _ _ _ (line_rules .tableSuffix (by decide))]

end Table

end SchemaDrift
