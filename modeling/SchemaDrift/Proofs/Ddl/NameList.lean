import SchemaDrift.Ddl.Index
import SchemaDrift.Dialect.Render
import SchemaDrift.Proofs.Ddl.Identifier
import SchemaDrift.Proofs.Grammar.Inversion
import SchemaDrift.Proofs.Grammar.Listing
/-!
Names in the places where a dialect writes them: the name of a table, the columns between the
parentheses of a key, and those of an index with their directions.
-/

set_option autoImplicit false

namespace SchemaDrift

open Grammar

inductive Dialect.Written (dialect : Dialect) (name : String) : Prop
  | quoted (q : Char) (s : List Char) (chars : (dialect.quote name).toList = q :: s)
      (quote : q ∈ ['"', '\x60'])
  | bare (c : Char) (s : List Char) (same : dialect.quote name = name) (chars : name.toList = c :: s)
      (start : CharSet.identifierStart.has c = true)
      (inside : ∀ d ∈ c :: s, CharSet.identifier.has d = true)
      (free : Text.asciiUpper name.toList ∉ reservedWords)

theorem quote_with_chars (q : Char) (name : String) :
    (quoteWith q name).toList = q :: (Text.double q name.toList ++ [q]) := by
  simp [quoteWith]

theorem name_written (dialect : Dialect) (name : String) : dialect.Written name := by
  cases dialect with
  | postgres => exact .quoted '"' _ (quote_with_chars '"' name) (by decide)
  | mysql => exact .quoted '\x60' _ (quote_with_chars '\x60' name) (by decide)
  | spanner =>
      by_cases bare : (isSimpleIdentifier name.toList
          && !reservedWords.contains (Text.asciiUpper name.toList)) = true
      · have same : Dialect.spanner.quote name = name := by rw [Dialect.quote, if_pos bare]
        obtain ⟨simple, free⟩ := Bool.and_eq_true_iff.mp bare
        have free : Text.asciiUpper name.toList ∉ reservedWords := by simpa using free
        cases chars : name.toList with
        | nil =>
            rw [chars] at simple
            cases simple
        | cons c s =>
            rw [chars, isSimpleIdentifier, Bool.and_eq_true, List.all_eq_true] at simple
            obtain ⟨start, inside⟩ := simple
            refine .bare c s same chars start (List.forall_mem_cons.mpr
              ⟨start_in_identifier c start, fun d member => ?_⟩) free
            exact Bool.or_eq_true_iff.mpr (.inl (inside d member))
      · have same : Dialect.spanner.quote name = quoteWith '\x60' name := by
          rw [Dialect.quote, if_neg bare]
        exact .quoted '\x60' _ (same ▸ quote_with_chars '\x60' name) (by decide)

theorem quote_solid (dialect : Dialect) (name : String) : Solid (dialect.quote name).toList := by
  cases name_written dialect name with
  | quoted q s chars quote =>
      refine ⟨q, s, chars, ?_⟩
      simp only [List.mem_cons, List.not_mem_nil, or_false] at quote
      rcases quote with rfl | rfl <;> rfl
  | bare c s same chars start inside free =>
      exact ⟨c, s, by rw [same, chars], identifier_solid c (inside c List.mem_cons_self)⟩

theorem quote_other (dialect : Dialect) (name : String) (rest : List Char) (d : Char)
    (outside : CharSet.identifier.has d = false) (unquoted : d ∉ ['"', '\x60']) :
    ((dialect.quote name).toList ++ rest).head? ≠ some d := by
  cases name_written dialect name with
  | quoted q s chars quote =>
      rw [chars]
      rintro ⟨⟩
      exact unquoted quote
  | bare c s same chars start inside free =>
      rw [same, chars]
      rintro ⟨⟩
      exact Bool.eq_false_iff.mp outside (inside _ List.mem_cons_self)

def Dialect.Apart (dialect : Dialect) (words : List Keyword) (name : String) : Prop :=
  dialect.quote name = name → ∀ k ∈ words, name.toList.map Char.toLower ≠ k.text.toList

theorem keyword_before_name (dialect : Dialect) (k : Keyword) (name : String) (rest : List Char)
    (layout : Layout) (ends : CharSet.identifier.Ends rest) (other : dialect.Apart [k] name) :
    Gives layout (.kw k) ((dialect.quote name).toList ++ rest) .failed := by
  cases name_written dialect name with
  | quoted q s chars quote =>
      have refused : (Expr.kw k).refusedBy ['"', '\x60'] = true := by cases k <;> rfl
      have solid : isSolid q = true := by
        simp only [List.mem_cons, List.not_mem_nil, or_false] at quote
        rcases quote with rfl | rfl <;> rfl
      rw [chars]
      exact gives_refused _ solid _ (refused_by _ _ refused q quote)
  | bare c s same chars start inside free =>
      have apart := other same k (by simp)
      rw [same]
      rw [chars] at apart ⊢
      exact keyword_refused k _ rest inside ends apart

theorem quoted_apart (dialect : Dialect) (words : List Keyword) (name : String) (q : Char)
    (s : List Char) (chars : (dialect.quote name).toList = q :: s) (quote : q ∈ ['"', '\x60']) :
    dialect.Apart words name := by
  intro same word _ equal
  rw [same] at chars
  have inside : CharSet.identifier.has q.toLower = true :=
    keyword_plain word _ (by rw [← equal, chars]; exact List.mem_cons_self)
  have outside : CharSet.identifier.has q = false := by
    simp only [List.mem_cons, List.not_mem_nil, or_false] at quote
    rcases quote with rfl | rfl <;> rfl
  exact Bool.eq_false_iff.mp outside (lower_in_identifier q inside)

theorem reserved_apart (dialect : Dialect) (k : Keyword) (name : String)
    (reserved : Text.asciiUpper k.text.toList ∈ reservedWords) : dialect.Apart [k] name := by
  cases name_written dialect name with
  | quoted q s chars quote => exact quoted_apart dialect [k] name q s chars quote
  | bare c s _ chars start inside free =>
      intro same word among equal
      obtain rfl := List.mem_singleton.mp among
      refine free ?_
      rw [← equal] at reserved
      simpa only [Text.asciiUpper, List.map_map, Function.comp_def, Char.toUpper_toLower_eq_toUpper]
        using reserved

-- Only Spanner writes names without quotes.
theorem always_apart (dialect : Dialect) (words : List Keyword) (name : String)
    (other : dialect ≠ .spanner) : dialect.Apart words name := by
  cases dialect with
  | postgres => exact quoted_apart _ words name '"' _ (quote_with_chars '"' name) (by decide)
  | mysql => exact quoted_apart _ words name '\x60' _ (quote_with_chars '\x60' name) (by decide)
  | spanner => exact absurd rfl other

theorem ends_name (c : Char) (s : List Char) (plain : CharSet.identifier.has c = false)
    (unquoted : c ∉ ['"', '\x60']) : EndsName (c :: s) := by
  rintro d ⟨⟩
  rw [List.mem_cons, not_or, List.mem_singleton] at unquoted
  exact ⟨plain, unquoted.1, unquoted.2⟩

theorem item_ends_name (rest : List Char) (ends : EndsItem rest) : EndsName rest := by
  obtain ⟨c, head, member⟩ := item_end_char rest ends
  obtain ⟨s, rfl⟩ := List.head?_eq_some_iff.mp head
  simp only [List.mem_cons, List.not_mem_nil, or_false] at member
  rcases member with rfl | rfl | rfl | rfl <;> exact ends_name _ _ (by decide) (by decide)

/-! ### Single names -/

def IsName (dialect : Dialect) (name : String) (tree : Tree) : Prop :=
  tree.rule = .identifier ∧ Ddl.identifier dialect tree = name

theorem name_read (dialect : Dialect) (name : String) (rest : List Char) (apart : EndsName rest) :
    ∃ tree, Gives .free (.rule .identifier) ((dialect.quote name).toList ++ rest)
      (.matched rest [tree]) ∧ IsName dialect name tree := by
  obtain ⟨tree, given, -, same⟩ := quoted_name_read dialect name rest apart
  obtain ⟨children, -, node⟩ := given_rule (given .free)
  obtain rfl := (List.cons.inj node).1
  exact ⟨_, given .free, rfl, same⟩

theorem name_item (dialect : Dialect) (name : String) :
    ReadsItem .identifier (fun n => (dialect.quote n).toList)
      (fun n tree => Ddl.identifier dialect tree = n) name := by
  refine ⟨quote_solid dialect name, fun rest ends => ?_⟩
  obtain ⟨tree, given, rule, same⟩ := name_read dialect name rest (item_ends_name rest ends)
  exact ⟨rest, tree, given, rfl, rule, same⟩

theorem resolve_single (dialect : Dialect) (part : NamePart) :
    dialect.resolve [part] = .ok (dialect.fold part) := by
  cases dialect <;> rfl

theorem qualified_read (dialect : Dialect) (name : String) (rest : List Char) (apart : EndsName rest)
    (last : (skipLayout rest).head? ≠ some '.') :
    ReadsAs .qualifiedName (dialect.quote name).toList rest
      fun tree => Ddl.qualified dialect tree = .ok name := by
  obtain ⟨tree, given, rule, same⟩ := name_read dialect name rest apart
  have single : Gives .free (.many (.char '.' ++ .rule .identifier)) (skipLayout rest)
      (.matched (skipLayout rest) []) := gives_none (gives_seq_failed (gives_other_char '.' last))
  refine ⟨_, _, gives_rule .qualifiedName (gives_next [] given rfl single), skip_again rest, rfl, ?_⟩
  have parts : List.filter (·.rule = .identifier) [tree] = [tree] :=
    List.filter_eq_self.mpr (List.forall_mem_singleton.mpr (decide_eq_true rule))
  show dialect.resolve ((List.filter (·.rule = .identifier) [tree]).map Ddl.namePart) = .ok name
  rw [parts, List.map_singleton, resolve_single]
  exact congrArg Except.ok same

/-! ### Lists of names -/

theorem paired_rules {α : Type} (r : Rule) (means : α → Tree → Prop) (trees : List Tree)
    (items : List α)
    (pairs : List.Forall₂ (fun tree item => tree.rule = r ∧ means item tree) trees items) :
    (∀ tree ∈ trees, tree.rule = r) ∧ List.Forall₂ (fun tree item => means item tree) trees items := by
  refine ⟨fun tree member => ?_, pairs.imp fun _ _ => And.right⟩
  obtain ⟨item, -, rule, -⟩ := partner_of_left _ _ _ pairs tree member
  exact rule

theorem rules_apart (trees : List Tree) (k r : Rule) (rules : ∀ tree ∈ trees, tree.rule = k)
    (apart : k ≠ r) : ∀ tree ∈ trees, tree.rule ≠ r :=
  fun tree member same => apart ((rules tree member).symm.trans same)

theorem list_text (dialect : Dialect) (name : String) (names : List String) (rest : List Char) :
    (dialect.quoteList (name :: names)).toList ++ rest = (dialect.quote name).toList
      ++ (laterItems (fun n => (dialect.quote n).toList) [' '] names ++ rest) := by
  rw [Dialect.quoteList, intercalate_items dialect.quote ", " [' '] rfl, List.append_assoc]

theorem column_list_read (dialect : Dialect) (names : List String) (some : names ≠ [])
    (rest : List Char) :
    ∃ tree, Gives .free (.rule .columnList) ('(' :: ((dialect.quoteList names).toList ++ ')' :: rest))
        (.matched rest [tree]) ∧
      tree.rule = .columnList ∧ Ddl.identifiers dialect tree = names := by
  cases names with
  | nil => exact absurd rfl some
  | cons name names =>
      obtain ⟨trees, given, pairs⟩ := parens_list_read .identifier
        (fun n => (dialect.quote n).toList) (fun n tree => Ddl.identifier dialect tree = n) [' ']
        (by simp [Blank, isSpace]) _ name names (fun n _ => name_item dialect n) rest
        fun _ _ _ list => list
      obtain ⟨rules, same⟩ := paired_rules _ _ _ _ pairs
      rw [list_text]
      refine ⟨_, gives_rule .columnList given, rfl, ?_⟩
      rw [Ddl.identifiers, all_of_rule _ _ _ _ _ rules, ← List.forall₂_eq_eq_eq,
        List.forall₂_map_left_iff]
      exact same

/-! ### Columns of keys and indexes -/

def columnText (dialect : Dialect) (column : IndexColumn) : String :=
  dialect.quote column.name ++ (if column.descending then " DESC" else "")

theorem absent_before (e : Expr) (refused : e.refusedBy [',', ')', ';'] = true) (c : Char)
    (member : c ∈ [',', ')', ';']) : (Expr.opt e).start c = .passed := by
  have verdict := refused_by _ e refused c member
  simp only [Expr.start] at verdict
  simp only [Expr.start, Expr.startWith, verdict]

theorem index_column_item (dialect : Dialect) (column : IndexColumn) :
    ReadsItem .indexColumn (fun c => (columnText dialect c).toList)
      (fun c tree => Ddl.indexColumn dialect tree = .ok c) column := by
  obtain ⟨name, descending⟩ := column
  have start := quote_solid dialect name
  refine ⟨?_, fun rest ends => ?_⟩
  · simp only [columnText, String.toList_append]
    exact solid_front _ _ start
  · cases descending with
    | true =>
        have text : (columnText dialect ⟨name, true⟩).toList ++ rest
            = (dialect.quote name).toList ++ ' ' :: ("DESC".toList ++ rest) := by
          simp [columnText]
        obtain ⟨tree, given, rule, same⟩ := name_read dialect name (' ' :: ("DESC".toList ++ rest))
          (ends_name ' ' _ (by decide) (by decide))
        have order : Gives .free (.rule .sortOrder) ("DESC".toList ++ rest)
            (.matched rest [.node .sortOrder _ rest [.node (.keyword .desc) _ rest []]]) :=
          gives_rule .sortOrder (gives_right (gives_refused _ rfl (.kw .asc) rfl)
            (keyword_read .desc "DESC".toList rest rfl (ends_item_apart rest ends)))
        have descends : Solid ("DESC".toList ++ rest) := ⟨'D', _, rfl, rfl⟩
        have parts := PartsRead.next given (skip_gap _ descends)
          (parts_passed (.opt (.rule .prefixLength)) 'D' rfl rfl rfl (.last (gives_opt order)))
        rw [← text] at parts
        refine sequence_read .indexColumn _ _ _ rest rest _ _ rfl rfl parts rfl ?_
        simp [Ddl.indexColumn, rule, same]
    | false =>
        have text : (columnText dialect ⟨name, false⟩).toList = (dialect.quote name).toList := by
          simp [columnText]
        obtain ⟨tree, given, rule, same⟩ := name_read dialect name rest (item_ends_name rest ends)
        obtain ⟨c, s, member, next⟩ := skip_item_end rest ends
        have solid := item_end_solid c member
        have missing : Gives .free (.opt (.rule .sortOrder)) (c :: s) (.matched (c :: s) []) :=
          gives_passed s solid _ (absent_before _ rfl c member)
        have parts := PartsRead.next given next
          (parts_passed (.opt (.rule .prefixLength)) c rfl solid (absent_before _ rfl c member)
            (.last missing))
        rw [← text] at parts
        refine sequence_read .indexColumn _ _ _ rest (c :: s) _ _ rfl rfl parts ?_ ?_
        · rw [← next, skip_again]
        · simp [Ddl.indexColumn, rule, same]

theorem index_columns_text (dialect : Dialect) (column : IndexColumn) (columns : List IndexColumn)
    (rest : List Char) :
    (dialect.indexColumns (column :: columns)).toList ++ rest = (columnText dialect column).toList
      ++ (laterItems (fun c => (columnText dialect c).toList) [' '] columns ++ rest) := by
  have items := intercalate_items (columnText dialect) ", " [' '] rfl column columns
  rw [← List.append_assoc, ← items]
  rfl

theorem index_columns_between (dialect : Dialect) (list : Expr) (columns : List IndexColumn)
    (some : columns ≠ []) (rest : List Char)
    (within : ∀ s left trees, Gives .free (.commaList (.rule .indexColumn)) s (.matched left trees) →
      Gives .free list s (.matched left trees)) :
    ∃ trees, Gives .free (.parens list)
        ('(' :: ((dialect.indexColumns columns).toList ++ ')' :: rest)) (.matched rest trees) ∧
      (∀ tree ∈ trees, tree.rule = .indexColumn) ∧
      List.Forall₂ (fun tree column => Ddl.indexColumn dialect tree = .ok column) trees columns := by
  cases columns with
  | nil => exact absurd rfl some
  | cons column columns =>
      obtain ⟨trees, given, pairs⟩ := parens_list_read .indexColumn
        (fun c => (columnText dialect c).toList) (fun c tree => Ddl.indexColumn dialect tree = .ok c)
        [' '] (by simp [Blank, isSpace]) list column columns
        (fun c _ => index_column_item dialect c) rest within
      rw [index_columns_text]
      exact ⟨trees, given, paired_rules _ _ _ _ pairs⟩

theorem index_columns_read (dialect : Dialect) (columns : List IndexColumn) (some : columns ≠ [])
    (rest : List Char) :
    ∃ tree, Gives .free (.rule .indexColumnList)
        ('(' :: ((dialect.indexColumns columns).toList ++ ')' :: rest)) (.matched rest [tree]) ∧
      tree.rule = .indexColumnList ∧
      (tree.all .indexColumn).mapM (Ddl.indexColumn dialect) = .ok columns := by
  obtain ⟨trees, given, rules, same⟩ := index_columns_between dialect _ columns some rest
    fun _ _ _ list => list
  refine ⟨_, gives_rule .indexColumnList given, rfl, ?_⟩
  rw [all_of_rule _ _ _ _ _ rules]
  exact (map_m_ok _ _ _).mpr same

def ascending (names : List String) : List IndexColumn := names.map fun name => { name }

theorem quote_list_ascends (dialect : Dialect) (names : List String) :
    dialect.quoteList names = dialect.indexColumns (ascending names) := by
  rw [Dialect.indexColumns, ascending, List.map_map, Dialect.quoteList]
  congr 2
  funext name
  exact String.append_empty.symm

theorem key_columns_of (dialect : Dialect) (names : List String) (trees : List Tree)
    (same : List.Forall₂ (fun tree column => Ddl.indexColumn dialect tree = .ok column) trees
      (ascending names)) :
    trees.mapM (Ddl.keyColumn dialect) = .ok names := by
  rw [map_m_ok]
  refine (List.forall₂_map_right_iff.mp same).imp fun tree name found => ?_
  rw [Ddl.keyColumn, found]
  rfl

theorem key_columns_read (dialect : Dialect) (names : List String) (some : names ≠ [])
    (rest : List Char) :
    ∃ tree, Gives .free (.rule .indexColumnList)
        ('(' :: ((dialect.quoteList names).toList ++ ')' :: rest)) (.matched rest [tree]) ∧
      tree.rule = .indexColumnList ∧
      (tree.all .indexColumn).mapM (Ddl.keyColumn dialect) = .ok names := by
  obtain ⟨trees, given, rules, same⟩ := index_columns_between dialect _ (ascending names)
    (List.map_eq_nil_iff.not.mpr some) rest fun _ _ _ list => list
  rw [quote_list_ascends]
  refine ⟨_, gives_rule .indexColumnList given, rfl, ?_⟩
  rw [all_of_rule _ _ _ _ _ rules]
  exact key_columns_of dialect names trees same

theorem optional_key_read (dialect : Dialect) (names : List String) (rest : List Char) :
    ∃ trees, Gives .free (.parens (.opt (.commaList (.rule .indexColumn))))
        ('(' :: ((dialect.quoteList names).toList ++ ')' :: rest)) (.matched rest trees) ∧
      (∀ tree ∈ trees, tree.rule = .indexColumn) ∧
      trees.mapM (Ddl.keyColumn dialect) = .ok names := by
  by_cases empty : names = []
  · subst empty
    have close := skip_solid_char ')' rest rfl
    exact ⟨[], parens_read _ (')' :: rest) rest _ [] ⟨')', rest, rfl, rfl⟩
      (gives_passed rest rfl _ rfl) close, List.forall_mem_nil _, rfl⟩
  · obtain ⟨trees, given, rules, same⟩ := index_columns_between dialect _ (ascending names)
      (List.map_eq_nil_iff.not.mpr empty) rest fun _ _ _ list => gives_opt list
    rw [quote_list_ascends]
    exact ⟨trees, given, rules, key_columns_of dialect names trees same⟩

end SchemaDrift
