import SchemaDrift.Proofs.Ddl.PrintedTable
/-!
The statements of a printed schema: a table, an index that stands outside of its table, and a
foreign key that is added when the table it points at exists.
-/

set_option autoImplicit false

namespace SchemaDrift

open Grammar

theorem space_ends_name (s : List Char) : EndsName (' ' :: s) :=
  ends_name ' ' s (by decide) (by decide)

theorem name_solid (dialect : Dialect) (name : String) (s : List Char) :
    Solid ((dialect.quote name).toList ++ s) := solid_front _ s (quote_solid dialect name)

/-! ### Indexes -/

section Index

variable (dialect : Dialect) (table : String) (index : Index)

def Dialect.indexTarget (rest : List Char) : List Char :=
  (dialect.quote table).toList
    ++ ' ' :: '(' :: ((dialect.indexColumns index.columns).toList ++ ')' :: rest)

def Dialect.indexWord (rest : List Char) : List Char :=
  "INDEX".toList ++ ' ' :: ((dialect.quote index.name).toList
    ++ ' ' :: ("ON".toList ++ ' ' :: dialect.indexTarget table index rest))

theorem plain_index_text (plain : index.unique = false) (rest : List Char) :
    (dialect.createIndex table index).toList ++ rest
      = "CREATE".toList ++ ' ' :: dialect.indexWord table index rest := by
  unfold Dialect.createIndex Dialect.indexWord Dialect.indexTarget
  simp [plain]

theorem unique_index_text (unique : index.unique = true) (rest : List Char) :
    (dialect.createIndex table index).toList ++ rest = "CREATE".toList
      ++ ' ' :: ("UNIQUE".toList ++ ' ' :: dialect.indexWord table index rest) := by
  unfold Dialect.createIndex Dialect.indexWord Dialect.indexTarget
  simp [unique]

def IsTarget (trees : List Tree) : Prop :=
  ∃ target columns, trees = [target, columns] ∧ target.rule = .qualifiedName ∧
    Ddl.qualified dialect target = .ok table ∧ columns.rule = .indexColumnList ∧
    (columns.all .indexColumn).mapM (Ddl.indexColumn dialect) = .ok index.columns

theorem index_target_read (some : index.columns ≠ []) (apart : dialect.Apart [.only] table)
    (s : List Char) :
    ∃ trees, PartsRead [.opt (.kw .only), .rule .qualifiedName, .opt (.rule .usingClause),
        .rule .indexColumnList, .many (.rule .indexSuffix)]
        (dialect.indexTarget table index (';' :: s)) (';' :: s) trees ∧
      IsTarget dialect table index trees := by
  obtain ⟨list, listed, list_rule, columns⟩ := index_columns_read dialect index.columns some (';' :: s)
  have front := opening_solid ((dialect.indexColumns index.columns).toList ++ ')' :: ';' :: s)
  obtain ⟨left, target, named, leaves, rule, meant⟩ := qualified_read dialect table _
    (space_ends_name ('(' :: ((dialect.indexColumns index.columns).toList ++ ')' :: ';' :: s)))
    (by simp [skip_gap _ front])
  have no_suffix : Gives .free (.rule .indexSuffix) (';' :: s) .failed := gives_refused s rfl _ rfl
  have only := keyword_before_name dialect .only table
    (' ' :: '(' :: ((dialect.indexColumns index.columns).toList ++ ')' :: ';' :: s)) .free
    (ends_cons _ ' ' _ rfl) apart
  have parts := PartsRead.next (gives_no_opt only) (solid_text _ (name_solid dialect table _))
    (.next named (leaves.trans (skip_gap _ front)) (parts_passed (.opt (.rule .usingClause)) '(' rfl
      rfl rfl (.next listed (skip_solid_char ';' s rfl) (.last (gives_none no_suffix)))))
  exact ⟨_, parts, target, list, rfl, rule, meant, list_rule, columns⟩

def indexTail : List Expr :=
  [.opt (.kw .concurrently), .opt (.rule .ifNotExists), .opt (.notAt (.kw .on) ++ .rule .qualifiedName),
    .kw .on, .opt (.kw .only), .rule .qualifiedName, .opt (.rule .usingClause), .rule .indexColumnList,
    .many (.rule .indexSuffix)]

theorem index_tail_read (some : index.columns ≠ []) (named : dialect.Apart [.concurrently] index.name)
    (target : dialect.Apart [.only] table) (s : List Char) :
    ∃ name on trees, PartsRead indexTail ((dialect.quote index.name).toList ++ ' ' ::
        ("ON".toList ++ ' ' :: dialect.indexTarget table index (';' :: s))) (';' :: s)
        (name :: on :: trees) ∧
      name.rule = .qualifiedName ∧ Ddl.qualified dialect name = .ok index.name ∧
      on.rule = .keyword .on ∧ IsTarget dialect table index trees := by
  obtain ⟨trees, given, meant⟩ := index_target_read dialect table index some target s
  have start := name_solid dialect table
    (' ' :: '(' :: ((dialect.indexColumns index.columns).toList ++ ')' :: ';' :: s))
  have gap := skip_gap _ (keyword_solid .on "ON".toList
    (' ' :: dialect.indexTarget table index (';' :: s)) rfl)
  obtain ⟨left, name, called, leaves, name_rule, name_meant⟩ := qualified_read dialect index.name _
    (space_ends_name ("ON".toList ++ ' ' :: dialect.indexTarget table index (';' :: s)))
    (by rw [gap]; simp)
  have here := solid_text _ (name_solid dialect index.name
    (' ' :: ("ON".toList ++ ' ' :: dialect.indexTarget table index (';' :: s))))
  have other (k : Keyword) (apart : dialect.Apart [k] index.name) :=
    keyword_before_name dialect k index.name
      (' ' :: ("ON".toList ++ ' ' :: dialect.indexTarget table index (';' :: s))) .free
      (ends_cons _ ' ' _ rfl) apart
  have not_on := gives_not (other .on (reserved_apart dialect .on index.name (by decide)))
  have parts := PartsRead.next (gives_no_opt (other .concurrently named)) here
    (.next (no_if_not_exists dialect index.name _) here
      (.next (gives_opt (gives_next _ not_on here called)) (leaves.trans gap)
        (parts_word .on "ON".toList rfl start given)))
  exact ⟨name, _, trees, parts, name_rule, name_meant, rfl, meant⟩

theorem index_read (some : index.columns ≠ []) (named : dialect.Apart [.concurrently] index.name)
    (target : dialect.Apart [.only] table) (s : List Char) :
    ReadsAs .createIndex (dialect.createIndex table index).toList (';' :: s) fun tree =>
      Ddl.indexStatement dialect tree = .ok { table, index, ifNotExists := false } := by
  obtain ⟨name, on, trees, given, name_rule, name_meant, on_rule, goal, list, rfl, goal_rule, goal_meant,
    list_rule, columns⟩ := index_tail_read dialect table index some named target s
  have word := keyword_solid .index "INDEX".toList
    (' ' :: ((dialect.quote index.name).toList
      ++ ' ' :: ("ON".toList ++ ' ' :: dialect.indexTarget table index (';' :: s)))) rfl
  have rest := parts_passed (.opt (.kw .nullFiltered)) 'I' rfl rfl rfl
    (parts_word .index "INDEX".toList rfl (name_solid dialect index.name _) given)
  have meant (unique : Bool) (kind : index.unique = unique) :
      ({ name := index.name, columns := index.columns, unique } : Index) = index := by
    rw [← kind]
  cases kind : index.unique with
  | true =>
      have parts := parts_word .create "CREATE".toList rfl (keyword_solid .unique "UNIQUE".toList _ rfl)
        (.next (gives_opt (word_read .unique "UNIQUE".toList ' ' _ rfl rfl)) (skip_gap _ word) rest)
      rw [← Dialect.indexWord, ← unique_index_text dialect table index kind] at parts
      refine sequence_read .createIndex _ _ _ (';' :: s) (';' :: s) _ _ rfl rfl parts rfl ?_
      simp [Ddl.indexStatement, Ddl.indexColumns, name_rule, name_meant, on_rule, goal_rule, goal_meant,
        list_rule, columns, bind, Except.bind, pure, Except.pure,
        meant true kind]
  | false =>
      have parts := parts_word .create "CREATE".toList rfl word
        (parts_passed (.opt (.kw .unique)) 'I' rfl rfl rfl rest)
      rw [← Dialect.indexWord, ← plain_index_text dialect table index kind] at parts
      refine sequence_read .createIndex _ _ _ (';' :: s) (';' :: s) _ _ rfl rfl parts rfl ?_
      simp [Ddl.indexStatement, Ddl.indexColumns, name_rule, name_meant, on_rule, goal_rule, goal_meant,
        list_rule, columns, bind, Except.bind, pure, Except.pure,
        meant false kind]

theorem index_statement_read (some : index.columns ≠ [])
    (named : dialect.Apart [.concurrently] index.name) (target : dialect.Apart [.only] table)
    (s : List Char) :
    ReadsAs .statement (dialect.createIndex table index).toList (';' :: s)
      (IsStatement dialect (.index table index)) := by
  obtain ⟨left, tree, given, leaves, rule, meant⟩ := index_read dialect table index some named target s
  have no_table : Gives .free (.rule .createTable)
      ((dialect.createIndex table index).toList ++ ';' :: s) .failed := by
    refine gives_no_rule .createTable ?_
    iterate 8 refine gives_seq_failed ?_
    cases kind : index.unique with
    | true =>
        rw [unique_index_text dialect table index kind]
        exact gives_next_failed (word_read .create "CREATE".toList ' ' _ rfl rfl)
          (skip_gap _ (keyword_solid .unique "UNIQUE".toList _ rfl)) (gives_refused _ rfl _ rfl)
    | false =>
        rw [plain_index_text dialect table index kind]
        exact gives_next_failed (word_read .create "CREATE".toList ' ' _ rfl rfl)
          (skip_gap _ (keyword_solid .index "INDEX".toList _ rfl)) (gives_refused _ rfl _ rfl)
  have chosen : Gives .free Rule.statement.body ((dialect.createIndex table index).toList ++ ';' :: s)
      (.matched left [tree]) := gives_left (gives_left (gives_left (gives_right no_table given)))
  refine ⟨left, _, gives_rule .statement chosen, leaves, rfl, tree, rfl, fun input schema fits => ?_⟩
  obtain ⟨draft, found⟩ := Option.isSome_iff_exists.mp fits
  simp [Ddl.Reader.statement, rule, Ddl.Reader.createIndex, meant, found, bind, Except.bind,
    Declaration.add, SchemaDraft.update]

end Index

/-! ### Foreign keys that are added -/

section Addition

variable (dialect : Dialect) (table : String) (constraint : Constraint)

def Dialect.addition : String :=
  "ALTER TABLE " ++ dialect.quote table ++ " ADD " ++ dialect.tableConstraint table constraint

def IsAddition (tree : Tree) : Prop :=
  ∃ inner, tree.children = [inner] ∧ ∀ input draft, Ddl.Reader.alterAction { dialect, input } draft inner
    = .ok (draft.addConstraint (dialect.readBack table constraint))

def Dialect.additionAction : List Char :=
  "ADD".toList ++ ' ' :: (dialect.tableConstraint table constraint).toList

theorem addition_text (rest : List Char) :
    (dialect.addition table constraint).toList ++ rest = "ALTER".toList ++ ' ' :: ("TABLE".toList
      ++ ' ' :: ((dialect.quote table).toList ++ ' ' :: (dialect.additionAction table constraint ++ rest))) := by
  unfold Dialect.addition Dialect.additionAction
  simp

theorem action_item (legible : constraint.Legible) :
    ReadsItem .alterAction (dialect.additionAction table) (IsAddition dialect table) constraint := by
  have letter : isSolid (lineLetter (dialect.writtenName? table constraint)) = true := by
    cases dialect.writtenName? table constraint <;> rfl
  refine ⟨keyword_solid .add "ADD".toList _ rfl, fun rest ends => ?_⟩
  obtain ⟨left, tree, given, leaves, rule, meant⟩ :=
    constraint_line_read dialect table constraint legible rest ends
  have parts := parts_word .add "ADD".toList rfl
    (front_solid _ _ (line_front dialect table constraint rest) letter) (.last given)
  have added : Gives .free (.rule .addConstraint) _ _ :=
    gives_rule .addConstraint (parts_given _ _ _ _ _ parts)
  have text : dialect.additionAction table constraint ++ rest
      = "ADD".toList ++ ' ' :: ((dialect.tableConstraint table constraint).toList ++ rest) := by
    rw [Dialect.additionAction, List.append_assoc, List.cons_append]
  rw [← text] at added
  refine ⟨left, _, gives_rule .alterAction (gives_left (gives_left (gives_left added))), leaves, rfl, _,
    rfl, fun input draft => ?_⟩
  simp [Ddl.Reader.alterAction, Ddl.Reader.tableElement, rule, meant, bind, Except.bind, pure,
    Except.pure]

theorem addition_read (legible : constraint.Legible) (apart : dialect.Apart [.only] table)
    (s : List Char) :
    ReadsAs .statement (dialect.addition table constraint).toList (';' :: s)
      (IsStatement dialect (.constraint table (dialect.readBack table constraint))) := by
  obtain ⟨left, actions, listed, leaves, pairs⟩ := items_read .alterAction (dialect.additionAction table)
    (IsAddition dialect table) [' '] (by simp [Blank, isSpace]) constraint []
    (action_item dialect table constraint legible) (List.forall_mem_nil _) (';' :: s)
    (ends_item_cons ';' s (by decide)) (by simp [skip_solid_char ';' s rfl])
  rw [show laterItems (dialect.additionAction table) [' '] [] = [] from rfl, List.nil_append] at listed
  obtain ⟨rules, all⟩ := paired_rules _ _ _ _ pairs
  have start : Solid (dialect.additionAction table constraint ++ ';' :: s) :=
    solid_front _ _ (action_item dialect table constraint legible).1
  obtain ⟨rest, name, named, name_leaves, name_rule, name_meant⟩ := qualified_read dialect table
    (' ' :: (dialect.additionAction table constraint ++ ';' :: s)) (space_ends_name _)
    (by rw [skip_gap _ start]; simp [Dialect.additionAction])
  have here := solid_text _ (name_solid dialect table
    (' ' :: (dialect.additionAction table constraint ++ ';' :: s)))
  have other (k : Keyword) (apart : dialect.Apart [k] table) (layout : Layout) :=
    keyword_before_name dialect k table (' ' :: (dialect.additionAction table constraint ++ ';' :: s)) layout
      (ends_cons _ ' ' _ rfl) apart
  have no_if : Gives .free (.rule .ifExists) _ _ := gives_no_rule .ifExists
    (gives_seq_failed (other .ifWord (reserved_apart dialect .ifWord table (by decide)) _))
  have parts := parts_word .alter "ALTER".toList rfl (keyword_solid .table "TABLE".toList _ rfl)
    (parts_word .table "TABLE".toList rfl (name_solid dialect table _)
      (.next (gives_no_opt no_if) here (.next (gives_no_opt (other .only apart .free)) here
        (.next named (name_leaves.trans (skip_gap _ start)) (.last listed)))))
  rw [← addition_text] at parts
  have altered : Gives .free (.rule .alterTable) _ _ :=
    gives_rule .alterTable (parts_given _ _ _ _ _ parts)
  have front : ((dialect.addition table constraint).toList ++ ';' :: s).head? = some 'A' := by
    rw [addition_text]
    rfl
  have chosen := picked_given _ _ _ Rule.statement.body .alterTable 'A' front rfl rfl altered
  refine ⟨left, _, gives_rule .statement chosen, leaves, rfl, _, rfl, fun input schema fits => ?_⟩
  obtain ⟨draft, found⟩ := Option.isSome_iff_exists.mp fits
  have added := fold_children (Ddl.Reader.alterAction { dialect, input })
    (fun draft c => draft.addConstraint (dialect.readBack table c)) actions [constraint]
    (all.imp fun tree c is => is.imp fun inner both => ⟨both.1, both.2 input⟩) draft
  simp [Ddl.Reader.statement, Ddl.Reader.alterTable, name_rule, name_meant,
    all_of_rule _ _ _ _ _ rules, found, added, bind, Except.bind, Declaration.add, SchemaDraft.update]

end Addition

/-! ### All of them -/

inductive Dialect.States (dialect : Dialect) : Declaration → String → Prop
  | table (table : Table) (line : Line × String) (lines : List (Line × String))
      (prints : ∀ l ∈ line :: lines, dialect.Prints table.name l.1 l.2)
      (legible : ∀ option ∈ table.options, LegibleOption option) :
      States dialect (.table (dialect.declared table ((line :: lines).map Prod.fst)))
        (dialect.tableStatement table ((line :: lines).map Prod.snd))
  | index (table : String) (index : Index) (some : index.columns ≠ [])
      (named : dialect.Apart [.concurrently] index.name) (target : dialect.Apart [.only] table) :
      States dialect (.index table index) (dialect.createIndex table index)
  | constraint (table : String) (constraint : Constraint) (legible : constraint.Legible)
      (apart : dialect.Apart [.only] table) :
      States dialect (.constraint table (dialect.readBack table constraint))
        (dialect.addition table constraint)

theorem statement_read (dialect : Dialect) (declaration : Declaration) (text : String)
    (states : dialect.States declaration text) (s : List Char) :
    Solid text.toList ∧
      ReadsAs .statement text.toList (';' :: s) (IsStatement dialect declaration) := by
  cases states with
  | table table line lines prints legible =>
      have text := table_text dialect table line lines []
      rw [List.append_nil] at text
      refine ⟨?_, table_read dialect table line lines prints legible s⟩
      rw [text]
      exact keyword_solid .create "CREATE".toList _ rfl
  | index table index some named target =>
      refine ⟨?_, index_statement_read dialect table index some named target s⟩
      have front : (dialect.createIndex table index).toList.head? = Option.some 'C' := by
        unfold Dialect.createIndex
        simp
      exact front_solid _ 'C' front rfl
  | constraint table constraint legible apart =>
      have text := addition_text dialect table constraint []
      rw [List.append_nil] at text
      refine ⟨?_, addition_read dialect table constraint legible apart s⟩
      rw [text]
      exact keyword_solid .alter "ALTER".toList _ rfl

end SchemaDrift
