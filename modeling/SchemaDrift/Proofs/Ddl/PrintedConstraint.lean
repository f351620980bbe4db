import SchemaDrift.Ddl.Constraint
import SchemaDrift.Proofs.Ddl.NameList
/-!
The constraints of a table are read back from the lines that a dialect writes for them: with the
names they are written with, and checks without the column they were declared on.
-/

set_option autoImplicit false

namespace SchemaDrift

open Grammar

/-! ### Actions of foreign keys -/

theorem action_given (action : ReferentialAction) (rest : List Char)
    (apart : CharSet.identifier.Ends rest) :
    ∃ trees, Gives .free Rule.referentialAction.body (action.sql.toList ++ rest)
      (.matched rest trees) := by
  have last (k : Keyword) (word : List Char) (same : word.map Char.toLower = k.text.toList) :
      Gives .free (.kw k) (word ++ rest) (.matched rest [.node (.keyword k) (word ++ rest) rest []]) :=
    keyword_read k word rest same apart
  have solid (c : Char) (s : List Char) (ink : isSolid c = true) : Solid (c :: s ++ rest) :=
    ⟨c, s ++ rest, rfl, ink⟩
  have refused (e : Expr) (c : Char) (s : List Char) (ink : isSolid c = true)
      (refuses : e.start c = .refused) : Gives .free e (c :: s ++ rest) .failed :=
    gives_refused (s ++ rest) ink e refuses
  cases action with
  | cascade =>
      exact ⟨_, gives_left (gives_left (gives_left (gives_left (last .cascade "CASCADE".toList rfl))))⟩
  | restrict =>
      have other := refused (.kw .cascade) 'R' "ESTRICT".toList rfl rfl
      exact ⟨_, gives_left (gives_left (gives_left (gives_right other
        (last .restrict "RESTRICT".toList rfl))))⟩
  | noAction =>
      have other := refused (.kw .cascade ||| .kw .restrict) 'N' "O ACTION".toList rfl rfl
      have parts := parts_word .no "NO".toList rfl (solid 'A' _ rfl)
        (.last (last .action "ACTION".toList rfl))
      exact ⟨_, gives_left (gives_left (gives_right other (parts_given _ _ _ _ _ parts)))⟩
  | setNull =>
      have other := refused (.kw .cascade ||| .kw .restrict ||| (.kw .no ++ .kw .action)) 'S'
        "ET NULL".toList rfl rfl
      have parts := parts_word .set "SET".toList rfl (solid 'N' _ rfl)
        (.last (last .null "NULL".toList rfl))
      exact ⟨_, gives_left (gives_right other (parts_given _ _ _ _ _ parts))⟩
  | setDefault =>
      have other := refused (.kw .cascade ||| .kw .restrict ||| (.kw .no ++ .kw .action)) 'S'
        "ET DEFAULT".toList rfl rfl
      have parts := parts_word .set "SET".toList rfl (solid 'D' _ rfl)
        (.last (last .default "DEFAULT".toList rfl))
      have set := word_read .set "SET".toList ' ' ("DEFAULT".toList ++ rest) rfl rfl
      have null := gives_next_failed set (skip_gap _ (solid 'D' _ rfl))
        (refused (.kw .null) 'D' "EFAULT".toList rfl rfl)
      exact ⟨_, gives_right (gives_right other null) (parts_given _ _ _ _ _ parts)⟩

theorem action_meant (action : ReferentialAction) :
    Ddl.action? (Text.upperWords action.sql.toList) = ReferentialAction.effective (some action) := by
  cases action <;> decide

structure EventRule where
  deletes : Bool
  action : ReferentialAction

namespace EventRule

def event (rule : EventRule) : Keyword := if rule.deletes then .delete else .update

def word (rule : EventRule) : List Char := if rule.deletes then "DELETE".toList else "UPDATE".toList

def text (rule : EventRule) : List Char :=
  "ON".toList ++ ' ' :: (rule.word ++ ' ' :: rule.action.sql.toList)

structure Is (rule : EventRule) (tree : Tree) : Prop where
  events : ∀ event ∈ [.delete, .update], tree.has (.keyword event) = decide (rule.event = event)
  action : ((tree.first? .referentialAction).bind fun t => Ddl.action? (Ddl.upperText t))
    = ReferentialAction.effective (some rule.action)

end EventRule

theorem event_given (rule : EventRule) (s : List Char) :
    Gives .free (.kw .delete ||| .kw .update) (rule.word ++ ' ' :: s) (.matched (' ' :: s)
      [.node (.keyword rule.event) (rule.word ++ ' ' :: s) (' ' :: s) []]) := by
  obtain ⟨deletes, action⟩ := rule
  cases deletes with
  | true => exact gives_left (word_read .delete "DELETE".toList ' ' s rfl rfl)
  | false =>
      exact gives_right (gives_refused ("PDATE".toList ++ ' ' :: s) rfl (.kw .delete) rfl)
        (word_read .update "UPDATE".toList ' ' s rfl rfl)

theorem word_solid (rule : EventRule) (s : List Char) : Solid (rule.word ++ s) := by
  obtain ⟨deletes, action⟩ := rule
  cases deletes with
  | true => exact ⟨'D', _, rfl, rfl⟩
  | false => exact ⟨'U', _, rfl, rfl⟩

theorem action_solid (action : ReferentialAction) (s : List Char) : Solid (action.sql.toList ++ s) := by
  cases action with
  | cascade => exact ⟨'C', _, rfl, rfl⟩
  | restrict => exact ⟨'R', _, rfl, rfl⟩
  | noAction => exact ⟨'N', _, rfl, rfl⟩
  | setNull | setDefault => exact ⟨'S', _, rfl, rfl⟩

theorem action_read (rule : EventRule) (rest : List Char) (apart : CharSet.identifier.Ends rest) :
    ReadsAs .referentialRule rule.text rest rule.Is := by
  obtain ⟨trees, given⟩ := action_given rule.action rest apart
  have inner : Gives .free (.rule .referentialAction) (rule.action.sql.toList ++ rest)
      (.matched rest [.node .referentialAction (rule.action.sql.toList ++ rest) rest trees]) :=
    gives_rule .referentialAction given
  have parts := parts_word .on "ON".toList rfl (word_solid rule _) (.next (event_given rule _)
    (skip_gap _ (action_solid rule.action rest)) (.last inner))
  have text : rule.text ++ rest
      = "ON".toList ++ ' ' :: (rule.word ++ ' ' :: (rule.action.sql.toList ++ rest)) := by
    simp [EventRule.text]
  rw [← text] at parts
  refine sequence_read .referentialRule _ _ _ rest rest _ _ rfl rfl parts rfl ⟨?_, ?_⟩
  · cases deletes : rule.deletes <;> simp [EventRule.event, deletes]
  · simp [Ddl.upperText, tree_text, action_meant]

def actionsText (rules : List EventRule) : List Char := rules.flatMap fun rule => ' ' :: rule.text

theorem actions_end (rules : List EventRule) (rest : List Char) (ends : EndsItem rest) :
    CharSet.identifier.Ends (actionsText rules ++ rest) := by
  cases rules with
  | nil => exact ends_item_apart rest ends
  | cons rule rules => exact ends_cons _ ' ' _ rfl

theorem actions_row (rules : List EventRule) (rest : List Char) (ends : EndsItem rest) :
    RowReads .referentialRule EventRule.Is rest (actionsText rules) rules := by
  induction rules with
  | nil => exact .nil
  | cons rule rules ih =>
      exact .cons rule rules rule.text _ (keyword_solid .on "ON".toList _ rfl)
        (action_read rule _ (actions_end rules rest ends)) ih

def Reference.actions (reference : Reference) : List EventRule :=
  (reference.onDelete.map fun action => { deletes := true, action }).toList
    ++ (reference.onUpdate.map fun action => { deletes := false, action }).toList

theorem event_text (event : String) (deletes : Bool) (action : Option ReferentialAction)
    (word : event.toList = (EventRule.mk deletes .cascade).word) :
    (Dialect.actionSql event action).toList
      = actionsText (action.map fun action => { deletes, action : EventRule }).toList := by
  cases action with
  | none => rfl
  | some action =>
      have text : (Dialect.actionSql event (some action)).toList
          = ' ' :: ("ON".toList ++ ' ' :: (event.toList ++ ' ' :: action.sql.toList)) := by
        simp [Dialect.actionSql, toString]
      rw [text, word]
      exact (List.append_nil _).symm

theorem actions_text (reference : Reference) :
    (Dialect.actionSql "DELETE" reference.onDelete
      ++ Dialect.actionSql "UPDATE" reference.onUpdate).toList = actionsText reference.actions := by
  rw [String.toList_append, event_text "DELETE" true _ rfl, event_text "UPDATE" false _ rfl,
    actionsText, actionsText, ← List.flatMap_append]
  rfl

theorem event_found (event : Keyword) (member : event ∈ [.delete, .update]) (trees : List Tree)
    (rules : List EventRule) (all : List.Forall₂ (fun tree rule => rule.Is tree) trees rules) :
    ((trees.find? (·.has (.keyword event))).bind fun tree =>
        (tree.first? .referentialAction).bind fun t => Ddl.action? (Ddl.upperText t))
      = (rules.find? (·.event = event)).bind fun rule =>
          ReferentialAction.effective (some rule.action) := by
  induction all with
  | nil => rfl
  | cons is others ih =>
      rename_i rule _ _
      rw [List.find?_cons, List.find?_cons, is.events event member]
      cases decide (rule.event = event) with
      | true => exact is.action
      | false => exact ih

theorem actions_meant (event : Keyword) (member : event ∈ [.delete, .update])
    (reference : Reference) (trees : List Tree)
    (all : List.Forall₂ (fun tree rule => rule.Is tree) trees reference.actions) :
    Ddl.actionOn event trees = (reference.actions.reverse.find? (·.event = event)).bind
      fun rule => ReferentialAction.effective (some rule.action) :=
  event_found event member _ _ (List.rel_reverse all)

/-! ### References -/

def Dialect.referenceText (dialect : Dialect) (reference : Reference) : List Char :=
  "REFERENCES".toList ++ ' ' :: ((dialect.quote reference.table).toList
    ++ ' ' :: '(' :: ((dialect.quoteList reference.columns).toList
      ++ ')' :: actionsText reference.actions))

def Reference.reread (reference : Reference) : Reference :=
  { reference with
    onDelete := ReferentialAction.effective reference.onDelete
    onUpdate := ReferentialAction.effective reference.onUpdate }

theorem actions_reread (reference : Reference) (trees : List Tree)
    (all : List.Forall₂ (fun tree rule => rule.Is tree) trees reference.actions) :
    Ddl.actionOn .delete trees = reference.reread.onDelete ∧
      Ddl.actionOn .update trees = reference.reread.onUpdate := by
  rw [actions_meant .delete (by decide) reference trees all,
    actions_meant .update (by decide) reference trees all]
  obtain ⟨table, columns, onDelete, onUpdate⟩ := reference
  cases onDelete <;> cases onUpdate <;> exact ⟨rfl, rfl⟩

theorem reference_read (dialect : Dialect) (reference : Reference) (some : reference.columns ≠ [])
    (rest : List Char) (ends : EndsItem rest) :
    ReadsAs .referencesClause (dialect.referenceText reference) rest
      fun tree => Ddl.reference dialect tree = .ok reference.reread := by
  have group (s : List Char) : skipLayout (' ' :: '(' :: s) = '(' :: s :=
    skip_gap _ ⟨'(', s, rfl, rfl⟩
  obtain ⟨left, name, named, leaves, name_rule, name_meant⟩ := qualified_read dialect
    reference.table (' ' :: '(' :: ((dialect.quoteList reference.columns).toList
      ++ ')' :: (actionsText reference.actions ++ rest)))
    (ends_name ' ' _ (by decide) (by decide)) (by simp [group])
  obtain ⟨list, listed, list_rule, list_meant⟩ := column_list_read dialect reference.columns some
    (actionsText reference.actions ++ rest)
  obtain ⟨last, rules, later, last_leaves, pairs⟩ := row_read .referentialRule EventRule.Is rest
    (absent_at_end _ rest rfl ends) _ _ (actions_row reference.actions rest ends)
    (skipLayout (actionsText reference.actions ++ rest)) (skip_again _)
  obtain ⟨kinds, all⟩ := paired_rules _ _ _ _ pairs
  have parts := parts_word .references "REFERENCES".toList rfl
    (solid_front _ _ (quote_solid dialect reference.table))
    (.next named (leaves.trans (group _)) (.next (gives_opt listed) rfl
      (.last (gives_many_later (free_skip_again _) later))))
  have text : dialect.referenceText reference ++ rest
      = "REFERENCES".toList ++ ' ' :: ((dialect.quote reference.table).toList
        ++ ' ' :: '(' :: ((dialect.quoteList reference.columns).toList
          ++ ')' :: (actionsText reference.actions ++ rest))) := by
    unfold Dialect.referenceText
    simp
  rw [← text] at parts
  refine sequence_read .referencesClause _ _ _ rest last _ _ rfl rfl parts last_leaves ?_
  have others : ∀ tree ∈ rules, tree.rule ≠ .columnList := fun tree member => by
    rw [kinds tree member]
    decide
  obtain ⟨on_delete, on_update⟩ := actions_reread reference rules all
  simp [Ddl.reference, Ddl.columnList, name_rule, list_rule, all_of_rule _ _ _ _ _ kinds,
    all_of_other _ _ _ _ _ others, list_meant, name_meant, some, on_delete, on_update,
    Reference.reread, bind, Except.bind]

/-! ### Constraints without their names -/

def Constraint.Legible (constraint : Constraint) : Prop :=
  match constraint.kind with
  | .primaryKey | .unique => constraint.columns ≠ []
  | .foreignKey reference => constraint.columns ≠ [] ∧ reference.columns ≠ []
  | .check expression => GroupBody (expression.toList ++ [')'])

def Constraint.bare (constraint : Constraint) : Constraint :=
  match constraint.kind with
  | .primaryKey => .primaryKey constraint.columns
  | .unique => .unique constraint.columns
  | .foreignKey reference => .foreignKey constraint.columns reference.reread
  | .check expression =>
    .check [] (String.ofList (Default.stripParens ('(' :: (expression.toList ++ [')']))))

theorem no_optional_name (s : List Char) :
    Gives .free optionalName ('(' :: s) (.matched ('(' :: s) []) :=
  gives_no_opt (gives_seq_failed (gives_no_not (gives_char '(')))

section Bodies

variable (dialect : Dialect) (columns : List String) (some : columns ≠ []) (rest : List Char)

theorem opening_solid (s : List Char) : Solid ('(' :: s) := ⟨'(', s, rfl, rfl⟩

include some in
theorem primary_key_read :
    ReadsAs .primaryKeyConstraint (dialect.constraintBody (.primaryKey columns)).toList rest
      fun tree => Ddl.constraintBody dialect tree = .ok (.primaryKey columns) := by
  obtain ⟨list, listed, list_rule, list_meant⟩ := key_columns_read dialect columns some rest
  have parts := parts_word .primary "PRIMARY".toList rfl (keyword_solid .key "KEY".toList _ rfl)
    (parts_word .key "KEY".toList rfl (opening_solid _) (.last listed))
  have text : (dialect.constraintBody (.primaryKey columns)).toList ++ rest
      = "PRIMARY".toList ++ ' ' :: ("KEY".toList
        ++ ' ' :: '(' :: ((dialect.quoteList columns).toList ++ ')' :: rest)) := by
    simp [Dialect.constraintBody, Constraint.primaryKey, toString]
  rw [← text] at parts
  refine sequence_read .primaryKeyConstraint _ _ _ rest rest _ _ rfl rfl parts rfl ?_
  simp [Ddl.constraintBody, Ddl.keyColumns, list_rule, list_meant, bind, Except.bind]

include some in
theorem unique_read :
    ReadsAs .uniqueConstraint (dialect.constraintBody (.unique columns)).toList rest fun tree =>
      Ddl.constraintBody dialect tree = .ok (.unique columns) ∧ tree.first? .identifier = none := by
  obtain ⟨list, listed, list_rule, list_meant⟩ := key_columns_read dialect columns some rest
  have parts := parts_word .unique "UNIQUE".toList rfl (opening_solid _)
    (parts_passed (.opt (.kw .key ||| .kw .index)) '(' rfl rfl rfl
      (.next (no_optional_name _) (skip_solid_char '(' _ rfl) (.last listed)))
  have text : (dialect.constraintBody (.unique columns)).toList ++ rest
      = "UNIQUE".toList ++ ' ' :: '(' :: ((dialect.quoteList columns).toList ++ ')' :: rest) := by
    simp [Dialect.constraintBody, Constraint.unique, toString]
  rw [← text] at parts
  refine sequence_read .uniqueConstraint _ _ _ rest rest _ _ rfl rfl parts rfl ⟨?_, ?_⟩
  · simp [Ddl.constraintBody, Ddl.keyColumns, list_rule, list_meant, bind, Except.bind]
  · simp [list_rule]

include some in
theorem foreign_key_read (reference : Reference) (points : reference.columns ≠ [])
    (ends : EndsItem rest) :
    ReadsAs .foreignKeyConstraint (dialect.constraintBody (.foreignKey columns reference)).toList rest
      fun tree => Ddl.constraintBody dialect tree = .ok (.foreignKey columns reference.reread) := by
  obtain ⟨left, clause, given, leaves, clause_rule, clause_meant⟩ :=
    reference_read dialect reference points rest ends
  have solid : Solid (dialect.referenceText reference ++ rest) :=
    solid_front _ _ (keyword_solid .references "REFERENCES".toList _ rfl)
  obtain ⟨list, listed, list_rule, list_meant⟩ := column_list_read dialect columns some
    (' ' :: (dialect.referenceText reference ++ rest))
  have parts := parts_word .foreign "FOREIGN".toList rfl (keyword_solid .key "KEY".toList _ rfl)
    (parts_word .key "KEY".toList rfl (opening_solid _)
      (.next (no_optional_name _) (skip_solid_char '(' _ rfl) (.next listed (skip_gap _ solid)
        (.last given))))
  have text : (dialect.constraintBody (.foreignKey columns reference)).toList ++ rest
      = "FOREIGN".toList ++ ' ' :: ("KEY".toList ++ ' ' :: '(' ::
        ((dialect.quoteList columns).toList ++ ')' :: ' ' :: (dialect.referenceText reference ++ rest))) := by
    unfold Dialect.referenceText
    rw [← actions_text]
    simp [Dialect.constraintBody, Constraint.foreignKey, toString]
  rw [← text] at parts
  refine sequence_read .foreignKeyConstraint _ _ _ rest left _ _ rfl rfl parts leaves ?_
  simp [Ddl.constraintBody, Ddl.columnList, list_rule, clause_rule, clause_meant, list_meant, bind,
    Except.bind]

theorem check_read (expression : String) (body : GroupBody (expression.toList ++ [')'])) :
    ReadsAs .checkConstraint (dialect.constraintBody (.check columns expression)).toList rest
      fun tree => Ddl.constraintBody dialect tree = .ok (Constraint.check columns expression).bare := by
  obtain ⟨trees, group⟩ := group_read _ body rest
  have parts := parts_word .check "CHECK".toList rfl (opening_solid _) (.last group)
  have text : (dialect.constraintBody (.check columns expression)).toList ++ rest
      = "CHECK".toList ++ ' ' :: '(' :: (expression.toList ++ [')'] ++ rest) := by
    simp [Dialect.constraintBody, Constraint.check, toString]
  rw [← text] at parts
  refine sequence_read .checkConstraint _ _ _ rest rest _ _ rfl rfl parts rfl ?_
  have inside := tree_text .parenGroup ('(' :: (expression.toList ++ [')'])) rest trees
  simp [Ddl.constraintBody, Ddl.checkExpression, Constraint.bare, Constraint.check] at inside ⊢
  rw [inside]

end Bodies

def constraintBodies : Expr :=
  .rule .primaryKeyConstraint ||| .rule .foreignKeyConstraint ||| .rule .uniqueConstraint
    ||| .rule .checkConstraint

def ConstraintKind.letter : ConstraintKind → Char
  | primaryKey => 'P'
  | foreignKey _ => 'F'
  | unique => 'U'
  | check _ => 'C'

theorem letter_is_solid (kind : ConstraintKind) : isSolid kind.letter = true := by
  cases kind <;> rfl

theorem body_front (dialect : Dialect) (constraint : Constraint) (rest : List Char) :
    ((dialect.constraintBody constraint).toList ++ rest).head? = some constraint.kind.letter := by
  obtain ⟨name, columns, kind⟩ := constraint
  cases kind <;> simp [Dialect.constraintBody, ConstraintKind.letter, toString]

theorem constraint_body_read (dialect : Dialect) (constraint : Constraint)
    (legible : constraint.Legible) (rest : List Char) (ends : EndsItem rest) :
    ∃ left tree, Gives .free constraintBodies ((dialect.constraintBody constraint).toList ++ rest)
        (.matched left [tree]) ∧
      skipLayout left = skipLayout rest ∧
      Ddl.constraintBody dialect tree = .ok constraint.bare ∧ tree.rule ≠ .constraintName ∧
      (tree.rule = .uniqueConstraint → tree.first? .identifier = none) := by
  have front := body_front dialect constraint rest
  have picked (r : Rule) (left : List Char) (tree : Tree)
      (picks : constraintBodies.picks constraint.kind.letter r = true)
      (given : Gives .free (.rule r) ((dialect.constraintBody constraint).toList ++ rest)
        (.matched left [tree])) := picked_given _ _ _ constraintBodies r _ front
    (letter_is_solid constraint.kind) picks given
  obtain ⟨name, columns, kind⟩ := constraint
  cases kind with
  | primaryKey =>
      obtain ⟨left, tree, given, leaves, rule, meant⟩ := primary_key_read dialect columns legible rest
      exact ⟨left, tree, picked _ left tree rfl given, leaves, meant, by simp [rule], by simp [rule]⟩
  | foreignKey reference =>
      obtain ⟨left, tree, given, leaves, rule, meant⟩ :=
        foreign_key_read dialect columns legible.1 rest reference legible.2 ends
      exact ⟨left, tree, picked _ left tree rfl given, leaves, meant, by simp [rule], by simp [rule]⟩
  | unique =>
      obtain ⟨left, tree, given, leaves, rule, meant, unnamed⟩ :=
        unique_read dialect columns legible rest
      exact ⟨left, tree, picked _ left tree rfl given, leaves, meant, by simp [rule],
        fun _ => unnamed⟩
  | check expression =>
      obtain ⟨left, tree, given, leaves, rule, meant⟩ :=
        check_read dialect columns rest expression legible
      exact ⟨left, tree, picked _ left tree rfl given, leaves, meant, by simp [rule], by simp [rule]⟩

/-! ### Lines -/

def Dialect.readBack (dialect : Dialect) (table : String) (constraint : Constraint) : Constraint :=
  { constraint.bare with name := dialect.writtenName? table constraint }

theorem bare_kind (constraint : Constraint) :
    constraint.bare.isPrimaryKey = constraint.isPrimaryKey ∧ constraint.bare.name = none := by
  obtain ⟨name, columns, kind⟩ := constraint
  cases kind <;> exact ⟨rfl, rfl⟩

theorem named_reread (dialect : Dialect) (table : String) (constraint : Constraint) :
    Ddl.withName dialect constraint.bare (dialect.writtenName? table constraint)
      = dialect.readBack table constraint := by
  obtain ⟨key, unnamed⟩ := bare_kind constraint
  rw [Dialect.readBack]
  cases written : dialect.writtenName? table constraint with
  | none => exact congrArg (fun name => ({ constraint.bare with name } : Constraint)) unnamed
  | some name =>
      have kept : ¬(constraint.bare.isPrimaryKey = true ∧ dialect ≠ .postgres) := by
        rw [key]
        rintro ⟨primary, other⟩
        rw [Dialect.writtenName?, if_pos primary, if_neg other] at written
        cases written
      rw [Ddl.withName, if_neg kept]
      rfl

-- Only a primary key is written without a name.
theorem unnamed_is_primary (dialect : Dialect) (table : String) (constraint : Constraint)
    (unnamed : dialect.writtenName? table constraint = none) : constraint.kind = .primaryKey := by
  rw [Dialect.writtenName?] at unnamed
  split at unnamed
  case isTrue primary => exact of_decide_eq_true primary
  case isFalse => cases unnamed

theorem unnamed_text (dialect : Dialect) (table : String) (constraint : Constraint)
    (unnamed : dialect.writtenName? table constraint = none) :
    dialect.tableConstraint table constraint = dialect.constraintBody constraint := by
  rw [Dialect.tableConstraint, unnamed]

theorem named_text (dialect : Dialect) (table name : String) (constraint : Constraint)
    (named : dialect.writtenName? table constraint = some name) (rest : List Char) :
    (dialect.tableConstraint table constraint).toList ++ rest
      = "CONSTRAINT".toList ++ ' ' :: ((dialect.quote name).toList
        ++ ' ' :: ((dialect.constraintBody constraint).toList ++ rest)) := by
  simp [Dialect.tableConstraint, named]

def lineLetter : Option String → Char
  | some _ => 'C'
  | none => 'P'

theorem line_front (dialect : Dialect) (table : String) (constraint : Constraint)
    (rest : List Char) :
    ((dialect.tableConstraint table constraint).toList ++ rest).head?
      = some (lineLetter (dialect.writtenName? table constraint)) := by
  cases written : dialect.writtenName? table constraint with
  | none =>
      have kind := unnamed_is_primary dialect table constraint written
      rw [unnamed_text dialect table constraint written, body_front, kind]
      rfl
  | some name =>
      rw [named_text dialect table name constraint written]
      rfl

theorem constraint_line_read (dialect : Dialect) (table : String) (constraint : Constraint)
    (legible : constraint.Legible) (rest : List Char) (ends : EndsItem rest) :
    ReadsAs .tableConstraint (dialect.tableConstraint table constraint).toList rest fun tree =>
      Ddl.tableConstraint dialect tree = .ok (dialect.readBack table constraint) := by
  obtain ⟨left, body, given, leaves, meant, other, bare⟩ :=
    constraint_body_read dialect constraint legible rest ends
  have reread := named_reread dialect table constraint
  have front := line_front dialect table constraint rest
  cases written : dialect.writtenName? table constraint with
  | none =>
      rw [written] at front reread
      rw [← unnamed_text dialect table constraint written] at given
      have parts := parts_passed (.opt (.rule .constraintName)) 'P' front rfl rfl (.last given)
      refine sequence_read .tableConstraint _ _ _ rest left _ _ rfl rfl parts leaves ?_
      have unnamed : Ddl.constraintName? dialect
          (.node .tableConstraint ((dialect.tableConstraint table constraint).toList ++ rest) left [body])
            = none := by
        by_cases unique : body.rule = .uniqueConstraint
        · simp [Ddl.constraintName?, unique, bare unique]
        · simp [Ddl.constraintName?, other, unique]
      simp [Ddl.tableConstraint, unnamed, meant, reread, bind, Except.bind]
  | some name =>
      rw [written] at reread
      obtain ⟨tree, named, rule, same⟩ := name_read dialect name
        (' ' :: ((dialect.constraintBody constraint).toList ++ rest))
        (ends_name ' ' _ (by decide) (by decide))
      have start := front_solid _ _ (body_front dialect constraint rest)
        (letter_is_solid constraint.kind)
      have front := parts_given _ _ _ _ _
        (parts_word .constraint "CONSTRAINT".toList rfl (solid_front _ _ (quote_solid dialect name))
          (.last named))
      have called : Gives .free (.rule .constraintName) _ _ := gives_rule .constraintName front
      have parts := PartsRead.next (gives_opt called) (skip_gap _ start) (.last given)
      rw [← named_text dialect table name constraint written] at parts
      refine sequence_read .tableConstraint _ _ _ rest left _ _ rfl rfl parts leaves ?_
      simp [Ddl.tableConstraint, Ddl.constraintName?, meant, rule, same, reread, bind, Except.bind]

end SchemaDrift
