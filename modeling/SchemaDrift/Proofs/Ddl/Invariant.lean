import SchemaDrift.Ddl.Document
import SchemaDrift.Proofs.Expression.Enclosed
import SchemaDrift.Proofs.Grammar.Reading
import SchemaDrift.Proofs.Result
/-!
What holds of every table that is read from a text: it holds of a table without contents, and each
part that a statement can add to a table keeps it.
-/

set_option autoImplicit false

namespace SchemaDrift

open Grammar (Tree)

/-! ### Checks -/

def ConstraintKind.Stripped (kind : ConstraintKind) : Prop :=
  ∀ e, kind = .check e → Default.stripParens e.toList = e.toList

namespace Ddl

variable (dialect : Dialect)

theorem check_stripped (tree : Tree) : (ConstraintKind.check (checkExpression tree)).Stripped := by
  rintro e ⟨⟩
  rw [checkExpression, String.toList_ofList]
  exact Default.strip_parens_again _

theorem with_name_kind (c : Constraint) (name : Option String) :
    (withName dialect c name).kind = c.kind := by
  unfold withName
  split
  · split <;> rfl
  · rfl

theorem constraint_body_stripped (tree : Tree) (c : Constraint)
    (read : constraintBody dialect tree = .ok c) : c.kind.Stripped := by
  unfold constraintBody at read
  split at read
  · obtain ⟨columns, _, last⟩ := (bind_ok _ _ _).mp read
    cases last
    rintro e ⟨⟩
  · split at read
    · obtain ⟨r, _, last⟩ := (bind_ok _ _ _).mp read
      cases last
      rintro e ⟨⟩
    · cases read
  · obtain ⟨columns, _, last⟩ := (bind_ok _ _ _).mp read
    cases last
    rintro e ⟨⟩
  · cases read
    exact check_stripped tree
  · cases read

theorem table_constraint_stripped (tree : Tree) (c : Constraint)
    (read : tableConstraint dialect tree = .ok c) : c.kind.Stripped := by
  unfold tableConstraint at read
  split at read
  · cases read
  · obtain ⟨body, found, last⟩ := (bind_ok _ _ _).mp read
    cases last
    rw [with_name_kind]
    exact constraint_body_stripped dialect _ body found

theorem clause_stripped (tree : Tree) (kind : ConstraintKind)
    (read : columnClause dialect tree = .ok (.constraint kind)) : kind.Stripped := by
  unfold columnClause at read
  dsimp only at read
  split at read
  case h_5 =>
    split at read
    · cases read
    · cases read
      rintro e ⟨⟩
  case h_6 =>
    cases read
    rintro e ⟨⟩
  case h_7 =>
    obtain ⟨r, _, last⟩ := (bind_ok _ _ _).mp read
    cases last
    rintro e ⟨⟩
  case h_8 =>
    cases read
    exact check_stripped tree
  case h_9 => split at read <;> cases read
  case h_10 =>
    split at read
    · cases read
    · split at read <;> cases read
  all_goals cases read

theorem clauses_stripped (columns : List String) (clauses : List ColumnClause)
    (each : ∀ kind, .constraint kind ∈ clauses → kind.Stripped) (name : Option String)
    (fragment : ColumnFragment) (before : ∀ c ∈ fragment.constraints, c.kind.Stripped) :
    ∀ c ∈ (addClauses dialect columns name fragment clauses).constraints, c.kind.Stripped := by
  induction clauses generalizing name fragment with
  | nil => exact before
  | cons clause clauses ih =>
      have others := fun kind member => each kind (List.mem_cons_of_mem clause member)
      cases clause with
      | constraint kind =>
          refine ih others _ _ fun c member => ?_
          rcases List.mem_append.mp member with old | new
          · exact before c old
          · rw [List.mem_singleton.mp new, with_name_kind]
            exact each kind List.mem_cons_self
      | nullable | default | constraintName | autoIncrement => exact ih others _ _ before

theorem column_constraints_stripped (tree : Tree) (column : Column) (constraints : List Constraint)
    (read : columnDefinition dialect tree = .ok (column, constraints)) :
    ∀ c ∈ constraints, c.kind.Stripped := by
  obtain ⟨fragment, body, last⟩ := (bind_ok _ _ _).mp read
  cases last
  obtain ⟨spelled, _, rest⟩ := (bind_ok _ _ _).mp body
  obtain ⟨type, _, rest⟩ := (bind_ok _ _ _).mp rest
  obtain ⟨clauses, each, last⟩ := (bind_ok _ _ _).mp rest
  cases last
  refine clauses_stripped dialect _ clauses (fun kind member => ?_) none _ (List.forall_mem_nil _)
  obtain ⟨clause, _, found⟩ := partner_of_right _ _ _ ((map_m_ok _ _ _).mp each) _ member
  exact clause_stripped dialect clause kind found

end Ddl

/-! ### Parts -/

namespace Ddl.Reader

structure Keeps (reader : Reader) (P : TableDraft → Prop) : Prop where
  bare : ∀ name, P { name }
  column : ∀ draft tree column constraints, P draft →
    columnDefinition reader.dialect tree = .ok (column, constraints) → P (draft.addColumn column)
  constraint : ∀ draft c, P draft → c.kind.Stripped → P (draft.addConstraint c)
  index : ∀ draft index, P draft → P (draft.addIndex index)
  option : ∀ draft tree result, P draft → tree.Matched → tree.rule = .tableOption →
    reader.tableOption draft tree = .ok result → P result

variable (reader : Reader) (P : TableDraft → Prop) (keeps : reader.Keeps P)

include keeps

theorem constraints_keep (constraints : List Constraint) (draft : TableDraft) (holds : P draft)
    (stripped : ∀ c ∈ constraints, c.kind.Stripped) : P (draft.addConstraints constraints) := by
  induction constraints generalizing draft with
  | nil => exact holds
  | cons c constraints ih =>
      obtain ⟨first, others⟩ := List.forall_mem_cons.mp stripped
      exact ih _ (keeps.constraint draft c holds first) others

theorem column_keeps (draft : TableDraft) (tree : Tree) (column : Column)
    (constraints : List Constraint) (holds : P draft)
    (read : columnDefinition reader.dialect tree = .ok (column, constraints)) :
    P ((draft.addColumn column).addConstraints constraints) :=
  constraints_keep reader P keeps constraints _ (keeps.column draft tree column constraints holds read)
    (column_constraints_stripped reader.dialect tree column constraints read)

omit keeps in
theorem inner_matched (tree : Tree) (rule : Grammar.Rule) (matched : tree.Matched) :
    ∀ t ∈ (tree.all rule).flatMap Tree.children, t.Matched := by
  have below (tree : Tree) (matched : tree.Matched) : ∀ t ∈ tree.children, t.Matched := by
    cases matched with
    | node _ _ _ _ _ _ _ _ below => exact below
  intro t member
  obtain ⟨inner, listed, child⟩ := List.mem_flatMap.mp member
  exact below inner (below tree matched inner (List.mem_of_mem_filter listed)) t child

/-! ### Tables -/

theorem key_after_columns_keeps (table result : TableDraft) (tree : Tree) (holds : P table)
    (read : reader.keyAfterColumns table tree = .ok result) : P result := by
  unfold keyAfterColumns at read
  dsimp only at read
  split at read
  · cases read
  · obtain ⟨columns, _, last⟩ := (bind_ok _ _ _).mp read
    split at last
    · cases last
      exact holds
    · cases last
      refine keeps.constraint table _ holds ?_
      rintro e ⟨⟩

theorem table_clause_keeps (table : TableDraft) (tree : Tree) (result : TableDraft)
    (matched : tree.Matched) (holds : P table) (read : reader.tableClause table tree = .ok result) :
    P result := by
  unfold tableClause at read
  split at read
  case h_1 => exact key_after_columns_keeps reader P keeps table result tree holds read
  case h_5 rule => exact keeps.option table tree result holds matched rule read
  case h_6 =>
    cases read
    exact holds
  all_goals cases read

theorem table_element_keeps (table : TableDraft) (tree : Tree) (result : TableDraft) (holds : P table)
    (read : reader.tableElement table tree = .ok result) : P result := by
  unfold tableElement at read
  split at read
  · obtain ⟨c, found, last⟩ := (bind_ok _ _ _).mp read
    cases last
    exact keeps.constraint table c holds (table_constraint_stripped reader.dialect tree c found)
  · obtain ⟨index, _, last⟩ := (bind_ok _ _ _).mp read
    cases last
    exact keeps.index table index holds
  · obtain ⟨⟨column, constraints⟩, found, last⟩ := (bind_ok _ _ _).mp read
    cases last
    exact column_keeps reader P keeps table tree column constraints holds found
  · cases read
    exact holds

theorem add_column_keeps (table result : TableDraft) (tree : Tree) (holds : P table)
    (read : reader.addColumn table tree = .ok result) : P result := by
  unfold addColumn at read
  split at read
  · cases read
    exact holds
  · obtain ⟨⟨column, constraints⟩, found, last⟩ := (bind_ok _ _ _).mp read
    dsimp only at last
    split at last
    · cases last
      exact holds
    · cases last
      exact column_keeps reader P keeps table _ column constraints holds found

omit keeps in
theorem other_action_keeps (table result : TableDraft) (tree : Tree) (holds : P table)
    (read : reader.otherAction table tree = .ok result) : P result := by
  unfold otherAction at read
  dsimp only at read
  split at read
  · split at read <;> cases read
  · cases read
    exact holds
  · cases read

theorem alter_action_keeps (table : TableDraft) (tree : Tree) (result : TableDraft) (holds : P table)
    (read : reader.alterAction table tree = .ok result) : P result := by
  unfold alterAction at read
  split at read
  · exact fold_m_keeps P _ (table_element_keeps reader P keeps) _ table result holds read
  · exact fold_m_keeps P _ (table_element_keeps reader P keeps) _ table result holds read
  · exact add_column_keeps reader P keeps table result tree holds read
  · exact other_action_keeps reader P table result tree holds read
  · cases read
    exact holds

/-! ### Statements -/

omit keeps in
theorem added_among (schema : SchemaDraft) (table : TableDraft) (each : ∀ d ∈ schema.tables, P d)
    (added : P table) : ∀ d ∈ (schema.addTable table).tables, P d := by
  intro d member
  rcases List.mem_append.mp member with old | new
  · exact each d old
  · exact List.mem_singleton.mp new ▸ added

omit keeps in
theorem replaced_among (schema : SchemaDraft) (name : String) (table : TableDraft)
    (each : ∀ d ∈ schema.tables, P d) (changed : P table) :
    ∀ d ∈ (schema.setTable name table).tables, P d := by
  have among (tables : List TableDraft) (d : TableDraft)
      (member : d ∈ SchemaDraft.replaceFirst name table tables) : d = table ∨ d ∈ tables := by
    induction tables with
    | nil => cases member
    | cons t tables ih =>
        rw [SchemaDraft.replaceFirst] at member
        split at member
        · exact (List.mem_cons.mp member).imp_right (List.mem_cons_of_mem t)
        · rcases List.mem_cons.mp member with same | later
          · exact .inr (by simp [same])
          · exact (ih later).imp_right (List.mem_cons_of_mem t)
  intro d member
  rcases among schema.tables d member with rfl | old
  · exact changed
  · exact each d old

theorem create_table_keeps (schema result : SchemaDraft) (tree : Tree) (matched : tree.Matched)
    (each : ∀ d ∈ schema.tables, P d) (read : reader.createTable schema tree = .ok result) :
    ∀ d ∈ result.tables, P d := by
  obtain ⟨name, _, rest⟩ := (bind_ok _ _ _).mp read
  obtain ⟨bare, elements, rest⟩ := (bind_ok _ _ _).mp rest
  obtain ⟨table, clauses, last⟩ := (bind_ok _ _ _).mp rest
  have body := fold_m_keeps P _ (table_element_keeps reader P keeps) _ _ bare (keeps.bare _) elements
  have whole := fold_m_keeps_members P _ _ bare table (fun t clause member next =>
    table_clause_keeps reader P keeps t clause next
      (inner_matched tree _ matched clause member)) body clauses
  split at last
  · cases last
    exact each
  · cases last
    exact added_among P schema table each whole

theorem create_index_keeps (schema result : SchemaDraft) (tree : Tree)
    (each : ∀ d ∈ schema.tables, P d) (read : reader.createIndex schema tree = .ok result) :
    ∀ d ∈ result.tables, P d := by
  obtain ⟨statement, _, rest⟩ := (bind_ok _ _ _).mp read
  cases found : schema.table? statement.table with
  | none =>
      rw [found] at rest
      cases rest
  | some table =>
      rw [found] at rest
      dsimp only at rest
      have old := each table (List.mem_of_find?_eq_some found)
      split at rest
      · cases rest
        exact each
      · cases rest
        exact replaced_among P schema _ _ each (keeps.index table _ old)

theorem alter_table_keeps (schema result : SchemaDraft) (tree : Tree)
    (each : ∀ d ∈ schema.tables, P d) (read : reader.alterTable schema tree = .ok result) :
    ∀ d ∈ result.tables, P d := by
  obtain ⟨name, _, rest⟩ := (bind_ok _ _ _).mp read
  dsimp only at rest
  cases found : schema.table? (name.getD "") with
  | none =>
      rw [found] at rest
      cases rest
  | some table =>
      rw [found] at rest
      obtain ⟨changed, actions, last⟩ := (bind_ok _ _ _).mp rest
      cases last
      have old := each table (List.mem_of_find?_eq_some found)
      exact replaced_among P schema _ changed each
        (fold_m_keeps P _ (alter_action_keeps reader P keeps) _ table changed old actions)

theorem statement_keeps (schema : SchemaDraft) (tree : Tree) (result : SchemaDraft)
    (matched : tree.Matched) (each : ∀ d ∈ schema.tables, P d)
    (read : reader.statement schema tree = .ok result) : ∀ d ∈ result.tables, P d := by
  unfold statement at read
  split at read
  · exact create_table_keeps reader P keeps schema result tree matched each read
  · exact create_index_keeps reader P keeps schema result tree each read
  · exact alter_table_keeps reader P keeps schema result tree each read
  · cases read
  · cases read
    exact each

theorem document_keeps (draft : SchemaDraft) (read : reader.document = .ok draft) :
    ∀ d ∈ draft.tables, P d := by
  obtain ⟨tree, parsed, statements⟩ := (bind_ok _ _ _).mp read
  have matched : tree.Matched := by
    have known := (map_error_ok _ _ _).mp parsed
    unfold Grammar.parse at known
    split at known
    case h_1 found =>
      cases known
      exact Grammar.parse_matched _ _ tree found
    case h_2 => cases known
  exact fold_m_keeps_members (fun schema : SchemaDraft => ∀ d ∈ schema.tables, P d) _ _ {} draft
    (fun schema statement member next => statement_keeps reader P keeps schema statement next
      (inner_matched tree _ matched statement member)) (List.forall_mem_nil _) statements

end Ddl.Reader

end SchemaDrift
