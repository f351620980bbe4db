import SchemaDrift.Proofs.Ddl.PrintedColumn
import SchemaDrift.Proofs.Grammar.ClauseAhead
/-!
A definition that was read by itself, in a table: behind the name of a column it is read as the same
column. It must not declare constraints, and a comment in it could run into the next line.
-/

set_option autoImplicit false

namespace SchemaDrift

open Grammar

/-! ### Clauses -/

theorem plain_clauses (dialect : Dialect) (columns others : List String)
    (clauses : List Ddl.ColumnClause) (name : Option String) (fragment : ColumnFragment)
    (none : (Ddl.addClauses dialect columns name fragment clauses).constraints = []) :
    fragment.constraints = [] ∧ (∀ kind, .constraint kind ∉ clauses) ∧
      Ddl.addClauses dialect others name fragment clauses
        = Ddl.addClauses dialect columns name fragment clauses := by
  induction clauses generalizing name fragment with
  | nil => exact ⟨none, fun _ => List.not_mem_nil, rfl⟩
  | cons clause clauses ih =>
      cases clause with
      | constraint kind =>
          obtain ⟨before, -, -⟩ := ih _ _ none
          simp at before
      | nullable | default | constraintName | autoIncrement =>
          obtain ⟨before, later, same⟩ := ih _ _ none
          refine ⟨before, fun kind member => ?_, same⟩
          exact (List.mem_cons.mp member).elim (fun first => by cases first) (later kind)

theorem clause_describes (dialect : Dialect) (clause : Tree) (meaning : Ddl.ColumnClause)
    (lowered : Ddl.columnClause dialect clause = .ok meaning)
    (plain : ∀ kind, meaning ≠ .constraint kind) : clause.describes = true := by
  unfold Ddl.columnClause at lowered
  unfold Tree.describes
  split at lowered
  case h_1 rule | h_2 rule | h_3 rule | h_4 rule | h_9 rule => rw [rule]
  case h_10 rule =>
    rw [rule]
    split at lowered
    · cases lowered
    · split at lowered
      · cases lowered
      · simpa using ‹¬clause.has .parenGroup = true›
  case h_5 =>
    split at lowered
    · cases lowered
    · cases lowered
      exact absurd rfl (plain _)
  case h_6 | h_8 =>
    cases lowered
    exact absurd rfl (plain _)
  case h_7 =>
    obtain ⟨_, _, last⟩ := (bind_ok _ _ _).mp lowered
    cases last
    exact absurd rfl (plain _)
  all_goals cases lowered

/-! ### Definitions -/

theorem parsed_given (r : Rule) (s : List Char) (tree : Tree) (parsed : Ddl.parse r s = .ok tree) :
    ∃ left, Gives .free (.rule r) s (.matched left [tree]) := by
  have found := (parse_ok r s tree).mp parsed
  unfold parse? at found
  split at found
  case h_1 left trees met =>
    have given := gives_met _ _ _ _ _ met Outcome.noConfusion
    obtain ⟨children, -, rfl⟩ := given_rule given
    cases found
    exact ⟨left, given⟩
  case h_2 => cases found

def ColumnFragment.named (fragment : ColumnFragment) (name : String) : Column where
  name := name
  type := fragment.type
  nullable := fragment.nullable
  default := fragment.default
  autoIncrement := fragment.autoIncrement

theorem described_trees (dialect : Dialect) (columns : List String) (tree : Tree)
    (fragment : ColumnFragment) (read : Ddl.columnBody dialect columns tree = .ok fragment)
    (plain : fragment.constraints = []) (name : String) :
    (∀ part ∈ tree.all .columnClause, part.Descriptive) ∧
      Ddl.columnBody dialect [name] tree = .ok fragment := by
  obtain ⟨spelled, typed, rest⟩ := (bind_ok _ _ _).mp read
  obtain ⟨type, known, rest⟩ := (bind_ok _ _ _).mp rest
  obtain ⟨clauses, mapped, last⟩ := (bind_ok _ _ _).mp rest
  cases last
  obtain ⟨-, free, same⟩ := plain_clauses dialect columns [name] clauses none _ plain
  refine ⟨fun part member clause inside => ?_, ?_⟩
  · have among := List.mem_flatMap.mpr ⟨part, member, inside⟩
    obtain ⟨meaning, listed, lowered⟩ := partner_of_left _ _ _ ((map_m_ok _ _ _).mp mapped) clause among
    refine clause_describes dialect clause meaning lowered ?_
    rintro kind rfl
    exact free kind listed
  · refine (bind_ok _ _ _).mpr ⟨spelled, typed, (bind_ok _ _ _).mpr ⟨type, known,
      (bind_ok _ _ _).mpr ⟨clauses, mapped, ?_⟩⟩⟩
    rw [same]

theorem definition_read (dialect : Dialect) (name : String) (raw : List Char)
    (fragment : ColumnFragment) (parsed : dialect.parseColumn raw = .ok fragment)
    (plain : fragment.constraints = []) (bare : uncommented raw = true) (rest : List Char)
    (ends : EndsItem rest) :
    ReadsAs .columnDef ((dialect.quote name).toList ++ ' ' :: raw) rest fun tree =>
      Ddl.columnDefinition dialect tree = .ok (fragment.named name, []) := by
  obtain ⟨tree, found, body⟩ := (bind_ok _ _ _).mp parsed
  obtain ⟨left, given⟩ := parsed_given .columnFragment raw tree found
  obtain ⟨mid, last, type, clauses, final, same, typed, listed, nothing, ended⟩ :=
    fragment_parts raw left [tree] given
  cases same
  have type_rule : type.rule = .dataType := List.mem_singleton.mp (given_rules typed type (by simp))
  have clause_rules : ∀ clause ∈ clauses, clause.rule = .columnClause := fun clause member =>
    List.mem_singleton.mp (given_rules listed clause member)
  have all : (Grammar.Tree.node .columnFragment raw left (type :: clauses ++ final)).all .columnClause
      = clauses := by
    rw [List.cons_append, all_cons, if_neg (by simp [type_rule]), Grammar.all_append,
      all_of_rule _ _ _ _ _ clause_rules, all_of_other _ _ _ _ _ fun part member => by
        simp [ended part member], List.append_nil]
  obtain ⟨descriptive, lowered⟩ := described_trees dialect [] _ fragment body plain name
  rw [all] at descriptive
  obtain ⟨there, place, again, others, again_typed, again_listed, leaves, alike, pairs⟩ :=
    definition_goes_on rest ends raw bare mid last type clauses descriptive nothing typed listed
  obtain ⟨tree, named, rule, meant⟩ := name_read dialect name (' ' :: (raw ++ rest))
    (ends_name ' ' _ (by decide) (by decide))
  have parts := PartsRead.next named (skip_blank ' ' _ rfl)
    (.next again_typed rfl (.last again_listed))
  rw [show (dialect.quote name).toList ++ ' ' :: (raw ++ rest)
    = (dialect.quote name).toList ++ ' ' :: raw ++ rest by simp] at parts
  refine sequence_read .columnDef _ _ _ rest place _ _ rfl rfl parts leaves ?_
  have again_rule := (Ddl.rule_same _ _ alike).symm.trans type_rule
  have other_rules : ∀ clause ∈ others, clause.rule = .columnClause := fun clause member =>
    List.mem_singleton.mp (given_rules again_listed clause member)
  have body (s t : List Char) : Ddl.columnBody dialect [name]
      (.node .columnDef s t (tree :: again :: others)) = .ok fragment := by
    rw [← lowered]
    refine (Ddl.column_body_parts dialect [name] _ _ ?_ ?_).symm
    · simp [rule, type_rule, again_rule, Ddl.native_type_same dialect type again alike]
    · rw [all, all_cons, if_neg (by simp [rule]), all_cons, if_neg (by simp [again_rule]),
        all_of_rule _ _ _ _ _ other_rules]
      exact (List.forall₂_and_left _ _).mpr ⟨fun clause member => by simp [clause_rules clause member],
        pairs⟩
  simp [Ddl.columnDefinition, rule, meant, body, bind, Except.bind, ColumnFragment.named, plain]

/-! ### Columns with a definition of their own -/

def Dialect.columnBack (dialect : Dialect) (column : Column) : Column :=
  match column.rawDefinition with
  | none => column.shape
  | some raw => match dialect.parseColumn raw.toList with
    | .ok fragment => fragment.named column.name
    | .error _ => column.shape

-- What can be written as a column and read again, be it defined by its parts or as a whole.
structure Dialect.ReadableColumn (dialect : Dialect) (column : Column) : Prop where
  fixed : dialect.canonicalColumn column = .ok column
  made : column.rawDefinition = none → dialect.LegibleColumn column
  whole : ∀ raw, column.rawDefinition = some raw → uncommented raw.toList = true ∧
    ∃ fragment, dialect.parseColumn raw.toList = .ok fragment ∧ fragment.constraints = []

theorem column_back_name (dialect : Dialect) (column : Column) :
    (dialect.columnBack column).name = column.name := by
  unfold Dialect.columnBack
  split
  · rfl
  · split <;> rfl

theorem column_front (dialect : Dialect) (column : Column) (text : String)
    (written : dialect.columnDefinition column = .ok text) :
    ∃ s, text.toList = (dialect.quote column.name).toList ++ ' ' :: s := by
  cases raw : column.rawDefinition with
  | none =>
      obtain ⟨sql, spelling⟩ := definition_type dialect column text raw written
      exact ⟨_, column_text dialect column sql text raw spelling written⟩
  | some definition =>
      rw [Dialect.columnDefinition, raw] at written
      cases written
      exact ⟨definition.toList, by simp⟩

theorem column_reread (dialect : Dialect) (column : Column) (readable : dialect.ReadableColumn column)
    (text : String) (written : dialect.columnDefinition column = .ok text) (rest : List Char)
    (ends : EndsItem rest) :
    ReadsAs .columnDef text.toList rest fun tree =>
      Ddl.columnDefinition dialect tree = .ok (dialect.columnBack column, []) := by
  cases raw : column.rawDefinition with
  | none =>
      rw [Dialect.columnBack, raw]
      exact column_read dialect column rest (readable.made raw) text written ends
  | some definition =>
      obtain ⟨bare, fragment, parsed, plain⟩ := readable.whole definition raw
      rw [Dialect.columnDefinition, raw] at written
      cases written
      have read := definition_read dialect column.name _ fragment parsed plain bare rest ends
      simpa [Dialect.columnBack, raw, parsed] using read

end SchemaDrift
