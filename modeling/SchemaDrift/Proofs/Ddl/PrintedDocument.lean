import SchemaDrift.Proofs.Ddl.PrintedStatement
/-!
A script is read statement by statement, and the draft that comes out is what the statements add to
an empty one, in their order.
-/

set_option autoImplicit false

namespace SchemaDrift

open Grammar

def laterStatements : List String → List Char
  | [] => ['\n']
  | text :: texts => '\n' :: '\n' :: (text.toList ++ ';' :: laterStatements texts)

theorem script_text (text : String) (texts : List String) :
    (script (text :: texts)).toList = text.toList ++ ';' :: laterStatements texts := by
  have later : '\n' :: (texts.flatMap fun t => "\n".toList ++ (t ++ ";\n").toList)
      = laterStatements texts := by
    induction texts with
    | nil => rfl
    | cons next texts ih =>
        rw [laterStatements, ← ih]
        simp
  rw [script, intercalate_text, ← later]
  simp

section Statements

variable (dialect : Dialect) (statements : List (Declaration × String))
  (states : ∀ s ∈ statements, dialect.States s.1 s.2)

include states in
theorem statements_read (start : List Char)
    (leaves : skipLayout start = skipLayout (laterStatements (statements.map Prod.snd))) :
    ∃ last trees, Gives .free (.more (.opt (.rule .statement) ++ .char ';')) start
        (.matched last trees) ∧
      skipLayout last = [] ∧
      List.Forall₂ (fun tree item => tree.rule = .statement ∧ IsStatement dialect item.1 tree) trees
        statements := by
  -- The induction is on the statements; the layout between two of them is skipped in front of the next.
  induction statements generalizing start with
  | nil =>
      have nothing : skipLayout start = [] :=
        leaves.trans ((skip_blank '\n' [] rfl).trans skip_nothing)
      have absent : Gives .free (.opt (.rule .statement) ++ .char ';') (skipLayout start) .failed := by
        rw [nothing]
        exact gives_next_failed (gives_no_opt (gives_end .statement rfl)) skip_nothing
          (gives_other_char ';' (by simp))
      exact ⟨start, [], gives_no_later absent, nothing, .nil⟩
  | cons item statements ih =>
      obtain ⟨first, others⟩ := List.forall_mem_cons.mp states
      obtain ⟨solid, mid, tree, given, after, rule, meant⟩ := statement_read dialect item.1 item.2 first
        (laterStatements (statements.map Prod.snd))
      have begins : skipLayout start
          = item.2.toList ++ ';' :: laterStatements (statements.map Prod.snd) := by
        rw [leaves, List.map_cons, laterStatements]
        exact (skip_blanks ['\n', '\n'] _ (by simp [Blank, isSpace])).trans (solid_skip _ _ solid)
      obtain ⟨last, trees, later, done, all⟩ := ih others _ rfl
      have ended := gives_next [] (gives_opt given) (after.trans (skip_solid_char ';' _ rfl))
        (gives_char ';')
      rw [← begins, List.append_nil] at ended
      exact ⟨last, tree :: trees, gives_later trees ended later, done, .cons ⟨rule, meant⟩ all⟩

def InOrder (schema : SchemaDraft) : List Declaration → Prop
  | [] => True
  | declaration :: declarations =>
    declaration.Fits schema ∧ InOrder (declaration.add schema) declarations

theorem statements_declare (input : List Char) (trees : List Tree) (declarations : List Declaration)
    (all : List.Forall₂ (fun tree declaration => IsStatement dialect declaration tree) trees
      declarations) (schema : SchemaDraft) (fits : InOrder schema declarations) :
    (trees.flatMap Tree.children).foldlM (Ddl.Reader.statement { dialect, input }) schema
      = .ok (declarations.foldl Declaration.add schema) := by
  induction all generalizing schema with
  | nil => rfl
  | cons is others ih =>
      obtain ⟨inner, children, does⟩ := is
      obtain ⟨here, later⟩ := fits
      rw [List.flatMap_cons, children, List.singleton_append, List.foldlM_cons,
        does input schema here]
      exact ih _ later

include states in
theorem script_solid :
    skipLayout (script (statements.map Prod.snd)).toList = (script (statements.map Prod.snd)).toList ∧
      skipLayout (script (statements.map Prod.snd)).toList
        = skipLayout (laterStatements (statements.map Prod.snd)) := by
  cases statements with
  | nil =>
      have blank := (skip_blank '\n' [] rfl).trans skip_nothing
      exact ⟨skip_nothing, skip_nothing.trans blank.symm⟩
  | cons item statements =>
      have solid := (statement_read dialect item.1 item.2 (states item List.mem_cons_self) []).1
      rw [List.map_cons, script_text, laterStatements]
      exact ⟨solid_skip _ _ solid, (skip_blanks ['\n', '\n'] _ (by simp [Blank, isSpace])).symm⟩

include states in
theorem script_read (ordered : InOrder {} (statements.map Prod.fst)) :
    Ddl.Reader.document { dialect, input := (script (statements.map Prod.snd)).toList }
      = .ok ((statements.map Prod.fst).foldl Declaration.add {}) := by
  obtain ⟨solid, start⟩ := script_solid dialect statements states
  obtain ⟨last, trees, given, done, pairs⟩ := statements_read dialect statements states _ start
  obtain ⟨rules, all⟩ := paired_rules _ _ _ _ pairs
  have ends : Gives .free (.rule .endOfInput) [] _ := gives_rule .endOfInput gives_finish
  have parts := PartsRead.next gives_empty solid (.next (gives_many_later solid given) done
    (.next (gives_no_opt (gives_end .statement rfl)) skip_nothing (.last ends)))
  have whole : Gives .free (.rule .document) _ _ :=
    gives_rule .document (parts_given _ _ _ _ _ parts)
  have only (s rest : List Char) : (Grammar.Tree.node .document s rest ([] ++ (trees ++ ([] ++
      Layout.free.keep (.node .endOfInput [] [] []))))).all .statement = trees := by
    simp [all_of_rule _ _ _ _ _ rules]
  unfold Ddl.Reader.document Ddl.parse
  rw [gives_parse .document _ whole]
  refine (bind_ok _ _ _).mpr ⟨_, rfl, ?_⟩
  rw [only]
  exact statements_declare dialect _ trees (statements.map Prod.fst)
    (List.forall₂_map_right_iff.mpr all) {} ordered

end Statements

end SchemaDrift
