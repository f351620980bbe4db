import SchemaDrift.Ddl.Name
import SchemaDrift.Proofs.Grammar.Word
/-!
Every name is read back from the identifier that a dialect writes for it, whatever follows that
does not go on with an identifier.
-/

set_option autoImplicit false

namespace SchemaDrift

open Grammar

theorem undouble_double (quote : Char) (s : List Char) :
    Text.undouble quote (Text.double quote s) = s := by
  induction s with
  | nil => rfl
  | cons c s ih =>
      rw [Text.double]
      by_cases same : c = quote
      · rw [if_pos same, Text.undouble, if_pos ⟨rfl, rfl⟩, ih, same]
      · rw [if_neg same]
        cases inner : Text.double quote s with
        | nil =>
            rw [inner] at ih
            rw [← ih]
            rfl
        | cons d t =>
            rw [Text.undouble, if_neg fun both => same both.1, ← inner, ih]

/-! ### Between quotes -/

theorem doubled_read (quote : Char) (name rest : List Char) (apart : rest.head? ≠ some quote) :
    Gives .token (quoted quote) (Text.double quote name ++ quote :: rest)
      (.matched (quote :: rest) []) := by
  induction name with
  | nil =>
      have single : Gives .token (.char quote ++ .char quote) (quote :: rest) .failed :=
        gives_seq_stuck (gives_char quote) (gives_other_char quote apart)
      have closing : Gives .token (.except (.char quote)) (quote :: rest) .failed :=
        gives_seq_failed (gives_no_not (gives_char quote))
      exact gives_none (gives_right single closing)
  | cons c name ih =>
      have others : Gives .token _ _ _ := gives_more rfl ih
      rw [Text.double]
      by_cases same : c = quote
      · rw [if_pos same]
        have twice : Gives .token (.char quote ++ .char quote)
            (quote :: quote :: (Text.double quote name ++ quote :: rest))
            (.matched (Text.double quote name ++ quote :: rest) []) :=
          gives_seq [] (gives_char quote) (gives_char quote)
        exact gives_many (gives_left twice) [] others
      · rw [if_neg same]
        have other : (c :: (Text.double quote name ++ quote :: rest)).head? ≠ some quote :=
          fun head => same (Option.some.inj head)
        have plain : Gives .token (.except (.char quote))
            (c :: (Text.double quote name ++ quote :: rest))
            (.matched (Text.double quote name ++ quote :: rest) []) :=
          gives_seq [] (gives_not (gives_other_char quote other)) (gives_one .all c rfl)
        exact gives_many (gives_right (gives_seq_failed (gives_other_char quote other)) plain) []
          others

section Between

variable {layout : Layout} (quote : Char) (outer inner : Rule) (name : String) (rest : List Char)

def quotedTree : Tree :=
  .node outer ((quoteWith quote name).toList ++ rest) rest
    [.node inner (Text.double quote name.toList ++ quote :: rest) (quote :: rest) []]

theorem quote_with_text : (quoteWith quote name).toList ++ rest =
    quote :: (Text.double quote name.toList ++ quote :: rest) := by
  simp [quoteWith]

theorem between_read (tight : outer.layout = .tight) (token : inner.layout = .token)
    (body : outer.body = between quote inner) (inside : inner.body = quoted quote)
    (apart : rest.head? ≠ some quote) :
    Gives layout (.rule outer) ((quoteWith quote name).toList ++ rest)
      (.matched rest (layout.keep (quotedTree quote outer inner name rest))) := by
  have within : inner.layoutIn .tight = .token := by rw [Rule.layoutIn, token]
  have around : outer.layoutIn layout = .tight := by rw [Rule.layoutIn, tight]
  have middle : Gives .tight (.rule inner) (Text.double quote name.toList ++ quote :: rest)
      (.matched (quote :: rest)
        [.node inner (Text.double quote name.toList ++ quote :: rest) (quote :: rest) []]) := by
    refine gives_rule inner ?_
    rw [within, inside]
    exact doubled_read quote name.toList rest apart
  refine gives_rule outer ?_
  rw [around, body, quote_with_text]
  exact gives_seq [] (gives_seq _ (gives_char quote) middle) (gives_char quote)

end Between

theorem no_quoted_identifier {layout : Layout} (s : List Char) (other : s.head? ≠ some '"') :
    Gives layout (.rule .quotedIdentifier) s .failed :=
  gives_no_rule .quotedIdentifier (gives_seq_failed (gives_seq_failed (gives_other_char _ other)))

theorem no_backtick_identifier {layout : Layout} (s : List Char) (other : s.head? ≠ some '\x60') :
    Gives layout (.rule .backtickIdentifier) s .failed :=
  gives_no_rule .backtickIdentifier (gives_seq_failed (gives_seq_failed (gives_other_char _ other)))

/-! ### Identifiers -/

def EndsName (rest : List Char) : Prop :=
  ∀ c, rest.head? = some c → CharSet.identifier.has c = false ∧ c ≠ '"' ∧ c ≠ '\x60'

def ReadsName (dialect : Dialect) (text : List Char) (name : String) (rest : List Char) : Prop :=
  ∃ tree, (∀ layout, Gives layout (.rule .identifier) (text ++ rest)
      (.matched rest (layout.keep tree))) ∧
    tree.text = text ∧ Ddl.identifier dialect tree = name

theorem inner_name (quote : Char) (inner : Rule) (name : String) (rest : List Char) :
    Ddl.namePart.unquoted quote
        (.node inner (Text.double quote name.toList ++ quote :: rest) (quote :: rest) [])
      = { text := name, quoted := true } := by
  rw [Ddl.namePart.unquoted, tree_text, undouble_double, String.ofList_toList]

theorem fold_quoted (dialect : Dialect) (name : String) :
    dialect.fold { text := name, quoted := true } = name := by
  cases dialect <;> rfl

theorem double_quoted_read (dialect : Dialect) (name : String) (rest : List Char)
    (apart : EndsName rest) : ReadsName dialect (quoteWith '"' name).toList name rest := by
  have ends : rest.head? ≠ some '"' := fun head => (apart _ head).2.1 rfl
  refine ⟨.node .identifier ((quoteWith '"' name).toList ++ rest) rest
    [quotedTree '"' .quotedIdentifier .quotedInner name rest], fun layout => ?_, tree_text .., ?_⟩
  · exact gives_rule .identifier (gives_left (gives_left
      (between_read '"' .quotedIdentifier .quotedInner name rest rfl rfl rfl rfl ends)))
  · show dialect.fold (Ddl.namePart.unquoted '"' _) = name
    rw [inner_name, fold_quoted]

theorem backtick_quoted_read (dialect : Dialect) (name : String) (rest : List Char)
    (apart : EndsName rest) : ReadsName dialect (quoteWith '\x60' name).toList name rest := by
  have ends : rest.head? ≠ some '\x60' := fun head => (apart _ head).2.2 rfl
  refine ⟨.node .identifier ((quoteWith '\x60' name).toList ++ rest) rest
    [quotedTree '\x60' .backtickIdentifier .backtickInner name rest], fun layout => ?_,
    tree_text .., ?_⟩
  · have other : ((quoteWith '\x60' name).toList ++ rest).head? ≠ some '"' := by
      rw [quote_with_text]
      exact fun head => absurd (Option.some.inj head) (by decide)
    exact gives_rule .identifier (gives_left (gives_right (no_quoted_identifier _ other)
      (between_read '\x60' .backtickIdentifier .backtickInner name rest rfl rfl rfl rfl ends)))
  · show dialect.fold (Ddl.namePart.unquoted '\x60' _) = name
    rw [inner_name, fold_quoted]

-- Only PostgreSQL changes a name that is not quoted.
theorem simple_name_read (dialect : Dialect) (name : String) (rest : List Char)
    (kept : ∀ part, dialect.fold part = part.text) (simple : isSimpleIdentifier name.toList = true)
    (apart : EndsName rest) : ReadsName dialect name.toList name rest := by
  cases chars : name.toList with
  | nil =>
      rw [chars] at simple
      cases simple
  | cons c word =>
      rw [chars, isSimpleIdentifier, Bool.and_eq_true, List.all_eq_true] at simple
      obtain ⟨start, inside⟩ := simple
      have start : CharSet.identifierStart.has c = true := start
      have within : ∀ d ∈ word, CharSet.identifier.has d = true := fun d member =>
        Bool.or_eq_true_iff.mpr (.inl (inside d member))
      have other (quote : Char) (not_start : CharSet.identifierStart.has quote = false) :
          (c :: word ++ rest).head? ≠ some quote := by
        rintro ⟨⟩
        exact Bool.eq_false_iff.mp not_start start
      refine ⟨.node .identifier (c :: word ++ rest) rest
        [.node .bareIdentifier (c :: word ++ rest) rest []], fun layout => ?_, tree_text .., ?_⟩
      · have bare : Gives .tight _ _ _ := bare_identifier_read c word rest start within
          fun d head => (apart d head).1
        exact gives_rule .identifier (gives_right
          (gives_right (no_quoted_identifier _ (other _ (by decide)))
            (no_backtick_identifier _ (other _ (by decide)))) bare)
      · rw [Ddl.identifier, kept, Ddl.namePart]
        show String.ofList (Tree.text _) = name
        rw [tree_text, ← chars, String.ofList_toList]

theorem quoted_name_read (dialect : Dialect) (name : String) (rest : List Char)
    (apart : EndsName rest) : ReadsName dialect (dialect.quote name).toList name rest := by
  cases dialect with
  | postgres => exact double_quoted_read .postgres name rest apart
  | mysql => exact backtick_quoted_read .mysql name rest apart
  | spanner =>
      rw [Dialect.quote]
      split
      case isTrue plain =>
        exact simple_name_read .spanner name rest (fun _ => rfl) (Bool.and_eq_true_iff.mp plain).1
          apart
      case isFalse => exact backtick_quoted_read .spanner name rest apart

theorem quoted_identifier_read (dialect : Dialect) (name : String) (rest : List Char)
    (apart : EndsName rest) :
    ∃ tree, tree.text = (dialect.quote name).toList ∧ Ddl.identifier dialect tree = name ∧
      ∀ layout, run (fuelFor ((dialect.quote name).toList ++ rest)) layout (.rule .identifier)
        ((dialect.quote name).toList ++ rest) = .matched rest (layout.keep tree) := by
  obtain ⟨tree, given, text, same⟩ := quoted_name_read dialect name rest apart
  exact ⟨tree, text, same, fun layout => gives_run .identifier (given layout)⟩

theorem quoted_word_read_back : EndsName " TEXT".toList ∧
    Dialect.postgres.quote "the \"new\" name" = "\"the \"\"new\"\" name\"" ∧
    ∃ tree, tree.text = (Dialect.postgres.quote "the \"new\" name").toList ∧
      Ddl.identifier .postgres tree = "the \"new\" name" ∧
      ∀ layout, run (fuelFor ((Dialect.postgres.quote "the \"new\" name").toList ++ " TEXT".toList))
        layout (.rule .identifier)
        ((Dialect.postgres.quote "the \"new\" name").toList ++ " TEXT".toList)
          = .matched " TEXT".toList (layout.keep tree) := by
  have apart : EndsName " TEXT".toList := by
    intro c head
    cases head
    decide
  exact ⟨apart, by decide, quoted_identifier_read .postgres "the \"new\" name" _ apart⟩

end SchemaDrift
