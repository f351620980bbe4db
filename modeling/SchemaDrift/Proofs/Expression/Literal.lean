import SchemaDrift.Proofs.Expression.Lasting
import SchemaDrift.Proofs.Grammar.Reading
/-!
The string literals of a default stay as they are in its normal form, as long as normalizing and the
grammar agree on where they end: no backslash escapes a quote, and no comment holds one.
-/

set_option autoImplicit false

namespace SchemaDrift.Default

open SchemaDrift.Grammar

theorem collapse_body (body s : List Char) (whole : LiteralBody body)
    (plain : escapesQuote body = false) (last : Option Char) :
    collapse true false last (body ++ s) = body ++ collapse false false (some '\'') s := by
  induction whole generalizing last with
  | close => rfl
  | doubled t _ ih =>
      rw [escapes_other _ _ (by decide), escapes_other _ _ (by decide)] at plain
      exact congrArg (fun rest => '\'' :: '\'' :: rest) (ih plain _)
  | escaped c t _ ih =>
      rw [escapes_pair, Bool.or_eq_false_iff, decide_eq_false_iff_not] at plain
      rw [List.cons_append, List.cons_append, collapse, if_pos rfl, collapse, if_pos (by decide),
        decide_eq_true plain.1, ih plain.2]
      rfl
  | other c t quote escape _ ih =>
      rw [escapes_other _ _ escape] at plain
      rw [List.cons_append, collapse, if_pos rfl, decide_eq_true quote, ih plain]
      rfl

theorem collapse_literal (l s : List Char) (whole : StringLiteral l) (plain : escapesQuote l = false)
    (pending : Bool) (last : Option Char) : collapse false pending last (l ++ s)
      = gap pending last '\'' ++ (l ++ collapse false false (some '\'') s) := by
  obtain ⟨body, rfl, whole⟩ := whole
  rw [escapes_other _ _ (by decide)] at plain
  rw [List.cons_append, collapse_solid _ _ _ _ rfl]
  exact congrArg (fun rest => gap pending last '\'' ++ '\'' :: rest)
    (collapse_body body s whole plain _)

theorem collapse_apart (pending : Bool) (s : List Char)
    (apart : pending = true ∨ s.head? ≠ some '\'') :
    (collapse false pending (some '\'') s).head? ≠ some '\'' := by
  induction s generalizing pending with
  | nil => simp [collapse]
  | cons c s ih =>
      cases blank : Text.isBlank c with
      | true =>
          rw [collapse_blank _ _ _ _ blank]
          exact ih true (.inl rfl)
      | false =>
          rw [collapse_solid _ _ _ _ blank]
          by_cases quote : c = '\''
          · subst quote
            obtain rfl : pending = true := apart.resolve_right fun other => other rfl
            simp [gap]
          · have plain : '\'' ∉ gap pending (some '\'') c ++ Text.lowerChar c :=
              List.not_mem_append (gap_unquoted _ _ c) (lower_unquoted c quote)
            have some : gap pending (some '\'') c ++ Text.lowerChar c ≠ [] :=
              List.append_ne_nil_of_right_ne_nil _ (Text.lower_char_ne_nil c)
            rw [← List.append_assoc, List.head?_append_of_ne_nil _ some]
            exact fun head => plain (List.mem_of_head? head)

theorem parts_collapse (s : List Char) (ls : List (List Char)) (parts : Parts s ls)
    (plain : ∀ l ∈ ls, escapesQuote l = false) (pending : Bool) (last : Option Char) :
    Parts (collapse false pending last s) ls := by
  induction parts generalizing pending last with
  | done => exact .done
  | char c s ls other _ ih =>
      cases blank : Text.isBlank c with
      | true =>
          rw [collapse_blank _ _ _ _ blank]
          exact ih plain _ _
      | false =>
          rw [collapse_solid _ _ _ _ blank, decide_eq_false other]
          exact parts_plain _ _ _ (gap_unquoted _ _ _)
            (parts_plain _ _ _ (lower_unquoted c other) (ih plain _ _))
  | literal l s ls whole apart _ ih =>
      obtain ⟨first, rest⟩ := List.forall_mem_cons.mp plain
      rw [collapse_literal l s whole first]
      exact parts_plain _ _ _ (gap_unquoted _ _ _)
        (.literal l _ ls whole (collapse_apart false s (.inr apart)) (ih rest _ _))

theorem parts_lasting (ls : List (List Char)) (plain : ∀ l ∈ ls, escapesQuote l = false) :
    Lasting (Parts · ls) where
  opened front s lead parts := parts_after front s ls (lead_unquoted front lead) parts
  ended s back unquoted parts := parts_before s back ls unquoted parts
  collapsed s parts := parts_collapse s ls parts plain false none

-- Where every quote belongs to a literal and none is escaped with a backslash, the normal form has the
-- literals of the text, each as it was written.
theorem literals_kept (dialect : Dialect) (e : List Char) (tree : Tree) (n : String)
    (accepted : Accepts .defaultExpr e tree)
    (quotes : tree.literals.flatten.count '\'' = e.count '\'')
    (plain : ∀ l ∈ tree.literals, escapesQuote l = false)
    (normal : dialect.normalizeDefault e = some n) :
    literals n.toList = tree.literals ∧ literals e = tree.literals := by
  obtain ⟨matched, kind, rfl⟩ := accepted_tree _ _ tree accepted
  have parts := default_parts tree matched kind quotes
  exact ⟨literals_of_parts _ _
    (default_keeps _ (parts_lasting tree.literals plain) dialect _ n parts normal),
    literals_of_parts _ _ parts⟩

theorem note_literal_kept :
    Dialect.postgres.normalizeDefault "( 'It''s  A\\n'::TEXT )".toList = some "'It''s  A\\n'" ∧
      literals "'It''s  A\\n'".toList = ["'It''s  A\\n'".toList] := by
  have normal : Dialect.postgres.normalizeDefault "( 'It''s  A\\n'::TEXT )".toList
      = some "'It''s  A\\n'" := by decide +kernel
  have found : (accepted? 50 .defaultExpr "( 'It''s  A\\n'::TEXT )".toList).map Tree.literals
      = some ["'It''s  A\\n'".toList] := by decide +kernel
  obtain ⟨tree, accepted, held⟩ := Option.map_eq_some_iff.mp found
  have kept := literals_kept .postgres _ tree _ ⟨50, accepted⟩ (by rw [held]; decide +kernel)
    (by rw [held]; exact List.forall_mem_singleton.mpr rfl) normal
  exact ⟨normal, by rw [kept.1, held]⟩

-- A backslash escapes a quote in the grammar, but ends the literal for normalizing, which then puts
-- the rest of it in lower case.
theorem escaped_literal_altered : ¬∀ (dialect : Dialect) (e : List Char) (tree : Tree) (n : String),
    Accepts .defaultExpr e tree → dialect.normalizeDefault e = some n →
      literals n.toList = tree.literals := by
  intro kept
  have found : (accepted? 50 .defaultExpr "'a\\' B'".toList).map Tree.literals
      = some ["'a\\' B'".toList] := by decide +kernel
  obtain ⟨tree, accepted, held⟩ := Option.map_eq_some_iff.mp found
  have same := kept .postgres _ tree "'a\\' b'" ⟨50, accepted⟩ (by decide +kernel)
  rw [held] at same
  revert same
  decide +kernel

end SchemaDrift.Default
