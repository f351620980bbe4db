import SchemaDrift.Proofs.Grammar.Group
import SchemaDrift.Proofs.Grammar.Listing
/-!
Default expressions without comments: what the rule for them reads from a whole text it reads from
this text in front of whatever cannot continue it.
-/

set_option autoImplicit false

namespace SchemaDrift.Grammar

/-! ### Words -/

def Expr.isWordy : Expr → Bool
  | one set => [CharSet.identifier, .identifierStart, .digit].contains set
  | word lower => lower.all CharSet.identifier.has
  | seq a b | alt a b => a.isWordy && b.isWordy
  | opt a | many a | more a | notAt a => a.isWordy
  | _ => false

def Outcome.extend (rest : List Char) : Outcome → Outcome
  | matched left trees => matched (left ++ rest) trees
  | failed => failed
  | exhausted => exhausted

theorem extend_and_then (rest : List Char) (o : Outcome) (next then_ : List Char → List Tree → Outcome)
    (same : ∀ s trees, then_ (s ++ rest) trees = (next s trees).extend rest) :
    (o.extend rest).andThen then_ = (o.andThen next).extend rest := by
  cases o with
  | matched s trees => exact same s trees
  | failed | exhausted => rfl

theorem extend_prepend (rest : List Char) (trees : List Tree) (o : Outcome) :
    (o.extend rest).prepend trees = (o.prepend trees).extend rest := by
  cases o <;> rfl

theorem extend_or_else (rest : List Char) (o other : Outcome) :
    (o.extend rest).orElse (other.extend rest) = (o.orElse other).extend rest := by
  cases o <;> rfl

theorem drop_word_apart (lower s rest : List Char) (ends : CharSet.identifier.Ends rest)
    (plain : ∀ c ∈ lower, CharSet.identifier.has c = true) :
    dropWord? lower (s ++ rest) = (dropWord? lower s).map (· ++ rest) := by
  induction lower generalizing s with
  | nil => rfl
  | cons a lower ih =>
      obtain ⟨first, others⟩ := List.forall_mem_cons.mp plain
      cases s with
      | cons c s =>
          rw [List.cons_append, dropWord?, dropWord?]
          split
          · exact ih s others
          · rfl
      | nil =>
          cases rest with
          | nil => rfl
          | cons c rest =>
              have other : c.toLower ≠ a := by
                rintro rfl
                exact Bool.eq_false_iff.mp (ends c rfl) (lower_in_identifier c first)
              simp [dropWord?, other]

theorem wordy_set_ends (set : CharSet) (rest : List Char) (wordy : (Expr.one set).isWordy = true)
    (ends : CharSet.identifier.Ends rest) : set.Ends rest := by
  have among := List.contains_iff_mem.mp wordy
  simp only [List.mem_cons, List.not_mem_nil, or_false] at among
  rcases among with rfl | rfl | rfl
  · exact ends
  · exact ends_mono _ _ start_in_identifier rest ends
  · exact ends_mono _ _ digit_in_identifier rest ends

theorem wordy_before (fuel : Nat) (e : Expr) (s rest : List Char) (wordy : e.isWordy = true)
    (ends : CharSet.identifier.Ends rest) :
    run fuel .token e (s ++ rest) = (run fuel .token e s).extend rest := by
  induction fuel generalizing e s with
  | zero => rfl
  | succ fuel ih =>
      -- The items of a repetition are read from the same place.
      have items (a : Expr) (first : a.isWordy = true) (s : List Char) :
          ((run fuel .token a (s ++ rest)).andThen fun left trees =>
              (run fuel .token (.more a) left).prepend trees).orElse (.matched (s ++ rest) [])
            = (((run fuel .token a s).andThen fun left trees =>
              (run fuel .token (.more a) left).prepend trees).orElse (.matched s [])).extend rest := by
        rw [ih a s first, ← extend_or_else]
        refine congrArg (Outcome.orElse · _) (extend_and_then rest _ _ _ fun t trees => ?_)
        rw [← extend_prepend]
        exact congrArg _ (ih (.more a) t first)
      cases e with
      | one set =>
          have outside := wordy_set_ends set rest wordy ends
          cases s with
          | cons c s =>
              rw [List.cons_append, run, run]
              split <;> rfl
          | nil =>
              cases rest with
              | nil => rfl
              | cons c rest =>
                  rw [List.nil_append, run, if_neg (Bool.eq_false_iff.mp (outside c rfl))]
                  rfl
      | word lower =>
          rw [run, run, drop_word_apart lower s rest ends (List.all_eq_true.mp wordy)]
          cases dropWord? lower s <;> rfl
      | seq a b =>
          obtain ⟨first, second⟩ := Bool.and_eq_true_iff.mp wordy
          rw [run, run, ih a s first]
          refine extend_and_then rest _ _ _ fun t trees => ?_
          rw [← extend_prepend]
          exact congrArg _ (ih b t second)
      | alt a b =>
          obtain ⟨first, second⟩ := Bool.and_eq_true_iff.mp wordy
          rw [run, run, ih a s first, ih b s second]
          exact extend_or_else rest _ _
      | opt a =>
          rw [run, run, ih a s wordy]
          exact extend_or_else rest _ (.matched s [])
      | many a => exact items a wordy s
      | more a => exact items a wordy s
      | notAt a =>
          rw [run, run, ih a s wordy]
          cases run fuel .token a s <;> rfl
      | _ => cases wordy

theorem stop_word_before (s rest : List Char) (ends : CharSet.identifier.Ends rest)
    (goes_on : Gives .free (.rule .stopWord) s .failed) :
    Gives .free (.rule .stopWord) (s ++ rest) .failed := by
  obtain ⟨n, goes_on⟩ := goes_on
  refine ⟨n + 1, fun fuel le => ?_⟩
  obtain ⟨fuel, rfl⟩ : ∃ m, fuel = m + 1 := ⟨fuel - 1, by omega⟩
  have before := goes_on (fuel + 1) (by omega)
  rw [run] at before ⊢
  rw [show Rule.stopWord.layoutIn .free = .token from rfl] at before ⊢
  rw [wordy_before fuel _ s rest (by decide) ends]
  cases inner : run fuel .token Rule.stopWord.body s with
  | failed => rfl
  | matched | exhausted =>
      rw [inner] at before
      cases before

/-! ### Terms -/

def tokenEnd : Expr :=
  Expr.one .blank ||| Expr.char ',' ||| Expr.char '(' ||| Expr.char ')' ||| Expr.char '\''
    ||| Expr.char ';'

inductive Term : List Char → List Char → Prop
  | literal (l s : List Char) (whole : StringLiteral l) (apart : s.head? ≠ some '\'') : Term l s
  | group (inner s : List Char) (body : GroupBody inner) : Term ('(' :: inner) s
  | token (t s : List Char) (text : Run tokenEnd t s) : Term t s

inductive Terms : List Char → Prop
  | done (b : List Char) (blank : Blank b) : Terms b
  | term (b t s : List Char) (blank : Blank b)
      (goes_on : Gives .free (.rule .stopWord) (t ++ s) .failed) (first : Term t s)
      (later : Terms s) : Terms (b ++ (t ++ s))

def laterTerm : Expr := Expr.notAt (.rule .stopWord) ++ defaultTerm

-- What follows a default: a character that no term goes on with, and behind it no further term.
structure EndsDefault (rest : List Char) : Prop where
  token : ∀ c, rest.head? = some c → tokenEnd.meets c = true ∧ c ≠ '\''
  apart : CharSet.identifier.Ends rest
  layout : ∃ b, Blank b ∧ rest = b ++ skipLayout rest
  last : Gives .free laterTerm (skipLayout rest) .failed

theorem no_term (c : Char) (s : List Char) (member : c ∈ [',', ')', ';']) :
    Gives .free laterTerm (c :: s) .failed := by
  have solid := item_end_solid c member
  have refused (e : Expr) (refuses : e.refusedBy [',', ')', ';'] = true) :
      Gives .free e (c :: s) .failed :=
    gives_refused s solid e (refused_by _ e refuses c member)
  have ends : tokenEnd.meets c = true := by
    simp only [List.mem_cons, List.not_mem_nil, or_false] at member
    rcases member with rfl | rfl | rfl <;> rfl
  have token : Gives .free (.rule .exprToken) (c :: s) .failed :=
    gives_no_rule .exprToken (gives_seq_failed (except_stopped tokenEnd rfl (c :: s) fun d head =>
      Option.some.inj head ▸ ends))
  exact gives_next_failed (gives_not (refused (.rule .stopWord) rfl)) (skip_solid_char c s solid)
    (gives_right (refused (.rule .stringLit ||| .rule .parenGroup) rfl) token)

theorem item_ends_default (rest : List Char) (ends : EndsItem rest) : EndsDefault rest := by
  obtain ⟨c, s, member, next⟩ := skip_item_end rest ends
  refine ⟨fun d head => ?_, ends_item_apart rest ends, ?_, next ▸ no_term c s member⟩
  · obtain ⟨d, found, among⟩ := item_end_char rest ends
    obtain rfl := Option.some.inj (found.symm.trans head)
    simp only [List.mem_cons, List.not_mem_nil, or_false] at among
    rcases among with rfl | rfl | rfl | rfl <;> exact ⟨rfl, by decide⟩
  · obtain ⟨d, t, among, rfl | rfl⟩ := ends
    · exact ⟨[], List.forall_mem_nil _, (skip_solid_char d t (item_end_solid d among)).symm⟩
    · refine ⟨['\n'], List.forall_mem_singleton.mpr rfl, ?_⟩
      rw [skip_blank '\n' _ rfl, skip_solid_char d t (item_end_solid d among)]
      rfl

theorem term_solid (t s : List Char) (term : Term t s) : skipLayout (t ++ s) = t ++ s := by
  cases term with
  | literal _ _ whole _ => exact literal_solid t s whole
  | group inner _ _ => exact skip_solid_char '(' _ rfl
  | token _ _ text => exact run_solid tokenEnd rfl rfl t s text

theorem term_before (t s rest : List Char) (term : Term t s) (ends : EndsDefault rest) :
    Term t (s ++ rest) := by
  have next (c : Char) (head : (s ++ rest).head? = some c) :
      s.head? = some c ∨ tokenEnd.meets c = true ∧ c ≠ '\'' := by
    cases s with
    | nil => exact .inr (ends.token c head)
    | cons d s => exact .inl head
  cases term with
  | literal _ _ whole apart =>
      exact .literal t _ whole fun head => (next _ head).elim apart fun other => other.2 rfl
  | group inner _ body => exact .group inner _ body
  | token _ _ text =>
      exact .token t _ ⟨text.start, text.inside,
        fun c head => (next c head).elim (text.ends c) And.left, text.bare⟩

theorem term_read (t s : List Char) (term : Term t s) :
    ∃ trees, Gives .free defaultTerm (t ++ s) (.matched s trees) := by
  cases term with
  | literal _ _ whole apart => exact ⟨_, gives_left (gives_left (literal_given t s whole apart))⟩
  | group inner _ body =>
      obtain ⟨trees, group⟩ := group_read inner body s
      exact ⟨_, gives_left (gives_right (no_literal _ (by simp)) group)⟩
  | token _ _ text =>
      have other (c : Char) (meets : tokenEnd.meets c = true) : (t ++ s).head? ≠ some c := by
        obtain ⟨d, w, rfl, -⟩ := text.start
        rintro ⟨⟩
        exact Bool.eq_false_iff.mp (text.inside _ List.mem_cons_self) meets
      exact ⟨_, gives_right (gives_right (no_literal _ (other '\'' rfl)) (no_group _ (other '(' rfl)))
        (gives_rule .exprToken (run_given tokenEnd rfl t s text))⟩

def ReadsText (text rest left : List Char) : Prop :=
  ∃ read b c, text ++ rest = read ++ left ∧ Blank b ∧ Blank c ∧ read ++ b = text ++ c

theorem terms_read (s : List Char) (terms : Terms s) (rest start : List Char)
    (ends : EndsDefault rest) (from_ : start = s ++ rest ∨ start = skipLayout (s ++ rest)) :
    ∃ left trees, Gives .free (.more laterTerm) start (.matched left trees) ∧
      skipLayout left = skipLayout rest ∧ ReadsText s rest left := by
  have skipped : skipLayout start = skipLayout (s ++ rest) := by
    rcases from_ with rfl | rfl
    · rfl
    · exact skip_again _
  induction terms generalizing start with
  | done b blank =>
      rw [skip_blanks b rest blank] at skipped from_
      have none : Gives .free (.more laterTerm) start (.matched start []) := by
        refine gives_no_later ?_
        rw [show Layout.free.skip start = skipLayout rest from skipped]
        exact ends.last
      refine ⟨start, [], none, skipped, ?_⟩
      rcases from_ with rfl | rfl
      · exact ⟨[], b, [], rfl, blank, by simp [Blank], by simp⟩
      · obtain ⟨c, other, parts⟩ := ends.layout
        exact ⟨b ++ c, [], c, by rw [List.append_assoc, ← parts], by simp [Blank], other, by simp⟩
  | term b t s blank goes_on first later ih =>
      obtain ⟨left, trees, more, leaves, x, c, d, parts, before, after, same⟩ :=
        ih (s ++ rest) (.inl rfl) rfl
      have first := term_before t s rest first ends
      have solid := term_solid t _ first
      have begins : Layout.free.skip start = t ++ (s ++ rest) := by
        refine Eq.trans skipped ?_
        rw [List.append_assoc, skip_blanks b _ blank, List.append_assoc]
        exact solid
      obtain ⟨found, read⟩ := term_read t _ first
      have word := stop_word_before _ rest ends.apart goes_on
      rw [List.append_assoc] at word
      have item := gives_next found (gives_not word) solid read
      rw [← begins] at item
      refine ⟨left, found ++ trees, gives_later trees item more, leaves, b ++ (t ++ x), c, d, ?_,
        before, after, ?_⟩
      · simp only [List.append_assoc, parts]
      · simp only [List.append_assoc, same]

/-! ### A whole default -/

theorem default_given (t s : List Char) (first : Term t s) (terms : Terms s) (rest : List Char)
    (ends : EndsDefault rest) :
    ∃ left tree, Gives .free (.rule .defaultExpr) (t ++ s ++ rest) (.matched left [tree]) ∧
      skipLayout left = skipLayout rest ∧ tree.rule = .defaultExpr ∧
      ∃ b c, Blank b ∧ Blank c ∧ tree.text ++ b = t ++ s ++ c := by
  have first := term_before t s rest first ends
  obtain ⟨found, read⟩ := term_read t _ first
  obtain ⟨left, trees, more, leaves, x, b, c, parts, before, after, same⟩ :=
    terms_read s terms rest _ ends (.inr rfl)
  have whole := gives_rule .defaultExpr
    (gives_next trees read rfl (gives_many_later (free_skip_again _) more))
  have start : t ++ s ++ rest = t ++ x ++ left := by
    rw [List.append_assoc, parts, List.append_assoc]
  rw [← List.append_assoc, start] at whole
  rw [start]
  refine ⟨left, _, whole, leaves, rfl, b, c, before, after, ?_⟩
  rw [tree_text, List.append_assoc, same, List.append_assoc]

theorem not_met (fuel : Nat) (layout : Layout) (a : Expr) (s rest : List Char) (trees : List Tree)
    (met : run fuel layout (.notAt a) s = .matched rest trees) :
    rest = s ∧ Gives layout a s .failed := by
  cases fuel with
  | zero => cases met
  | succ fuel =>
      rw [run] at met
      cases inner : run fuel layout a s with
      | failed =>
          rw [inner] at met
          cases met
          exact ⟨rfl, gives_met fuel layout a s .failed inner Outcome.noConfusion⟩
      | matched | exhausted =>
          rw [inner] at met
          cases met

theorem token_solid (c : Char) (inside : tokenEnd.meets c = false) : isSpace c = false := by
  refine Bool.eq_false_iff.mpr fun blank => ?_
  simp only [isSpace, Bool.or_eq_true, decide_eq_true_eq] at blank
  rcases blank with ((rfl | rfl) | rfl) | rfl <;> cases inside

theorem term_of_run (fuel : Nat) (s rest : List Char) (trees : List Tree)
    (free : commentFree false s = true)
    (met : run fuel .free defaultTerm s = .matched rest trees) :
    ∃ t, s = t ++ rest ∧ Term t rest ∧ commentFree false rest = true := by
  rcases fuel with _ | _ | fuel
  · cases met
  · cases met
  rcases or_else_matched _ _ _ _ met with first | token
  · rcases or_else_matched _ _ _ _ first with literal | group
    · obtain ⟨found, -⟩ := string_lit_read _ _ _ _ _ literal
      obtain ⟨l, rfl, whole, apart⟩ := (after_literal_iff _ _).mp found
      exact ⟨l, rfl, .literal l rest whole apart, comment_free_literal l rest whole apart free⟩
    · obtain ⟨inner, rfl, body⟩ := (groups_and_items fuel).1 s rest trees free group
      exact ⟨'(' :: inner, rfl, .group inner rest body,
        comment_free_group inner body rest ((comment_free_cons '(' _ free).2 (by decide))⟩
  · obtain ⟨left, found, body, kept⟩ := and_then_matched _ _ _ _ token
    cases kept
    obtain ⟨t, rfl, text⟩ := run_met tokenEnd rfl _ _ _ _ body (fun c _ => token_solid c) free
    exact ⟨t, rfl, .token t rest text, comment_free_run tokenEnd rfl t rest text free⟩

theorem terms_blank (b s : List Char) (blank : Blank b) (terms : Terms s) : Terms (b ++ s) := by
  have both (c : List Char) (other : Blank c) : Blank (b ++ c) := fun d member =>
    (List.mem_append.mp member).elim (blank d) (other d)
  cases terms with
  | done _ other => exact .done _ (both s other)
  | term c t s other goes_on first later =>
      exact List.append_assoc b c _ ▸ .term _ t s (both c other) goes_on first later

theorem terms_of_run (fuel : Nat) (s : List Char) (trees : List Tree)
    (free : commentFree false s = true)
    (met : run fuel .free (.more laterTerm) s = .matched [] trees) : Terms s := by
  -- The induction is on the fuel: the terms after the first are read with less.
  induction fuel generalizing s trees with
  | zero => cases met
  | succ fuel ih =>
      rcases or_else_matched _ _ _ _ met with some | none
      · obtain ⟨b, blank, parts, -, inside⟩ := comment_free_parts s free
        obtain ⟨mid, found, item, later⟩ := and_then_matched _ _ _ _ some
        obtain ⟨more, later, -⟩ := prepend_matched _ _ _ _ later
        rcases fuel with _ | _ | fuel
        · cases item
        · cases item
        obtain ⟨start, _, word, term⟩ := and_then_matched _ _ _ _ item
        obtain ⟨_, term, -⟩ := prepend_matched _ _ _ _ term
        obtain ⟨rfl, goes_on⟩ := not_met _ _ _ _ _ _ word
        rw [show Layout.free.skip (Layout.free.skip s) = skipLayout s from skip_again s] at term
        obtain ⟨t, same, first, rest⟩ := term_of_run _ _ _ _ inside term
        rw [show Layout.free.skip s = skipLayout s from rfl, same] at goes_on
        rw [parts, same]
        exact .term b t mid blank goes_on first (ih mid more rest later)
      · cases none
        exact .done [] (by simp [Blank])

theorem default_accepted (s : List Char) (tree : Tree) (free : commentFree false s = true)
    (accepted : Accepts .defaultExpr s tree) : ∃ t u, s = t ++ u ∧ Term t u ∧ Terms u := by
  obtain ⟨fuel, met⟩ := accepted_met _ s tree accepted
  rcases fuel with _ | _ | fuel
  · cases met
  · cases met
  obtain ⟨_, _, body, kept⟩ := and_then_matched _ _ _ _ met
  cases kept
  obtain ⟨mid, _, first, later⟩ := and_then_matched _ _ _ _ body
  obtain ⟨more, later, -⟩ := prepend_matched _ _ _ _ later
  obtain ⟨t, rfl, term, rest⟩ := term_of_run _ _ _ _ free first
  obtain ⟨b, blank, parts, -, ahead⟩ := comment_free_parts mid rest
  have items : run fuel .free (.more laterTerm) (skipLayout mid) = .matched [] more :=
    (many_is_more fuel (free_skip_again mid)).symm.trans later
  refine ⟨t, mid, rfl, term, ?_⟩
  rw [parts]
  exact terms_blank b _ blank (terms_of_run fuel _ more ahead items)

end SchemaDrift.Grammar
