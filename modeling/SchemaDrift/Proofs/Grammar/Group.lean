import SchemaDrift.Proofs.Grammar.Start
/-!
Groups of parentheses without comments: what the rule for them reads, as texts. Such a group is read
whatever follows, since its own parenthesis ends it.
-/

set_option autoImplicit false

namespace SchemaDrift.Grammar

/-! ### Comments -/

def opensComment : List Char → Bool
  | '-' :: '-' :: _ | '/' :: '*' :: _ => true
  | _ => false

-- No comment opens outside of string literals; `quoted` says whether the text starts inside of one.
def commentFree : Bool → List Char → Bool
  | _, [] => true
  | true, '\\' :: _ :: s => commentFree true s
  | true, '\'' :: '\'' :: s => commentFree true s
  | true, '\'' :: s => commentFree false s
  | true, _ :: s => commentFree true s
  | false, c :: s => !opensComment (c :: s) && commentFree (decide (c = '\'')) s

theorem comment_free_cons (c : Char) (s : List Char) (free : commentFree false (c :: s) = true) :
    opensComment (c :: s) = false ∧ (c ≠ '\'' → commentFree false s = true) := by
  rw [commentFree, Bool.and_eq_true, Bool.not_eq_true'] at free
  refine ⟨free.1, fun other => ?_⟩
  have rest := free.2
  rwa [decide_eq_false other] at rest

theorem comment_free_after (w s : List Char) (plain : '\'' ∉ w)
    (free : commentFree false (w ++ s) = true) : commentFree false s = true := by
  induction w with
  | nil => exact free
  | cons c w ih =>
      rw [List.mem_cons, not_or] at plain
      exact ih plain.2 ((comment_free_cons c _ free).2 (Ne.symm plain.1))

theorem comment_free_literal (l s : List Char) (whole : StringLiteral l) (apart : s.head? ≠ some '\'')
    (free : commentFree false (l ++ s) = true) : commentFree false s = true := by
  obtain ⟨body, rfl, whole⟩ := whole
  have inside : commentFree true (body ++ s) = true := by
    rw [List.cons_append, commentFree, Bool.and_eq_true] at free
    exact free.2
  clear free
  induction whole with
  | close =>
      rwa [List.singleton_append, commentFree] at inside
      rintro t rfl
      exact apart rfl
  | doubled t _ ih => exact ih inside
  | escaped c t _ ih => exact ih inside
  | other c t quote escape _ ih =>
      refine ih ?_
      rwa [List.cons_append, commentFree] at inside
      · exact fun _ _ same => absurd same escape
      · exact fun _ same => absurd same quote
      · exact fun same => quote same

theorem opens_front (t s : List Char) (bare : opensComment (t ++ s) = false) :
    opensComment t = false := by
  unfold opensComment
  split
  · exact bare
  · exact bare
  · rfl

theorem no_comment (s : List Char) (bare : opensComment s = false) : afterComment s = none := by
  unfold afterComment
  split
  · cases bare
  · cases bare
  · rfl

theorem comment_free_parts (s : List Char) (free : commentFree false s = true) :
    ∃ b, Blank b ∧ s = b ++ skipLayout s ∧ (∀ c, (skipLayout s).head? = some c → isSpace c = false) ∧
      commentFree false (skipLayout s) = true := by
  have parts : s.takeWhile isSpace ++ skipSpaces s = s := List.takeWhile_append_dropWhile
  have blank : Blank (s.takeWhile isSpace) := fun c member => List.mem_takeWhile_imp member
  have plain : '\'' ∉ s.takeWhile isSpace := fun member => by cases blank _ member
  have rest : commentFree false (skipSpaces s) = true := by
    rw [← parts] at free
    exact comment_free_after _ _ plain free
  have bare : afterComment (skipSpaces s) = none := by
    cases ahead : skipSpaces s with
    | nil => rfl
    | cons c t => exact no_comment _ (comment_free_cons c t (ahead ▸ rest)).1
  rw [skip_layout_none s bare]
  refine ⟨_, blank, parts.symm, fun c head => ?_, rest⟩
  have first := List.head?_dropWhile_not isSpace s
  rw [show s.dropWhile isSpace = skipSpaces s from rfl, head] at first
  simpa using first

/-! ### Runs of characters -/

def Expr.isChoice : Expr → Bool
  | one _ => true
  | alt a b => a.isChoice && b.isChoice
  | _ => false

theorem choice_refuses (layout : Layout) (a : Expr) (choice : a.isChoice = true) (s : List Char)
    (other : ∀ c, s.head? = some c → a.meets c = false) : Gives layout a s .failed := by
  induction a with
  | one set => exact gives_no_one set other
  | alt a b first second =>
      obtain ⟨left, right⟩ := Bool.and_eq_true_iff.mp choice
      have apart := fun c head => Bool.or_eq_false_iff.mp (other c head)
      exact gives_right (first left fun c head => (apart c head).1)
        (second right fun c head => (apart c head).2)
  | _ => cases choice

theorem choice_matches (layout : Layout) (a : Expr) (choice : a.isChoice = true) (c : Char)
    (s : List Char) (meets : a.meets c = true) : Gives layout a (c :: s) (.matched s []) := by
  induction a with
  | one set => exact gives_one set c meets
  | alt a b first second =>
      obtain ⟨left, right⟩ := Bool.and_eq_true_iff.mp choice
      cases met : a.meets c with
      | true => exact gives_left (first left met)
      | false =>
          have refused := choice_refuses layout a left (c :: s) fun d head => by
            cases head
            exact met
          refine gives_right refused (second right ?_)
          rwa [Expr.meets, met, Bool.false_or] at meets
  | _ => cases choice

section Characters

variable (a : Expr) (choice : a.isChoice = true)

include choice

theorem except_given (c : Char) (s : List Char) (other : a.meets c = false) :
    Gives .token (.except a) (c :: s) (.matched s []) := by
  have refused := choice_refuses .token a choice (c :: s) fun d head => by
    cases head
    exact other
  exact gives_seq [] (gives_not refused) (gives_one .all c rfl)

theorem except_stopped (s : List Char) (ends : ∀ c, s.head? = some c → a.meets c = true) :
    Gives .token (.except a) s .failed := by
  cases s with
  | nil =>
      have refused := choice_refuses .token a choice [] (by simp)
      exact gives_seq_stuck (gives_not refused) (gives_no_one .all (by simp [Layout.skip]))
  | cons c s =>
      exact gives_seq_failed (gives_no_not (choice_matches .token a choice c s (ends c rfl)))

theorem characters_given (front rest : List Char) (inside : ∀ c ∈ front, a.meets c = false)
    (ends : ∀ c, rest.head? = some c → a.meets c = true) :
    Gives .token (.many (.except a)) (front ++ rest) (.matched rest []) := by
  induction front with
  | nil => exact gives_none (except_stopped a choice rest ends)
  | cons c front ih =>
      obtain ⟨first, others⟩ := List.forall_mem_cons.mp inside
      exact gives_many (except_given a choice c _ first) [] (gives_more rfl (ih others))

end Characters

theorem gives_met (fuel : Nat) (layout : Layout) (e : Expr) (s : List Char) (o : Outcome)
    (met : run fuel layout e s = o) (ends : o ≠ .exhausted) : Gives layout e s o := by
  refine ⟨fuel, fun n le => ?_⟩
  obtain ⟨extra, rfl⟩ := Nat.exists_eq_add_of_le le
  rw [← met] at ends ⊢
  exact run_more_fuel fuel extra layout e s ends

theorem gives_unique (layout : Layout) (e : Expr) (s : List Char) (o other : Outcome)
    (first : Gives layout e s o) (second : Gives layout e s other) : o = other := by
  obtain ⟨n, first⟩ := first
  obtain ⟨m, second⟩ := second
  rw [← first (max n m) (Nat.le_max_left ..), second (max n m) (Nat.le_max_right ..)]

theorem char_met (fuel : Nat) (layout : Layout) (c : Char) (s rest : List Char) (trees : List Tree)
    (met : run fuel layout (.char c) s = .matched rest trees) : s = c :: rest := by
  have given := gives_met _ _ _ _ _ met Outcome.noConfusion
  by_cases head : s.head? = some c
  · obtain ⟨t, rfl⟩ := List.head?_eq_some_iff.mp head
    cases gives_unique _ _ _ _ _ given (gives_char c)
    rfl
  · cases gives_unique _ _ _ _ _ given (gives_other_char c head)

theorem accepted_met (r : Rule) (s : List Char) (tree : Tree) (accepted : Accepts r s tree) :
    ∃ fuel, run fuel .free (.rule r) s = .matched [] [tree] := by
  obtain ⟨fuel, found⟩ := accepted
  refine ⟨fuel, ?_⟩
  unfold accepted? at found
  split at found
  case h_1 met =>
    cases found
    exact met
  case h_2 => cases found

structure Run (a : Expr) (t rest : List Char) : Prop where
  start : ∃ c w, t = c :: w ∧ isSpace c = false
  inside : ∀ c ∈ t, a.meets c = false
  ends : ∀ c, rest.head? = some c → a.meets c = true
  bare : opensComment t = false

theorem run_given (a : Expr) (choice : a.isChoice = true) (t rest : List Char) (text : Run a t rest) :
    Gives .token (.some (.except a)) (t ++ rest) (.matched rest []) := by
  obtain ⟨⟨c, w, rfl, -⟩, inside, ends, -⟩ := text
  obtain ⟨first, others⟩ := List.forall_mem_cons.mp inside
  exact gives_seq [] (except_given a choice c _ first) (characters_given a choice w rest others ends)

theorem run_met (a : Expr) (choice : a.isChoice = true) (fuel : Nat) (s rest : List Char)
    (trees : List Tree) (met : run fuel .token (.some (.except a)) s = .matched rest trees)
    (solid : ∀ c, s.head? = some c → a.meets c = false → isSpace c = false)
    (free : commentFree false s = true) : ∃ t, s = t ++ rest ∧ Run a t rest := by
  have given := gives_met _ _ _ _ _ met Outcome.noConfusion
  have stuck (ends : ∀ c, s.head? = some c → a.meets c = true) : False := by
    cases gives_unique _ _ _ _ _ given (gives_seq_failed (except_stopped a choice s ends))
  cases s with
  | nil => exact absurd (fun c head => by cases head) stuck
  | cons c s =>
      cases meets : a.meets c with
      | true =>
          refine absurd (fun d head => ?_) stuck
          cases head
          exact meets
      | false =>
          have parts : s.takeWhile (!a.meets ·) ++ s.dropWhile (!a.meets ·) = s :=
            List.takeWhile_append_dropWhile
          have inside : ∀ d ∈ s.takeWhile (!a.meets ·), a.meets d = false := fun d member => by
            simpa using List.mem_takeWhile_imp member
          have ends : ∀ d, (s.dropWhile (!a.meets ·)).head? = some d → a.meets d = true := by
            intro d head
            have first := List.head?_dropWhile_not (!a.meets ·) s
            rw [head] at first
            simpa using first
          have others := characters_given a choice _ _ inside ends
          rw [parts] at others
          cases gives_unique _ _ _ _ _ given (gives_seq [] (except_given a choice c s meets) others)
          refine ⟨c :: s.takeWhile (!a.meets ·), by rw [List.cons_append, parts],
            ⟨c, _, rfl, solid c rfl meets⟩, List.forall_mem_cons.mpr ⟨meets, inside⟩, ends, ?_⟩
          refine opens_front _ (s.dropWhile (!a.meets ·)) ?_
          rw [List.cons_append, parts]
          exact (comment_free_cons c s free).1

theorem comment_free_run (a : Expr) (quote : a.meets '\'' = true) (t rest : List Char)
    (text : Run a t rest) (free : commentFree false (t ++ rest) = true) :
    commentFree false rest = true := by
  refine comment_free_after t rest (fun member => ?_) free
  rw [text.inside '\'' member] at quote
  cases quote

theorem run_solid (a : Expr) (dash : a.meets '-' = false) (star : a.meets '*' = false)
    (t rest : List Char) (text : Run a t rest) : skipLayout (t ++ rest) = t ++ rest := by
  obtain ⟨⟨c, w, rfl, ink⟩, -, ends, bare⟩ := text
  have spaces : skipSpaces (c :: w ++ rest) = c :: w ++ rest :=
    List.dropWhile_cons_of_neg (Bool.eq_false_iff.mp ink)
  have apart : opensComment (c :: w ++ rest) = false := by
    cases w with
    | cons d w =>
        unfold opensComment at bare ⊢
        split <;> simp_all
    | nil =>
        cases rest with
        | nil => exact bare
        | cons d rest =>
            have stops := ends d rfl
            unfold opensComment
            split <;> simp_all
  rw [skip_layout_none _ (spaces.symm ▸ no_comment _ apart), spaces]

/-! ### Groups -/

def groupItem : Expr :=
  Expr.rule .parenGroup ||| Expr.rule .stringLit ||| Expr.rule .parenText

def parenthesis : Expr := Expr.char '(' ||| Expr.char ')' ||| Expr.char '\''

inductive GroupBody : List Char → Prop
  | close (b : List Char) (blank : Blank b) : GroupBody (b ++ [')'])
  | text (b t s : List Char) (blank : Blank b) (text : Run parenthesis t s) (later : GroupBody s) :
      GroupBody (b ++ (t ++ s))
  | literal (b l s : List Char) (blank : Blank b) (whole : StringLiteral l)
      (apart : s.head? ≠ some '\'') (later : GroupBody s) : GroupBody (b ++ (l ++ s))
  | group (b inner s : List Char) (blank : Blank b) (first : GroupBody inner) (later : GroupBody s) :
      GroupBody (b ++ '(' :: (inner ++ s))

theorem group_body_blank (b s : List Char) (blank : Blank b) (body : GroupBody s) :
    GroupBody (b ++ s) := by
  have both (c : List Char) (other : Blank c) : Blank (b ++ c) := fun d member =>
    (List.mem_append.mp member).elim (blank d) (other d)
  cases body with
  | close c other => exact List.append_assoc b c _ ▸ .close (b ++ c) (both c other)
  | text c t s other text later => exact List.append_assoc b c _ ▸ .text _ t s (both c other) text later
  | literal c l s other whole apart later =>
      exact List.append_assoc b c _ ▸ .literal _ l s (both c other) whole apart later
  | group c inner s other first later =>
      exact List.append_assoc b c _ ▸ .group _ inner s (both c other) first later

theorem group_body_end (s : List Char) (body : GroupBody s) : s ≠ [] := by
  induction body with
  | close => simp
  | text _ t _ _ _ _ ih => simp [ih]
  | literal _ _ _ _ _ _ _ ih => simp [ih]
  | group => simp

section Group

variable {layout : Layout}

theorem no_group (s : List Char) (other : s.head? ≠ some '(') :
    Gives layout (.rule .parenGroup) s .failed :=
  gives_no_rule .parenGroup (gives_seq_failed (gives_seq_failed (gives_other_char '(' other)))

theorem no_literal (s : List Char) (other : s.head? ≠ some '\'') :
    Gives layout (.rule .stringLit) s .failed :=
  gives_no_rule .stringLit (gives_seq_failed (gives_seq_failed (gives_other_char '\'' other)))

theorem literal_given (l rest : List Char) (whole : StringLiteral l) (apart : rest.head? ≠ some '\'') :
    Gives layout (.rule .stringLit) (l ++ rest)
      (.matched rest (layout.keep (.node .stringLit (l ++ rest) rest []))) := by
  have found : afterLiteral? (l ++ rest) = some rest :=
    (after_literal_iff _ _).mpr ⟨l, rfl, whole, apart⟩
  refine ⟨(l ++ rest).length + 10, fun fuel le => ?_⟩
  rw [run_string_lit fuel layout _ le, found]

end Group

theorem literal_head (l rest : List Char) (whole : StringLiteral l) :
    (l ++ rest).head? = some '\'' := by
  obtain ⟨body, rfl, -⟩ := whole
  rfl

theorem literal_solid (l rest : List Char) (whole : StringLiteral l) :
    skipLayout (l ++ rest) = l ++ rest := by
  obtain ⟨body, rfl, -⟩ := whole
  exact skip_solid_char '\'' _ rfl

theorem group_closed (s rest : List Char) (left : List Char) (trees : List Tree)
    (items : Gives .free (.more groupItem) (skipLayout (s ++ rest)) (.matched left trees))
    (leaves : skipLayout left = ')' :: rest) :
    Gives .free (.rule .parenGroup) ('(' :: (s ++ rest))
      (.matched rest [.node .parenGroup ('(' :: (s ++ rest)) rest trees]) := by
  have many : Gives .free (.many groupItem) (skipLayout (s ++ rest)) (.matched left trees) :=
    gives_many_later (free_skip_again (s ++ rest)) items
  have opened := gives_next trees (gives_char '(') rfl many
  have whole := gives_next [] opened leaves (gives_char ')')
  rw [List.nil_append, List.append_nil] at whole
  exact gives_rule .parenGroup whole

theorem group_item_end (rest : List Char) : Gives .free groupItem (')' :: rest) .failed := by
  have text : Gives .token (.except parenthesis) (')' :: rest) .failed :=
    except_stopped parenthesis rfl _ fun c head => by
      cases head
      rfl
  exact gives_right (gives_right (no_group _ (by simp)) (no_literal _ (by simp)))
    (gives_no_rule .parenText (gives_seq_failed text))

theorem group_items_read (s : List Char) (body : GroupBody s) (rest start : List Char)
    (from_ : skipLayout start = skipLayout (s ++ rest)) :
    ∃ left trees, Gives .free (.more groupItem) start (.matched left trees) ∧
      skipLayout left = ')' :: rest := by
  -- What is left of a body in front of any rest. Each item is read up to the next one.
  induction body generalizing rest start with
  | close b blank =>
      have close : skipLayout start = ')' :: rest := by
        rw [from_, List.append_assoc, skip_blanks _ _ blank]
        exact skip_solid_char ')' rest rfl
      refine ⟨start, [], gives_no_later ?_, close⟩
      rw [show Layout.free.skip start = ')' :: rest from close]
      exact group_item_end rest
  | text b t s blank text later ih =>
      have next := group_body_end s later
      have text : Run parenthesis t (s ++ rest) := by
        refine ⟨text.start, text.inside, fun c head => text.ends c ?_, text.bare⟩
        rwa [List.head?_append_of_ne_nil _ next] at head
      have begins : skipLayout start = t ++ (s ++ rest) := by
        rw [from_, List.append_assoc, List.append_assoc, skip_blanks _ _ blank]
        exact run_solid parenthesis rfl rfl t _ text
      obtain ⟨left, trees, others, leaves⟩ := ih rest (s ++ rest) rfl
      have other (c : Char) (meets : parenthesis.meets c = true) : (t ++ (s ++ rest)).head? ≠ some c := by
        obtain ⟨d, w, rfl, -⟩ := text.start
        rintro ⟨⟩
        exact Bool.eq_false_iff.mp (text.inside _ List.mem_cons_self) meets
      have read : Gives .free groupItem (t ++ (s ++ rest)) _ :=
        gives_right (gives_right (no_group _ (other '(' rfl)) (no_literal _ (other '\'' rfl)))
          (gives_rule .parenText (run_given parenthesis rfl t _ text))
      rw [← begins] at read
      exact ⟨left, _, gives_later trees read others, leaves⟩
  | literal b l s blank whole apart later ih =>
      have next := group_body_end s later
      have apart : (s ++ rest).head? ≠ some '\'' := by
        rwa [List.head?_append_of_ne_nil _ next]
      have begins : skipLayout start = l ++ (s ++ rest) := by
        rw [from_, List.append_assoc, List.append_assoc, skip_blanks _ _ blank]
        exact literal_solid l _ whole
      obtain ⟨left, trees, others, leaves⟩ := ih rest (s ++ rest) rfl
      have other : (l ++ (s ++ rest)).head? ≠ some '(' := by
        rw [literal_head l _ whole]
        decide
      have read : Gives .free groupItem (l ++ (s ++ rest)) _ :=
        gives_left (gives_right (no_group _ other) (literal_given l _ whole apart))
      rw [← begins] at read
      exact ⟨left, _, gives_later trees read others, leaves⟩
  | group b inner s blank first later ihFirst ih =>
      have begins : skipLayout start = '(' :: (inner ++ (s ++ rest)) := by
        rw [from_, List.append_assoc, skip_blanks _ _ blank, List.cons_append, List.append_assoc]
        exact skip_solid_char '(' _ rfl
      obtain ⟨within, inside, items, closes⟩ := ihFirst (s ++ rest) _ (skip_again _)
      obtain ⟨left, trees, others, leaves⟩ := ih rest (s ++ rest) rfl
      have read : Gives .free groupItem ('(' :: (inner ++ (s ++ rest))) _ :=
        gives_left (gives_left (group_closed inner (s ++ rest) within inside items closes))
      rw [← begins] at read
      exact ⟨left, _, gives_later trees read others, leaves⟩

theorem group_read (s : List Char) (body : GroupBody s) (rest : List Char) :
    ∃ trees, Gives .free (.rule .parenGroup) ('(' :: (s ++ rest))
      (.matched rest [.node .parenGroup ('(' :: (s ++ rest)) rest trees]) := by
  obtain ⟨left, trees, items, leaves⟩ := group_items_read s body rest _ (skip_again (s ++ rest))
  exact ⟨trees, group_closed s rest left trees items leaves⟩

/-! ### What was read is a group -/

theorem comment_free_group (s : List Char) (body : GroupBody s) (rest : List Char)
    (free : commentFree false (s ++ rest) = true) : commentFree false rest = true := by
  have unquoted (b : List Char) (blank : Blank b) : '\'' ∉ b := fun member => by cases blank _ member
  induction body generalizing rest with
  | close b blank =>
      rw [List.append_assoc] at free
      exact ((comment_free_cons ')' rest (comment_free_after b _ (unquoted b blank) free)).2 (by decide))
  | text b t s blank text later ih =>
      rw [List.append_assoc, List.append_assoc] at free
      refine ih rest (comment_free_after t _ (fun member => ?_)
        (comment_free_after b _ (unquoted b blank) free))
      cases text.inside '\'' member
  | literal b l s blank whole apart later ih =>
      rw [List.append_assoc, List.append_assoc] at free
      refine ih rest (comment_free_literal l _ whole ?_
        (comment_free_after b _ (unquoted b blank) free))
      rwa [List.head?_append_of_ne_nil _ (group_body_end s later)]
  | group b inner s blank first later ihFirst ih =>
      rw [List.append_assoc, List.cons_append, List.append_assoc] at free
      have opened := comment_free_after b _ (unquoted b blank) free
      exact ih rest (ihFirst _ ((comment_free_cons '(' _ opened).2 (by decide)))

def GroupsWithin (fuel : Nat) : Prop :=
  ∀ s rest trees, commentFree false s = true →
    run fuel .free (.rule .parenGroup) s = .matched rest trees →
      ∃ inner, s = '(' :: (inner ++ rest) ∧ GroupBody inner

def ItemsWithin (fuel : Nat) : Prop :=
  ∀ s mid rest trees, commentFree false s = true →
    run fuel .free (.more groupItem) s = .matched mid trees → skipLayout mid = ')' :: rest →
      ∃ body, s = body ++ rest ∧ GroupBody body

theorem item_of_run (fuel : Nat) (groups : ∀ n < fuel, GroupsWithin n) (s mid rest : List Char)
    (trees : List Tree) (free : commentFree false s = true)
    (met : run fuel .free groupItem (skipLayout s) = .matched mid trees)
    (others : commentFree false mid = true → ∃ body, mid = body ++ rest ∧ GroupBody body) :
    ∃ body, s = body ++ rest ∧ GroupBody body := by
  obtain ⟨b, blank, parts, solid, inside⟩ := comment_free_parts s free
  rcases fuel with _ | _ | fuel
  · cases met
  · cases met
  rcases or_else_matched _ _ _ _ met with first | text
  · rcases or_else_matched _ _ _ _ first with group | literal
    · obtain ⟨inner, same, body⟩ := groups fuel (by omega) _ _ _ inside group
      rw [same] at inside parts
      obtain ⟨later, rfl, laterBody⟩ := others (comment_free_group inner body mid
        ((comment_free_cons '(' _ inside).2 (by decide)))
      exact ⟨b ++ '(' :: (inner ++ later), by rw [parts]; simp, .group b inner later blank body laterBody⟩
    · obtain ⟨found, -⟩ := string_lit_read _ _ _ _ _ literal
      obtain ⟨l, same, whole, apart⟩ := (after_literal_iff _ _).mp found
      rw [same] at inside parts
      obtain ⟨later, rfl, laterBody⟩ := others (comment_free_literal l mid whole apart inside)
      exact ⟨b ++ (l ++ later), by rw [parts]; simp,
        .literal b l later blank whole (apart_front _ _ apart) laterBody⟩
  · obtain ⟨left, found, body, kept⟩ := and_then_matched _ _ _ _ text
    cases kept
    obtain ⟨t, same, text⟩ := run_met parenthesis rfl _ _ _ _ body
      (fun c head _ => solid c head) inside
    rw [same] at inside parts
    obtain ⟨later, rfl, laterBody⟩ := others (comment_free_run parenthesis rfl t mid text inside)
    refine ⟨b ++ (t ++ later), by rw [parts]; simp, .text b t later blank ⟨text.start, text.inside,
      fun c head => text.ends c ?_, text.bare⟩ laterBody⟩
    rwa [List.head?_append_of_ne_nil _ (group_body_end later laterBody)]

theorem groups_and_items (fuel : Nat) : GroupsWithin fuel ∧ ItemsWithin fuel := by
  -- The induction is on the fuel; a group and the items in it are read with less.
  induction fuel using Nat.strong_induction_on with
  | _ fuel ih =>
    constructor
    · intro s rest trees free met
      rcases fuel with _ | _ | _ | fuel
      · cases met
      · cases met
      · cases met
      obtain ⟨_, _, body, kept⟩ := and_then_matched _ _ _ _ met
      cases kept
      obtain ⟨mid, _, opened, closed⟩ := and_then_matched _ _ _ _ body
      obtain ⟨_, close, -⟩ := prepend_matched _ _ _ _ closed
      obtain ⟨t, _, first, items⟩ := and_then_matched _ _ _ _ opened
      obtain ⟨more, items, -⟩ := prepend_matched _ _ _ _ items
      obtain rfl := char_met _ _ _ _ _ _ first
      have inside := (comment_free_cons '(' t free).2 (by decide)
      obtain ⟨b, blank, parts, -, ahead⟩ := comment_free_parts t inside
      have closes : skipLayout mid = ')' :: rest := char_met _ _ _ _ _ _ close
      have later : run fuel .free (.more groupItem) (skipLayout t) = .matched mid more :=
        (many_is_more fuel (free_skip_again t)).symm.trans items
      obtain ⟨inner, same, inner_body⟩ := (ih _ (by omega)).2 _ mid rest more ahead later closes
      refine ⟨b ++ inner, ?_, group_body_blank b inner blank inner_body⟩
      rw [List.append_assoc, ← same, ← parts]
    · intro s mid rest trees free met close
      cases fuel with
      | zero => cases met
      | succ fuel =>
          rcases or_else_matched _ _ _ _ met with some | none
          · obtain ⟨next, found, item, later⟩ := and_then_matched _ _ _ _ some
            obtain ⟨more, later, -⟩ := prepend_matched _ _ _ _ later
            exact item_of_run fuel (fun n less => (ih n (by omega)).1) s next rest found free item
              fun free => (ih fuel (by omega)).2 next mid rest more free later close
          · cases none
            obtain ⟨b, blank, parts, -, -⟩ := comment_free_parts s free
            rw [close] at parts
            exact ⟨b ++ [')'], by rw [parts]; simp, .close b blank⟩

theorem group_accepted (s : List Char) (tree : Tree) (free : commentFree false s = true)
    (accepted : Accepts .parenGroup s tree) : ∃ inner, s = '(' :: inner ∧ GroupBody inner := by
  obtain ⟨fuel, met⟩ := accepted_met _ s tree accepted
  obtain ⟨inner, same, body⟩ := (groups_and_items fuel).1 s [] [tree] free met
  exact ⟨inner, by simpa using same, body⟩

end SchemaDrift.Grammar
