import SchemaDrift.Proofs.Expression.Default
import SchemaDrift.Proofs.Grammar.Group
/-!
Parentheses that are written around an expression come off again: the parenthesis in front of a group
closes behind it, and what stands between them has none around the whole.
-/

set_option autoImplicit false

namespace SchemaDrift.Default

open Grammar

/-! ### Stripped text -/

theorem trim_first (s : List Char) (c : Char) (first : (Text.trim s).head? = some c) :
    Text.isBlank c = false := by
  have front : Text.trim s <+: Text.trimStart s :=
    List.rdropWhile_prefix (p := Text.isBlank) (Text.trimStart s)
  obtain ⟨back, parts⟩ := front
  have head : (s.dropWhile Text.isBlank).head? = some c := by
    show (Text.trimStart s).head? = some c
    rw [← parts, List.head?_append, first, Option.some_or]
  have solid := List.head?_dropWhile_not Text.isBlank s
  rw [head] at solid
  simpa using solid

theorem trim_again (s : List Char) : Text.trim (Text.trim s) = Text.trim s :=
  trim_fixed _ (trim_first s) (trim_last s)

theorem strip_wrapped_settled (s : List Char) (trimmed : Text.trim s = s) :
    Text.trim (stripWrapped s) = stripWrapped s ∧ unwrap? (stripWrapped s) = none := by
  fun_induction stripWrapped s with
  | case1 s inside unwrapped ih =>
      obtain ⟨m, -, rfl, -⟩ := unwrap_parts s inside unwrapped
      exact ih (trim_again m)
  | case2 s bare => exact ⟨trimmed, bare⟩

theorem strip_parens_again (s : List Char) : stripParens (stripParens s) = stripParens s := by
  obtain ⟨trimmed, bare⟩ := strip_wrapped_settled (Text.trim s) (trim_again s)
  rw [stripParens, stripParens, trimmed, strip_wrapped_bare _ bare]

/-! ### The parentheses of a group -/

theorem wraps_plain (depth : Nat) (t s : List Char)
    (plain : ∀ c ∈ t, c ≠ '\'' ∧ c ≠ '(' ∧ c ≠ ')') :
    wrapsFrom false depth (t ++ s) = wrapsFrom false depth s := by
  induction t with
  | nil => rfl
  | cons c t ih =>
      obtain ⟨⟨quote, opening, closing⟩, others⟩ := List.forall_mem_cons.mp plain
      rw [List.cons_append, wrapsFrom, if_neg quote, if_neg (fun both => opening both.1),
        if_neg (fun both => closing both.1), ih others]

theorem wraps_blank (depth : Nat) (b s : List Char) (blank : Blank b) :
    wrapsFrom false depth (b ++ s) = wrapsFrom false depth s := by
  refine wraps_plain depth b s fun c member => ?_
  have space := blank c member
  refine ⟨?_, ?_, ?_⟩
  all_goals
    rintro rfl
    cases space

theorem wraps_text (depth : Nat) (t s : List Char) (inside : ∀ c ∈ t, parenthesis.meets c = false) :
    wrapsFrom false depth (t ++ s) = wrapsFrom false depth s := by
  refine wraps_plain depth t s fun c member => ?_
  have other := inside c member
  refine ⟨?_, ?_, ?_⟩
  all_goals
    rintro rfl
    cases other

theorem wraps_literal_body (depth : Nat) (body : List Char) (whole : LiteralBody body)
    (plain : escapesQuote body = false) (s : List Char) :
    wrapsFrom true depth (body ++ s) = wrapsFrom false depth s := by
  have skipped (c : Char) (t : List Char) (quote : c ≠ '\'') :
      wrapsFrom true depth (c :: t) = wrapsFrom true depth t := by
    rw [wrapsFrom, if_neg quote, if_neg (fun both => Bool.noConfusion both.2),
      if_neg (fun both => Bool.noConfusion both.2)]
  induction whole with
  | close => rfl
  | doubled t _ ih =>
      rw [escapes_other _ _ (by decide), escapes_other _ _ (by decide)] at plain
      exact ih plain
  | escaped c t _ ih =>
      rw [escapes_pair, Bool.or_eq_false_iff, decide_eq_false_iff_not] at plain
      rw [List.cons_append, List.cons_append, skipped _ _ (by decide), skipped c _ plain.1, ih plain.2]
  | other c t quote escape _ ih =>
      rw [escapes_other _ _ escape] at plain
      rw [List.cons_append, skipped c _ quote, ih plain]

theorem escapes_blank (b s : List Char) (blank : Blank b) :
    escapesQuote (b ++ s) = escapesQuote s := by
  induction b with
  | nil => rfl
  | cons c b ih =>
      obtain ⟨space, others⟩ := List.forall_mem_cons.mp blank
      have other : c ≠ '\\' := by
        rintro rfl
        cases space
      rw [List.cons_append, escapes_other _ _ other, ih others]

theorem literal_body_last (body : List Char) (whole : LiteralBody body) :
    ∃ t, body = t ++ ['\''] := by
  induction whole with
  | close => exact ⟨[], rfl⟩
  | doubled t _ ih =>
      obtain ⟨u, rfl⟩ := ih
      exact ⟨'\'' :: '\'' :: u, rfl⟩
  | escaped c t _ ih =>
      obtain ⟨u, rfl⟩ := ih
      exact ⟨'\\' :: c :: u, rfl⟩
  | other c t _ _ _ ih =>
      obtain ⟨u, rfl⟩ := ih
      exact ⟨c :: u, rfl⟩

theorem group_body_last (inner : List Char) (body : GroupBody inner) : ∃ t, inner = t ++ [')'] := by
  induction body with
  | close b _ => exact ⟨b, rfl⟩
  | text b t rest _ _ _ ih =>
      obtain ⟨u, rfl⟩ := ih
      exact ⟨b ++ (t ++ u), by simp⟩
  | literal b l rest _ _ _ _ ih =>
      obtain ⟨u, rfl⟩ := ih
      exact ⟨b ++ (l ++ u), by simp⟩
  | group b inner rest _ _ _ _ ih =>
      obtain ⟨u, rfl⟩ := ih
      exact ⟨b ++ '(' :: (inner ++ u), by simp⟩

theorem escapes_after_text (t rest : List Char) (text : Run parenthesis t rest)
    (plain : escapesQuote (t ++ rest) = false) : escapesQuote rest = false := by
  cases rest with
  | nil => rfl
  | cons c rest =>
      have other : c ≠ '\\' := by
        rintro rfl
        exact absurd (text.ends _ rfl) (by decide)
      rw [escapes_split t rest c other, Bool.or_eq_false_iff] at plain
      rw [escapes_other c rest other]
      exact plain.2

-- The group closes what is open last; unless this is all, anything may follow.
theorem wraps_group (inner : List Char) (body : GroupBody inner) (plain : escapesQuote inner = false)
    (depth : Nat) (s : List Char) (deep : depth ≠ 0 ∨ s = []) :
    wrapsFrom false (depth + 1) (inner ++ s) = wrapsFrom false depth s := by
  induction body generalizing depth s with
  | close b blank =>
      rw [List.append_assoc, wraps_blank _ b _ blank, List.singleton_append, wrapsFrom,
        if_neg (by decide), if_neg (by decide), if_pos (by decide), Nat.add_sub_cancel,
        if_neg fun both => deep.elim (· both.1) both.2]
  | text b t rest blank text _ ih =>
      rw [escapes_blank b _ blank] at plain
      rw [List.append_assoc, wraps_blank _ b _ blank, List.append_assoc,
        wraps_text _ t _ text.inside]
      exact ih (escapes_after_text t rest text plain) depth s deep
  | literal b l rest blank whole _ _ ih =>
      obtain ⟨body, rfl, whole⟩ := whole
      obtain ⟨t, same⟩ := literal_body_last body whole
      rw [escapes_blank b _ blank, List.cons_append, escapes_other _ _ (by decide), same,
        List.append_assoc, List.singleton_append, escapes_split t rest _ (by decide), ← same,
        Bool.or_eq_false_iff] at plain
      obtain ⟨inside, behind⟩ := plain
      rw [List.append_assoc, wraps_blank _ b _ blank, List.append_assoc, List.cons_append, wrapsFrom,
        if_pos rfl, Bool.not_false, wraps_literal_body _ body whole inside]
      exact ih behind depth s deep
  | group b inner rest blank body _ first later =>
      obtain ⟨t, same⟩ := group_body_last inner body
      rw [escapes_blank b _ blank, escapes_other _ _ (by decide), same, List.append_assoc,
        List.singleton_append, escapes_split t rest _ (by decide), ← same,
        Bool.or_eq_false_iff] at plain
      obtain ⟨inside, behind⟩ := plain
      rw [List.append_assoc, wraps_blank _ b _ blank, List.cons_append, List.append_assoc, wrapsFrom,
        if_neg (by decide), if_pos (by decide),
        first inside (depth + 1) _ (.inl depth.succ_ne_zero)]
      exact later behind depth s deep

/-! ### An expression in a group of its own -/

-- In parentheses, the expression is one group. A backslash in front of a quote would hide it from the
-- grammar only.
structure Enclosed (e : List Char) : Prop where
  group : GroupBody (e ++ [')'])
  plain : escapesQuote e = false

theorem escapes_closing (e : List Char) (plain : escapesQuote e = false) :
    escapesQuote (e ++ [')']) = false := by
  fun_induction escapesQuote e with
  | case1 => rfl
  | case2 c s ih =>
      rw [Bool.or_eq_false_iff] at plain
      rw [List.cons_append, List.cons_append, escapes_pair, plain.1, ih plain.2, Bool.or_false]
  | case3 c s alone ih =>
      by_cases backslash : c = '\\'
      · cases s with
        | nil =>
            rw [backslash]
            rfl
        | cons d s => exact absurd rfl (alone d s backslash)
      · rw [List.cons_append, escapes_other _ _ backslash, ih plain]

section Enclosed

variable (e : List Char) (enclosed : Enclosed e)

include enclosed

theorem enclosed_unwraps : unwrap? ('(' :: (e ++ [')'])) = some (Text.trim e) := by
  have closes := wraps_group _ enclosed.group (escapes_closing e enclosed.plain) 0 [] (.inr rfl)
  rw [List.append_nil] at closes
  have wraps : wrapsFrom false 0 ('(' :: (e ++ [')'])) = true := closes
  rw [unwrap?, if_pos ⟨List.getLast?_concat, wraps⟩, List.dropLast_concat]

theorem strip_parens_enclosed (stripped : stripParens e = e) :
    stripParens ('(' :: (e ++ [')'])) = e := by
  have trimmed : Text.trim ('(' :: (e ++ [')'])) = '(' :: (e ++ [')']) := by
    refine trim_fixed _ ?_ ?_
    · rintro c ⟨⟩
      rfl
    · intro c last
      rw [← List.cons_append, List.getLast?_concat] at last
      cases last
      rfl
  rw [stripParens, trimmed, stripWrapped]
  split
  case h_1 inside unwrapped =>
    rw [enclosed_unwraps e enclosed] at unwrapped
    rw [← Option.some.inj unwrapped]
    exact stripped
  case h_2 wrapped =>
    rw [enclosed_unwraps e enclosed] at wrapped
    cases wrapped

end Enclosed

theorem tidy_closing (quoted : Bool) (last : Option Char) (e : List Char) (tidy : Tidy quoted last e) :
    Tidy quoted last (e ++ [')']) := by
  induction e generalizing quoted last with
  | nil =>
      cases quoted with
      | true => trivial
      | false => exact ⟨rfl, trivial⟩
  | cons c e ih =>
      rw [List.cons_append]
      rw [Tidy] at tidy ⊢
      split
      case isTrue quote =>
        rw [if_pos quote] at tidy
        exact ih _ _ tidy
      case isFalse unquoted =>
        rw [if_neg unquoted] at tidy
        split
        case isFalse visible =>
          rw [if_neg visible] at tidy
          exact ⟨tidy.1, ih _ _ tidy.2⟩
        case isTrue blank =>
          rw [if_pos blank] at tidy
          obtain ⟨space, after, ⟨d, head, next⟩, rest⟩ := tidy
          exact ⟨space, after, ⟨d, by rw [List.head?_append, head, Option.some_or], next⟩, ih _ _ rest⟩

theorem tidy_inside (s : List Char) (tidy : Tidy false none s) : Tidy false (some '(') s := by
  cases s with
  | nil => trivial
  | cons c s =>
      rw [Tidy, if_neg Bool.false_ne_true] at tidy ⊢
      by_cases blank : Text.isBlank c = true
      · rw [if_pos blank] at tidy
        cases tidy.2.1
      · rw [if_neg blank] at tidy ⊢
        exact tidy

theorem squeezed_enclosed (e : List Char) (squeezed : Squeezed e) :
    Squeezed ('(' :: (e ++ [')'])) := by
  refine ⟨⟨rfl, tidy_closing _ _ e (tidy_inside e squeezed.tidy)⟩, fun c last => ?_⟩
  rw [← List.cons_append, List.getLast?_concat] at last
  cases last
  rfl

theorem normalize_enclosed (e : List Char) (normal : Normal e) (enclosed : Enclosed e) :
    normalize ('(' :: (e ++ [')'])) = some e := by
  have stripped : stripParens e = e := by
    rw [stripParens, trim_squeezed e normal.squeezed, strip_wrapped_bare e normal.bare]
  rw [normalize, squeeze_fixed _ (squeezed_enclosed e normal.squeezed),
    strip_parens_enclosed e enclosed stripped, if_neg (not_or.mpr ⟨normal.some, normal.null⟩)]

end SchemaDrift.Default
