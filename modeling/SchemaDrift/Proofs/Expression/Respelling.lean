import Mathlib.Algebra.Group.Nat.Even
import Mathlib.Logic.Relation
import SchemaDrift.Expression.Check
import SchemaDrift.Proofs.Expression.Lasting
/-!
Spellings of one default. Parentheses around the whole, the width of white space and the case of
letters outside of quotes do not change the normal form, and the text between quotes is in it as it
was written.
-/

set_option autoImplicit false

namespace SchemaDrift.Default

/-! ### Quotes and parentheses -/

def quotedText (quoted : Bool) : List Char → List Char
  | [] => []
  | c :: s =>
    if c = '\'' then c :: quotedText (!quoted) s
    else if quoted then c :: quotedText quoted s else quotedText quoted s

def outside (quoted : Bool) : List Char → List Char
  | [] => []
  | c :: s =>
    if c = '\'' then outside (!quoted) s
    else if quoted then outside quoted s else c :: outside quoted s

-- Quotes come in pairs, and so do the parentheses outside of them.
structure Paired (s : List Char) : Prop where
  quotes : Even (s.count '\'')
  parens : Check.balanced (outside false s) = true

-- The text between quotes and the parentheses outside of them. Whatever else a text holds may be
-- spelled in more than one way.
def marks (quoted : Bool) : List Char → List Char
  | [] => []
  | c :: s =>
    if c = '\'' then c :: marks (!quoted) s
    else if quoted ∨ c = '(' ∨ c = ')' then c :: marks quoted s else marks quoted s

theorem quoted_after_append (quoted : Bool) (s t : List Char) :
    quotedAfter quoted (s ++ t) = quotedAfter (quotedAfter quoted s) t := by
  induction s generalizing quoted with
  | nil => rfl
  | cons c s ih => exact ih _

theorem quoted_text_append (quoted : Bool) (s t : List Char) :
    quotedText quoted (s ++ t) = quotedText quoted s ++ quotedText (quotedAfter quoted s) t := by
  induction s generalizing quoted with
  | nil => rfl
  | cons c s ih =>
      rw [List.cons_append, quotedText, quotedText, quotedAfter, ih, ih]
      split
      · rfl
      · split <;> rfl

theorem quoted_after_plain (quoted : Bool) (s : List Char) (plain : '\'' ∉ s) :
    quotedAfter quoted s = quoted := by
  induction s with
  | nil => rfl
  | cons c s ih =>
      rw [List.mem_cons, not_or] at plain
      rw [quotedAfter, if_neg (Ne.symm plain.1), ih plain.2]

theorem quoted_text_plain (s : List Char) (plain : '\'' ∉ s) : quotedText false s = [] := by
  induction s with
  | nil => rfl
  | cons c s ih =>
      rw [List.mem_cons, not_or] at plain
      rw [quotedText, if_neg (Ne.symm plain.1), if_neg Bool.false_ne_true, ih plain.2]

theorem outside_append (quoted : Bool) (s t : List Char) :
    outside quoted (s ++ t) = outside quoted s ++ outside (quotedAfter quoted s) t := by
  induction s generalizing quoted with
  | nil => rfl
  | cons c s ih =>
      rw [List.cons_append, outside, outside, quotedAfter, ih, ih]
      split
      · rfl
      · split <;> rfl

theorem marks_append (quoted : Bool) (s t : List Char) :
    marks quoted (s ++ t) = marks quoted s ++ marks (quotedAfter quoted s) t := by
  induction s generalizing quoted with
  | nil => rfl
  | cons c s ih =>
      rw [List.cons_append, marks, marks, quotedAfter, ih, ih]
      split
      · rfl
      · split <;> rfl

theorem quoted_after_even (quoted : Bool) (s : List Char) :
    quotedAfter quoted s = false ↔ (Even (s.count '\'') ↔ quoted = false) := by
  induction s generalizing quoted with
  | nil => simp [quotedAfter]
  | cons c s ih =>
      rw [quotedAfter, ih]
      by_cases quote : c = '\''
      · subst quote
        rw [if_pos rfl, List.count_cons_self, Nat.even_add_one]
        cases quoted <;> simp
      · rw [if_neg quote, List.count_cons_of_ne quote]

theorem paired_iff (s : List Char) :
    Paired s ↔ quotedAfter false s = false ∧ Check.balanced (outside false s) = true := by
  have quotes := quoted_after_even false s
  simp only [iff_true] at quotes
  rw [quotes]
  exact ⟨fun paired => ⟨paired.1, paired.2⟩, fun both => ⟨both.1, both.2⟩⟩

/-! ### What the marks decide -/

theorem quoted_after_marks (quoted : Bool) (s : List Char) :
    quotedAfter quoted (marks quoted s) = quotedAfter quoted s := by
  induction s generalizing quoted with
  | nil => rfl
  | cons c s ih =>
      rw [marks, quotedAfter]
      by_cases quote : c = '\''
      · rw [if_pos quote, if_pos quote, quotedAfter, if_pos quote, ih]
      · rw [if_neg quote, if_neg quote]
        split
        · rw [quotedAfter, if_neg quote, ih]
        · exact ih _

theorem quoted_text_marks (quoted : Bool) (s : List Char) :
    quotedText quoted (marks quoted s) = quotedText quoted s := by
  induction s generalizing quoted with
  | nil => rfl
  | cons c s ih =>
      rw [marks, quotedText]
      by_cases quote : c = '\''
      · rw [if_pos quote, if_pos quote, quotedText, if_pos quote, ih]
      · rw [if_neg quote, if_neg quote]
        cases quoted with
        | true => rw [if_pos (.inl rfl), quotedText, if_neg quote, if_pos rfl, if_pos rfl, ih]
        | false =>
            rw [if_neg Bool.false_ne_true]
            split
            · rw [quotedText, if_neg quote, if_neg Bool.false_ne_true, ih]
            · exact ih _

theorem balanced_marks (quoted : Bool) (depth : Nat) (s : List Char) :
    Check.balancedFrom depth (outside quoted (marks quoted s))
      = Check.balancedFrom depth (outside quoted s) := by
  induction s generalizing quoted depth with
  | nil => rfl
  | cons c s ih =>
      rw [marks, outside]
      by_cases quote : c = '\''
      · rw [if_pos quote, if_pos quote, outside, if_pos quote, ih]
      · rw [if_neg quote, if_neg quote]
        cases quoted with
        | true => rw [if_pos (.inl rfl), outside, if_neg quote, if_pos rfl, if_pos rfl, ih]
        | false =>
            rw [if_neg Bool.false_ne_true]
            by_cases paren : c = '(' ∨ c = ')'
            · rw [if_pos (.inr paren), outside, if_neg quote, if_neg Bool.false_ne_true]
              obtain rfl | rfl := paren
              · exact ih _ _
              · cases depth with
                | zero => rfl
                | succ depth => exact ih _ _
            · rw [if_neg (by simpa using paren), ih, Check.balancedFrom.eq_5]
              · exact fun opening => paren (.inl opening)
              · exact fun closing => paren (.inr closing)

theorem paired_of_marks (s t : List Char) (same : marks false s = marks false t)
    (paired : Paired s) : Paired t := by
  rw [paired_iff, Check.balanced, ← quoted_after_marks, ← balanced_marks] at paired ⊢
  rwa [same] at paired

/-! ### Squeezing -/

theorem marks_plain (letters s : List Char)
    (plain : ∀ d ∈ letters, d ≠ '\'' ∧ d ≠ '(' ∧ d ≠ ')') :
    marks false (letters ++ s) = marks false s := by
  induction letters with
  | nil => rfl
  | cons d letters ih =>
      obtain ⟨⟨quote, opening, closing⟩, rest⟩ := List.forall_mem_cons.mp plain
      rw [List.cons_append, marks, if_neg quote, if_neg (by simp [opening, closing]), ih rest]

theorem marks_blanks (run s : List Char) (blank : ∀ c ∈ run, Text.isBlank c = true) :
    marks false (run ++ s) = marks false s := by
  refine marks_plain run s fun c member => ?_
  refine ⟨?_, ?_, ?_⟩ <;> rintro rfl <;> cases blank _ member

theorem marks_lower (c : Char) (s : List Char) (unquoted : c ≠ '\'') :
    marks false (Text.lowerChar c ++ s) = marks false (c :: s) := by
  by_cases paren : c = '(' ∨ c = ')'
  · obtain rfl | rfl := paren <;> rfl
  · rw [marks, if_neg unquoted, if_neg (by simpa using paren)]
    refine marks_plain _ s fun d member => ?_
    have kept (mark : d.toNat < 0x61) : d = c := Text.lower_char_mark c d member mark
    refine ⟨fun same => ?_, fun same => ?_, fun same => ?_⟩
    · exact unquoted (kept (by rw [same]; decide) ▸ same)
    · exact paren (.inl (kept (by rw [same]; decide) ▸ same))
    · exact paren (.inr (kept (by rw [same]; decide) ▸ same))

theorem marks_collapse (quoted pending : Bool) (last : Option Char) (s : List Char) :
    marks quoted (collapse quoted pending last s) = marks quoted s := by
  induction s generalizing quoted pending last with
  | nil => rfl
  | cons c s ih =>
      cases quoted with
      | true =>
          rw [collapse, if_pos rfl]
          by_cases quote : c = '\''
          · rw [marks, marks, if_pos quote, if_pos quote, decide_eq_false (not_not.mpr quote),
              Bool.not_true, ih]
          · rw [marks, marks, if_neg quote, if_neg quote, decide_eq_true quote, ih]
      | false =>
          cases blank : Text.isBlank c with
          | true =>
              rw [collapse_blank _ _ _ _ blank, ih]
              exact (marks_blanks [c] s (List.forall_mem_singleton.mpr blank)).symm
          | false =>
              rw [collapse_solid _ _ _ _ blank, marks_plain]
              · by_cases quote : c = '\''
                · subst quote
                  exact congrArg ('\'' :: ·) (ih true false _)
                · rw [decide_eq_false quote, marks_lower c _ quote, marks, marks, if_neg quote,
                    if_neg quote, ih]
              · intro d member
                rw [gap_space _ _ _ d member]
                decide

theorem collapse_step (quoted pending : Bool) (last : Option Char) (c : Char) :
    ∃ written after before, ∀ s, collapse quoted pending last (c :: s)
      = written ++ collapse (quotedAfter quoted [c]) after before s := by
  cases quoted with
  | true =>
      refine ⟨[c], pending, some c, fun s => ?_⟩
      rw [collapse, if_pos rfl, quotedAfter, quotedAfter]
      by_cases quote : c = '\'' <;> simp [quote]
  | false =>
      cases blank : Text.isBlank c with
      | true =>
          refine ⟨[], true, last, fun s => ?_⟩
          rw [collapse_blank _ _ _ _ blank, quotedAfter, quotedAfter, if_neg]
          · rfl
          · rintro rfl
            cases blank
      | false =>
          have next : quotedAfter false [c] = decide (c = '\'') := by
            by_cases quote : c = '\'' <;> simp [quotedAfter, quote]
          refine ⟨gap pending last c ++ Text.lowerChar c, false, (Text.lowerChar c).getLast?.or last,
            fun s => ?_⟩
          rw [collapse_solid _ _ _ _ blank, next, List.append_assoc]

theorem collapse_front (quoted pending : Bool) (last : Option Char) (front s t : List Char)
    (same : ∀ pending last, collapse (quotedAfter quoted front) pending last s
      = collapse (quotedAfter quoted front) pending last t) :
    collapse quoted pending last (front ++ s) = collapse quoted pending last (front ++ t) := by
  induction front generalizing quoted pending last with
  | nil => exact same pending last
  | cons c front ih =>
      obtain ⟨written, after, before, step⟩ := collapse_step quoted pending last c
      rw [List.cons_append, List.cons_append, step, step, ih (quotedAfter quoted [c]) after before same]

theorem collapse_back (quoted pending : Bool) (last : Option Char) (s back rest : List Char)
    (same : ∀ pending last, collapse (quotedAfter quoted s) pending last back = rest) :
    collapse quoted pending last (s ++ back) = collapse quoted pending last s ++ rest := by
  induction s generalizing quoted pending last with
  | nil => exact same pending last
  | cons c s ih =>
      obtain ⟨written, after, before, step⟩ := collapse_step quoted pending last c
      rw [List.cons_append, step, step, ih (quotedAfter quoted [c]) after before same,
        List.append_assoc]

theorem collapse_blanks (pending : Bool) (last : Option Char) (run s : List Char) (some : run ≠ [])
    (blank : ∀ c ∈ run, Text.isBlank c = true) :
    collapse false pending last (run ++ s) = collapse false true last s := by
  induction run generalizing pending with
  | nil => exact absurd rfl some
  | cons c run ih =>
      obtain ⟨first, rest⟩ := List.forall_mem_cons.mp blank
      rw [List.cons_append, collapse_blank _ _ _ _ first]
      cases run with
      | nil => rfl
      | cons d run => exact ih true (by simp) rest

theorem collapse_opened (pending other : Bool) (last before : Option Char) (s : List Char)
    (opened : last.any (· ≠ '(') = false) (alike : before.any (· ≠ '(') = false) :
    collapse false pending last s = collapse false other before s := by
  induction s generalizing pending other with
  | nil => rfl
  | cons c s ih =>
      rw [collapse, collapse, if_neg Bool.false_ne_true, if_neg Bool.false_ne_true]
      split
      · exact ih true true
      · obtain ⟨d, letters⟩ : ∃ d, (Text.lowerChar c).getLast? = some d :=
          ⟨_, List.getLast?_eq_some_getLast (Text.lower_char_ne_nil c)⟩
        dsimp only
        rw [opened, alike, letters, Bool.and_false, Bool.and_false]
        rfl

theorem collapse_lead (pending : Bool) (last : Option Char) (run s : List Char)
    (opened : last.any (· ≠ '(') = false) (blank : ∀ c ∈ run, Text.isBlank c = true) :
    collapse false pending last (run ++ s) = collapse false false none s := by
  cases run with
  | nil => exact collapse_opened _ _ _ _ s opened rfl
  | cons c run =>
      rw [collapse_blanks _ _ _ _ (by simp) blank]
      exact collapse_opened _ _ _ _ s opened rfl

theorem collapse_trail (pending : Bool) (last : Option Char) (run : List Char)
    (blank : ∀ c ∈ run, Text.isBlank c = true) :
    collapse false pending last run = [] ∧ collapse false pending last (run ++ [')']) = [')'] := by
  have closing (pending : Bool) : collapse false pending last [')'] = [')'] := by
    simp [collapse, show Text.isBlank ')' = false from rfl, show Text.lowerChar ')' = [')'] from rfl]
  cases run with
  | nil => exact ⟨rfl, closing pending⟩
  | cons c run =>
      have all := collapse_blanks pending last (c :: run) [] (by simp) blank
      rw [List.append_nil] at all
      rw [all, collapse_blanks _ _ _ _ (by simp) blank]
      exact ⟨rfl, closing true⟩

theorem squeeze_closed (e : List Char) (closed : quotedAfter false e = false) :
    squeeze e = collapse false false none e := by
  obtain ⟨front, back, parts, lead, trail⟩ := trim_parts e
  have unquoted : quotedAfter false (Text.trim e) = false := by
    rwa [parts, quoted_after_append, quoted_after_append,
      quoted_after_plain _ front (blanks_unquoted front lead),
      quoted_after_plain _ back (blanks_unquoted back trail)] at closed
  have ends := collapse_back false false none (Text.trim e) back [] fun pending last => by
    rw [unquoted]
    exact (collapse_trail pending last back trail).1
  calc squeeze e = collapse false false none (Text.trim e ++ back) := by
        rw [ends, List.append_nil, squeeze]
    _ = collapse false false none (front ++ (Text.trim e ++ back)) :=
        (collapse_lead false none front _ rfl lead).symm
    _ = collapse false false none e := by rw [← parts]

/-! ### Parentheses around the whole -/

theorem wraps_paired (quoted : Bool) (depth : Nat) (s : List Char)
    (closed : quotedAfter quoted s = false)
    (balanced : Check.balancedFrom depth (outside quoted s) = true) :
    wrapsFrom quoted (depth + 1) (s ++ [')']) = true := by
  induction s generalizing quoted depth with
  | nil =>
      have unquoted : quoted = false := closed
      have shut : depth = 0 := of_decide_eq_true balanced
      rw [unquoted, shut]
      rfl
  | cons c s ih =>
      rw [quotedAfter] at closed
      rw [outside] at balanced
      rw [List.cons_append, wrapsFrom]
      by_cases quote : c = '\''
      · rw [if_pos quote] at closed balanced ⊢
        exact ih _ depth closed balanced
      · rw [if_neg quote] at closed balanced ⊢
        cases quoted with
        | true =>
            rw [if_pos rfl] at balanced
            rw [if_neg (by simp), if_neg (by simp)]
            exact ih true depth closed balanced
        | false =>
            rw [if_neg Bool.false_ne_true] at balanced
            by_cases opening : c = '('
            · subst opening
              rw [if_pos ⟨rfl, rfl⟩]
              exact ih false (depth + 1) closed balanced
            · rw [if_neg (by simp [opening])]
              by_cases closing : c = ')'
              · subst closing
                rw [if_pos ⟨rfl, rfl⟩]
                cases depth with
                | zero => cases balanced
                | succ depth =>
                    rw [if_neg (by simp)]
                    exact ih false depth closed balanced
              · rw [if_neg (by simp [closing])]
                rw [Check.balancedFrom.eq_5 _ _ _ opening closing] at balanced
                exact ih false depth closed balanced

theorem strip_parens_wrapped (s : List Char) (paired : Paired s) :
    stripParens ('(' :: (s ++ [')'])) = stripParens s := by
  obtain ⟨closed, balanced⟩ := (paired_iff s).mp paired
  have unwrapped : unwrap? ('(' :: (s ++ [')'])) = some (Text.trim s) := by
    rw [unwrap?, if_pos ⟨List.getLast?_concat, wraps_paired false 0 s closed balanced⟩,
      List.dropLast_concat]
  have trimmed : Text.trim ('(' :: (s ++ [')'])) = '(' :: (s ++ [')']) := by
    refine trim_fixed _ (fun c first => ?_) (fun c last => ?_)
    · cases first
      rfl
    · rw [← List.cons_append, List.getLast?_concat] at last
      cases last
      rfl
  rw [stripParens, trimmed, stripWrapped, stripParens]
  split
  case h_1 inside found =>
    rw [unwrapped] at found
    rw [Option.some.inj found]
  case h_2 found =>
    rw [unwrapped] at found
    cases found

theorem closed_wrapped (e before after : List Char) (closed : quotedAfter false e = false)
    (lead : ∀ c ∈ before, Text.isBlank c = true) (trail : ∀ c ∈ after, Text.isBlank c = true) :
    quotedAfter false ('(' :: (before ++ (e ++ (after ++ [')'])))) = false := by
  rw [quotedAfter, if_neg (by decide), quoted_after_append, quoted_after_append,
    quoted_after_append, quoted_after_plain _ before (blanks_unquoted before lead), closed,
    quoted_after_plain _ after (blanks_unquoted after trail)]
  rfl

theorem balanced_closing (depth : Nat) (s : List Char)
    (balanced : Check.balancedFrom depth s = true) :
    Check.balancedFrom (depth + 1) (s ++ [')']) = true := by
  induction s generalizing depth with
  | nil => exact balanced
  | cons c s ih =>
      rw [List.cons_append]
      by_cases opening : c = '('
      · subst opening
        exact ih (depth + 1) balanced
      · by_cases closing : c = ')'
        · subst closing
          cases depth with
          | zero => cases balanced
          | succ depth => exact ih depth balanced
        · rw [Check.balancedFrom.eq_5 _ _ _ opening closing] at balanced ⊢
          exact ih depth balanced

theorem paired_wrapped (e before after : List Char) (paired : Paired e)
    (lead : ∀ c ∈ before, Text.isBlank c = true) (trail : ∀ c ∈ after, Text.isBlank c = true) :
    Paired ('(' :: (before ++ (e ++ (after ++ [')'])))) := by
  obtain ⟨closed, balanced⟩ := (paired_iff e).mp paired
  refine (paired_iff _).mpr ⟨closed_wrapped e before after closed lead trail, ?_⟩
  have marked : marks false ('(' :: (before ++ (e ++ (after ++ [')']))))
      = marks false ('(' :: (e ++ [')'])) := by
    have mark (s : List Char) : marks false ('(' :: s) = '(' :: marks false s := rfl
    rw [mark, mark, marks_blanks before _ lead, marks_append _ e, closed, marks_blanks after _ trail,
      marks_append _ e, closed]
  rw [Check.balanced, ← balanced_marks, marked, balanced_marks, outside, if_neg (by decide),
    if_neg Bool.false_ne_true, outside_append, closed]
  exact balanced_closing 0 _ balanced

theorem squeeze_wrapped (e before after : List Char) (closed : quotedAfter false e = false)
    (lead : ∀ c ∈ before, Text.isBlank c = true) (trail : ∀ c ∈ after, Text.isBlank c = true) :
    squeeze ('(' :: (before ++ (e ++ (after ++ [')'])))) = '(' :: (squeeze e ++ [')']) := by
  have whole := closed_wrapped e before after closed lead trail
  have opening (t : List Char) :
      collapse false false none ('(' :: t) = '(' :: collapse false false (some '(') t := by
    simp [collapse, show Text.isBlank '(' = false from rfl, show Text.lowerChar '(' = ['('] from rfl]
  rw [squeeze_closed _ whole, squeeze_closed e closed, opening, collapse_lead _ _ _ _ rfl lead]
  refine congrArg ('(' :: ·) (collapse_back _ _ _ _ _ _ fun pending last => ?_)
  rw [closed]
  exact (collapse_trail pending last after trail).2

theorem quoted_text_lasting (text : List Char) :
    Lasting fun s => quotedAfter false s = false ∧ quotedText false s = text where
  opened front s lead held := by
    have plain := lead_unquoted front lead
    rwa [quoted_after_append, quoted_text_append, quoted_after_plain _ front plain,
      quoted_text_plain front plain] at held
  ended s back plain held := by
    obtain ⟨closed, same⟩ := held
    rw [quoted_after_append, quoted_after_plain _ back plain] at closed
    rw [quoted_text_append, closed, quoted_text_plain back plain, List.append_nil] at same
    exact ⟨closed, same⟩
  collapsed s held := by
    rwa [← quoted_after_marks, ← quoted_text_marks, marks_collapse, quoted_after_marks,
      quoted_text_marks]

theorem quoted_text_kept (e n : List Char) (closed : quotedAfter false e = false)
    (normal : normalize e = some n) : quotedText false n = quotedText false e :=
  (normalize_keeps _ (quoted_text_lasting (quotedText false e)) e n ⟨closed, rfl⟩ normal).2

/-! ### Respellings -/

-- One difference in layout: parentheses around the whole with white space inside them, other white
-- space in the place of some, or a letter in the other case.
inductive Respells : List Char → List Char → Prop
  | parens (e before after : List Char) (lead : ∀ c ∈ before, Text.isBlank c = true)
      (trail : ∀ c ∈ after, Text.isBlank c = true) :
      Respells e ('(' :: (before ++ (e ++ (after ++ [')']))))
  | blanks (front run other back : List Char) (unquoted : quotedAfter false front = false)
      (some : run ≠ []) (blank : ∀ c ∈ run, Text.isBlank c = true)
      (others : other ≠ []) (alike : ∀ c ∈ other, Text.isBlank c = true) :
      Respells (front ++ (run ++ back)) (front ++ (other ++ back))
  | letter (front back : List Char) (c d : Char) (unquoted : quotedAfter false front = false)
      (letter : c.isAlpha = true) (other : d.isAlpha = true) (same : c.toLower = d.toLower) :
      Respells (front ++ c :: back) (front ++ d :: back)

structure Letter (c : Char) : Prop where
  solid : Text.isBlank c = false
  plain : c ≠ '\'' ∧ c ≠ '(' ∧ c ≠ ')'
  comma : c ≠ ','
  lower : Text.lowerChar c = [c.toLower]

theorem letter_of_alpha (c : Char) (alpha : c.isAlpha = true) : Letter c := by
  have bounds : 0x41 ≤ c.toNat ∧ c.toNat ≤ 0x7a := by
    rcases Bool.or_eq_true_iff.mp alpha with upper | lower
    · have range : 0x41 ≤ c.toNat ∧ c.toNat ≤ 0x5a := by
        simpa [Char.isUpper, UInt32.le_iff_toNat_le] using upper
      omega
    · have range : 0x61 ≤ c.toNat ∧ c.toNat ≤ 0x7a := by
        simpa [Char.isLower, UInt32.le_iff_toNat_le] using lower
      omega
  have high (d : Char) (low : d.toNat < 0x41) : c ≠ d := by
    rintro rfl
    omega
  refine ⟨?_, ⟨high _ (by decide), high _ (by decide), high _ (by decide)⟩, high _ (by decide), ?_⟩
  · simp only [Text.isBlank, Bool.or_eq_false_iff, Bool.and_eq_false_iff, decide_eq_false_iff_not,
      beq_eq_false_iff_ne]
    omega
  · exact if_pos (by omega)

theorem collapse_letter (pending : Bool) (last : Option Char) (c d : Char) (s : List Char)
    (letter : Letter c) (other : Letter d) (same : c.toLower = d.toLower) :
    collapse false pending last (c :: s) = collapse false pending last (d :: s) := by
  have read (e : Char) (plain : Letter e) : collapse false pending last (e :: s)
      = (if pending && last.any (· ≠ '(') then [' '] else []) ++ e.toLower
        :: collapse false false (some e.toLower) s := by
    rw [collapse, if_neg Bool.false_ne_true, plain.solid, if_neg Bool.false_ne_true, plain.lower,
      decide_eq_true plain.plain.2.2, decide_eq_true plain.comma, decide_eq_false plain.plain.1,
      Bool.and_true, Bool.and_true]
    simp
  rw [read c letter, read d other, same]

-- What decides the normal form of a paired text: its marks and what collapsing it writes.
theorem respelled_alike (e f : List Char) (paired : Paired e) (same : marks false e = marks false f)
    (collapsed : collapse false false none e = collapse false false none f) :
    Paired f ∧ normalize f = normalize e := by
  have again := paired_of_marks e f same paired
  refine ⟨again, ?_⟩
  rw [normalize, normalize, squeeze_closed f ((paired_iff f).mp again).1,
    squeeze_closed e ((paired_iff e).mp paired).1, collapsed]

theorem respelled_step (e f : List Char) (paired : Paired e) (respelled : Respells e f) :
    Paired f ∧ normalize f = normalize e := by
  cases respelled with
  | parens _ before after lead trail =>
      have closed := ((paired_iff e).mp paired).1
      refine ⟨paired_wrapped e before after paired lead trail, ?_⟩
      have squeezed : Paired (squeeze e) := by
        refine paired_of_marks e _ ?_ paired
        rw [squeeze_closed e closed, marks_collapse]
      rw [normalize, squeeze_wrapped e before after closed lead trail,
        strip_parens_wrapped _ squeezed, normalize]
  | blanks front run other back unquoted some blank others alike =>
      have marked : marks false (front ++ (run ++ back)) = marks false (front ++ (other ++ back)) := by
        rw [marks_append _ front, unquoted, marks_blanks run back blank, marks_append _ front, unquoted,
          marks_blanks other back alike]
      refine respelled_alike _ _ paired marked ?_
      refine collapse_front _ _ _ _ _ _ fun pending last => ?_
      rw [unquoted, collapse_blanks _ _ _ _ some blank, collapse_blanks _ _ _ _ others alike]
  | letter front back c d unquoted letter other same =>
      have first := letter_of_alpha c letter
      have second := letter_of_alpha d other
      have plain (c : Char) (letter : Letter c) :
          marks false (front ++ c :: back) = marks false front ++ marks false back := by
        rw [marks_append, unquoted, ← List.singleton_append, marks_plain [c] back]
        exact List.forall_mem_singleton.mpr letter.plain
      refine respelled_alike _ _ paired (by rw [plain c first, plain d second]) ?_
      refine collapse_front _ _ _ _ _ _ fun pending last => ?_
      rw [unquoted]
      exact collapse_letter pending last c d back first second same

theorem respelled_run (e f : List Char) (paired : Paired e)
    (respelled : Relation.ReflTransGen Respells e f) : Paired f ∧ normalize f = normalize e := by
  induction respelled with
  | refl => exact ⟨paired, rfl⟩
  | tail _ step ih =>
      obtain ⟨again, same⟩ := respelled_step _ _ ih.1 step
      exact ⟨again, same.trans ih.2⟩

-- Spellings that differ in layout have one normal form, which holds all that stands between quotes.
theorem normalize_respelled (e f : List Char) (paired : Paired e)
    (respelled : Relation.ReflTransGen Respells e f) :
    normalize f = normalize e ∧
      ∀ n, normalize e = some n → quotedText false n = quotedText false e :=
  ⟨(respelled_run e f paired respelled).2,
    fun n normal => quoted_text_kept e n ((paired_iff e).mp paired).1 normal⟩

theorem call_respelled : normalize "( F(\n'A  B') )".toList = normalize "f( 'A  B')".toList ∧
    (normalize "f( 'A  B')".toList).map (quotedText false) = some "'A  B'".toList := by
  have blank (c : Char) (space : Text.isBlank c = true) : ∀ d ∈ [c], Text.isBlank d = true :=
    List.forall_mem_singleton.mpr space
  have letter := Respells.letter [] "( 'A  B')".toList 'f' 'F' rfl rfl rfl rfl
  have blanks := Respells.blanks "F(".toList [' '] ['\n'] "'A  B')".toList (by decide +kernel)
    (by simp) (blank ' ' rfl) (by simp) (blank '\n' rfl)
  have parens := Respells.parens "F(\n'A  B')".toList [' '] [' '] (blank ' ' rfl) (blank ' ' rfl)
  have paired : Paired "f( 'A  B')".toList := ⟨by decide +kernel, by decide +kernel⟩
  obtain ⟨same, kept⟩ := normalize_respelled _ _ paired
    (((Relation.ReflTransGen.single letter).tail blanks).tail parens)
  refine ⟨same, ?_⟩
  have some : normalize "f( 'A  B')".toList = some "f('A  B')".toList := by decide +kernel
  rw [some, Option.map_some, kept _ some]
  decide +kernel

end SchemaDrift.Default
