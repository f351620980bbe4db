import SchemaDrift.Proofs.Expression.Compound
import SchemaDrift.Proofs.Expression.Respelling
/-!
Casts on literals. Numbers and string literals lose a cast and have the normal form that they have
without it. `NULL` is looked for before the cast is taken off, so a `NULL` with a cast stays.
-/

set_option autoImplicit false

namespace SchemaDrift.Default

open SchemaDrift.Grammar

/-! ### Characters that are written as they are, but for their case -/

structure Simple (c : Char) : Prop where
  solid : Text.isBlank c = false
  quote : c ≠ '\''
  lower : Text.lowerChar c = [c.toLower]

theorem simple_alpha (c : Char) (alpha : c.isAlpha = true) : Simple c := by
  have letter := letter_of_alpha c alpha
  exact ⟨letter.solid, letter.plain.1, letter.lower⟩

theorem simple_number (c : Char) (char : c = '-' ∨ c = '+' ∨ c = '.' ∨ c.isDigit = true) :
    Simple c ∧ c.toLower = c := by
  have solid := (number_char_solid c char).1
  obtain rfl | rfl | rfl | digit := char
  · exact ⟨⟨solid, by decide, rfl⟩, rfl⟩
  · exact ⟨⟨solid, by decide, rfl⟩, rfl⟩
  · exact ⟨⟨solid, by decide, rfl⟩, rfl⟩
  · have bounds : 48 ≤ c.toNat ∧ c.toNat ≤ 57 := Char.isDigit_iff_toNat.mp digit
    refine ⟨⟨solid, ?_, if_pos (by omega)⟩, Char.toLower_eq_of_not_isUpper fun upper => ?_⟩
    · rintro rfl
      cases digit
    · have range : 0x41 ≤ c.toNat ∧ c.toNat ≤ 0x5a := by
        simpa [Char.isUpper, UInt32.le_iff_toNat_le] using upper
      omega

theorem type_char (c : Char) (typed : isTypeChar c = true) (space : c ≠ ' ') :
    Simple c ∧ isTypeChar c.toLower = true := by
  simp only [isTypeChar, Char.isAlphanum, Bool.or_eq_true, decide_eq_true_eq, space,
    or_false] at typed
  obtain ((((((alpha | digit) | rfl) | rfl) | rfl) | rfl) | rfl) | rfl := typed
  · exact ⟨simple_alpha c alpha, by simp [isTypeChar, Char.isAlphanum, alpha]⟩
  · obtain ⟨simple, same⟩ := simple_number c (.inr (.inr (.inr digit)))
    exact ⟨simple, by simp [same, isTypeChar, Char.isAlphanum, digit]⟩
  all_goals exact ⟨⟨rfl, by decide, rfl⟩, rfl⟩

theorem collapse_simple (last : Option Char) (s rest : List Char) (simple : ∀ c ∈ s, Simple c) :
    ∃ before, collapse false false last (s ++ rest)
      = s.map Char.toLower ++ collapse false false before rest := by
  induction s generalizing last with
  | nil => exact ⟨last, rfl⟩
  | cons c s ih =>
      obtain ⟨first, later⟩ := List.forall_mem_cons.mp simple
      obtain ⟨before, written⟩ := ih (some c.toLower) later
      refine ⟨before, ?_⟩
      rw [List.cons_append, collapse_solid _ _ _ _ first.solid, first.lower,
        decide_eq_false first.quote]
      exact congrArg (c.toLower :: ·) written

theorem collapse_typed (pending : Bool) (last : Option Char) (type : List Char)
    (typed : type.all isTypeChar = true) :
    (collapse false pending last type).all isTypeChar = true := by
  induction type generalizing pending last with
  | nil => rfl
  | cons c type ih =>
      rw [List.all_cons, Bool.and_eq_true] at typed
      by_cases blank : c = ' '
      · subst blank
        rw [collapse_blank _ _ _ _ rfl]
        exact ih _ _ typed.2
      · obtain ⟨simple, lower⟩ := type_char c typed.1 blank
        have space : (gap pending last c).all isTypeChar = true := by
          refine List.all_eq_true.mpr fun d member => ?_
          rw [gap_space _ _ _ d member]
          rfl
        rw [collapse_solid _ _ _ _ simple.solid, simple.lower, decide_eq_false simple.quote,
          List.all_append, List.all_append, space, ih _ _ typed.2, List.all_cons, lower]
        rfl

/-! ### Texts with a cast -/

theorem cast_closed (l type : List Char) (closed : quotedAfter false l = false)
    (typed : type.all isTypeChar = true) :
    quotedAfter false (l ++ ':' :: ':' :: type) = false := by
  rw [quoted_after_append, closed, quoted_after_plain _ _ (type_unquoted type typed)]

theorem squeeze_cast (l n type : List Char) (closed : quotedAfter false l = false)
    (written : ∀ rest, ∃ before, collapse false false none (l ++ rest)
      = n ++ collapse false false before rest) (typed : type.all isTypeChar = true) :
    ∃ back, squeeze (l ++ ':' :: ':' :: type) = n ++ ':' :: ':' :: back
      ∧ back.all isTypeChar = true := by
  obtain ⟨before, front⟩ := written (':' :: ':' :: type)
  have colon : Simple ':' := ⟨rfl, by decide, rfl⟩
  obtain ⟨after, colons⟩ := collapse_simple before [':', ':'] type (by simp [colon])
  refine ⟨collapse false false after type, ?_, collapse_typed _ _ type typed⟩
  rw [squeeze_closed _ (cast_closed l type closed typed), front]
  exact congrArg (n ++ ·) colons

theorem normalize_bare (e s : List Char) (squeezed : squeeze e = s) (bare : s.head? ≠ some '(') :
    normalize e = if s = [] ∨ s = "null".toList then none else some s := by
  have stripped : stripWrapped s = s := strip_wrapped_bare s (unwrap_bare s bare)
  have trimmed : Text.trim s = s := trim_squeezed s (squeezed ▸ squeeze_squeezed e)
  rw [normalize, squeezed, stripParens, trimmed, stripped]

theorem normalize_cast (e n back : List Char) (squeezed : squeeze e = n ++ ':' :: ':' :: back)
    (bare : n.head? ≠ some '(') : normalize e = some (n ++ ':' :: ':' :: back) := by
  have first : (n ++ ':' :: ':' :: back).head? ≠ some '(' := by
    cases n with
    | nil => simp
    | cons c n => exact bare
  have colon : ':' ∈ n ++ ':' :: ':' :: back := by simp
  rw [normalize_bare e _ squeezed first, if_neg]
  rintro (empty | null)
  · rw [empty] at colon
    cases colon
  · rw [null] at colon
    revert colon
    decide

theorem outside_plain (s : List Char) (plain : '\'' ∉ s) : outside false s = s := by
  induction s with
  | nil => rfl
  | cons c s ih =>
      rw [List.mem_cons, not_or] at plain
      rw [outside, if_neg (Ne.symm plain.1), if_neg Bool.false_ne_true, ih plain.2]

theorem split_cast_after (quoted : Bool) (l back : List Char)
    (closed : quotedAfter quoted l = false) (uncast : ':' ∉ outside quoted l) :
    splitCast quoted (l ++ ':' :: ':' :: back) = some (l, back) := by
  induction l generalizing quoted with
  | nil =>
      obtain rfl : quoted = false := closed
      rfl
  | cons c l ih =>
      rw [quotedAfter] at closed
      rw [outside] at uncast
      rw [List.cons_append]
      by_cases quote : c = '\''
      · rw [if_pos quote] at closed uncast
        rw [quote, split_cast_quote, ih _ closed uncast]
        rfl
      · rw [if_neg quote] at closed uncast
        cases quoted with
        | true =>
            rw [split_cast_plain _ _ _ quote (by simp), ih _ closed (by simpa using uncast)]
            rfl
        | false =>
            rw [if_neg Bool.false_ne_true, List.mem_cons, not_or] at uncast
            rw [split_cast_plain _ _ _ quote (fun colons => uncast.1 colons.2.1.symm),
              ih _ closed uncast.2]
            rfl

/-! ### Literals in front of a cast -/

structure Plain (l : List Char) : Prop where
  closed : quotedAfter false l = false
  uncast : ':' ∉ outside false l
  bare : l.head? ≠ some '('
  written : ∀ rest, ∃ before, collapse false false none (l ++ rest)
    = l ++ collapse false false before rest
  kind : isNumber l = true ∨ isQuoted l = true

theorem body_scanned (body : List Char) (whole : LiteralBody body) (escape : '\\' ∉ body) :
    quotedAfter true body = false ∧ outside true body = [] ∧ escapesQuote body = false := by
  induction whole with
  | close => exact ⟨rfl, rfl, rfl⟩
  | doubled s _ ih =>
      simp only [List.mem_cons, not_or] at escape
      exact ih escape.2.2
  | escaped => simp at escape
  | other c s quote other _ ih =>
      rw [List.mem_cons, not_or] at escape
      rw [quotedAfter, outside, if_neg quote, if_neg quote, if_pos rfl, escapes_other c s other]
      exact ih escape.2

theorem plain_number (l : List Char) (number : Number l) : Plain l := by
  have kind : isNumber l = true := (number_iff l).mpr number
  have chars := number_chars l kind
  have unquoted : '\'' ∉ l := fun quote => (simple_number _ (chars _ quote)).1.quote rfl
  have lower : l.map Char.toLower = l := by
    refine (List.map_congr_left fun c member => ?_).trans (List.map_id l)
    exact (simple_number c (chars c member)).2
  refine ⟨quoted_after_plain _ l unquoted, ?_, ?_, fun rest => ?_, .inl kind⟩
  · rw [outside_plain l unquoted]
    exact fun colon => absurd (chars _ colon) (by decide)
  · exact fun head => (number_char_solid _ (chars _ (List.mem_of_head? head))).2 rfl
  · obtain ⟨before, written⟩ :=
      collapse_simple none l rest fun c member => (simple_number c (chars c member)).1
    exact ⟨before, by rw [written, lower]⟩

theorem plain_literal (l : List Char) (whole : StringLiteral l) (escape : '\\' ∉ l) : Plain l := by
  have read := (string_literal_iff l).mp whole
  have written (rest : List Char) (plain : escapesQuote l = false) :=
    collapse_literal l rest whole plain false none
  obtain ⟨body, rfl, inner⟩ := id whole
  rw [List.mem_cons, not_or] at escape
  obtain ⟨closed, empty, plain⟩ := body_scanned body inner escape.2
  refine ⟨closed, ?_, by simp, fun rest => ?_, .inr ?_⟩
  · show ':' ∉ outside true body
    rw [empty]
    exact List.not_mem_nil
  · exact ⟨some '\'', written rest ((escapes_other _ _ (by decide)).trans plain)⟩
  · exact (quoted_iff _ (opens_literal body (Option.isSome_of_eq_some read))).mpr (.inl whole)

theorem plain_cast_dropped (l type : List Char) (plain : Plain l)
    (typed : type.all isTypeChar = true) :
    Dialect.postgres.normalizeDefault (l ++ ':' :: ':' :: type)
      = Dialect.postgres.normalizeDefault l := by
  obtain ⟨back, squeezed, backTyped⟩ := squeeze_cast l l type plain.closed plain.written typed
  have normal := normalize_cast _ l back squeezed plain.bare
  have parts := split_cast_after false l back plain.closed plain.uncast
  -- What is left when the cast is off is a normal form, so it is that of the literal on its own.
  have bare : normalize l = some l :=
    normal_fixed l (literal_normal _ l back (normalize_normal _ _ normal) parts plain.kind)
  have whole : stripLiteralCast l = l := by
    rw [stripLiteralCast, (split_cast_first false _ l back parts).2]
  have stripped : stripLiteralCast (l ++ ':' :: ':' :: back) = l := by
    rw [stripLiteralCast, parts]
    exact if_pos ⟨backTyped, plain.kind⟩
  rw [Dialect.normalizeDefault, Dialect.normalizeDefault, normal, bare, Option.map_some,
    Option.map_some, stripped, whole]

def Null (l : List Char) : Prop := l.map Char.toLower = "null".toList

theorem null_cast_stays (l type : List Char) (null : Null l) (typed : type.all isTypeChar = true) :
    Dialect.postgres.normalizeDefault (l ++ ':' :: ':' :: type)
      ≠ Dialect.postgres.normalizeDefault l := by
  have simple (c : Char) (member : c ∈ l) : Simple c := by
    refine simple_alpha c ?_
    have letters : ∀ d ∈ "null".toList, d.isAlpha = true := List.all_eq_true.mp (by decide)
    rw [← Char.isAlpha_toLower_eq_isAlpha]
    exact letters _ (null ▸ List.mem_map_of_mem member)
  have closed : quotedAfter false l = false :=
    quoted_after_plain _ l fun quote => (simple _ quote).quote rfl
  have written (rest : List Char) : ∃ before, collapse false false none (l ++ rest)
      = "null".toList ++ collapse false false before rest := by
    rw [← null]
    exact collapse_simple none l rest simple
  have alone : normalize l = none := by
    obtain ⟨_, bare⟩ := written []
    have squeezed : squeeze l = "null".toList := by
      rw [squeeze_closed l closed]
      simpa [collapse] using bare
    rw [normalize_bare l _ squeezed (by decide), if_pos (.inr rfl)]
  obtain ⟨back, squeezed, -⟩ := squeeze_cast l _ type closed written typed
  rw [Dialect.normalizeDefault, Dialect.normalizeDefault, alone,
    normalize_cast _ _ back squeezed (by decide)]
  exact Option.some_ne_none _

-- A cast on a literal makes no difference, unless the literal is `NULL`.
theorem literal_cast_dropped_iff (l type : List Char)
    (literal : Number l ∨ StringLiteral l ∧ '\\' ∉ l ∨ Null l) (typed : type.all isTypeChar = true) :
    Dialect.postgres.normalizeDefault (l ++ ':' :: ':' :: type)
      = Dialect.postgres.normalizeDefault l ↔ ¬Null l := by
  -- A number or a string literal cannot be `NULL`, of which the cast stays.
  have dropped (plain : Plain l) : Dialect.postgres.normalizeDefault (l ++ ':' :: ':' :: type)
      = Dialect.postgres.normalizeDefault l ↔ ¬Null l := by
    have same := plain_cast_dropped l type plain typed
    exact iff_of_true same fun null => null_cast_stays l type null typed same
  rcases literal with number | ⟨whole, escape⟩ | null
  · exact dropped (plain_number l number)
  · exact dropped (plain_literal l whole escape)
  · exact iff_of_false (null_cast_stays l type null typed) (not_not.mpr null)

theorem note_cast_dropped :
    Dialect.postgres.normalizeDefault "'It''s  A'::character varying(9)".toList
      = some "'It''s  A'" := by
  have whole : StringLiteral "'It''s  A'".toList := (string_literal_iff _).mpr (by decide +kernel)
  have dropped := literal_cast_dropped_iff "'It''s  A'".toList "character varying(9)".toList
    (.inr (.inl ⟨whole, by decide⟩)) (by decide)
  exact (dropped.mpr (by unfold Null; decide)).trans (by decide +kernel)

-- `NULL::text` says no more than `NULL`, but it is kept as a default of its own.
theorem null_cast_is_kept : ¬∀ l type : List Char,
    Number l ∨ StringLiteral l ∧ '\\' ∉ l ∨ Null l → type ≠ [] → type.all isTypeChar = true →
      Dialect.postgres.normalizeDefault (l ++ ':' :: ':' :: type)
        = Dialect.postgres.normalizeDefault l := by
  intro dropped
  have same := dropped "NULL".toList "text".toList (.inr (.inr rfl)) (by decide) (by decide)
  revert same
  decide +kernel

end SchemaDrift.Default
