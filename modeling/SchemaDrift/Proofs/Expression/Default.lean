import SchemaDrift.Expression.Default
import SchemaDrift.Proofs.Text.Case
/-!
The normal form of a default expression is its own normal form. Squeezing gives a text that
squeezing leaves as it is, and neither the inside of parentheses nor a literal without its cast
loses that property.
-/

set_option autoImplicit false

namespace SchemaDrift.Default

/-! ### Escaped quotes -/

-- A backslash stands in front of a quote and is not itself escaped.
def escapesQuote : List Char → Bool
  | [] => false
  | '\\' :: c :: s => c = '\'' || escapesQuote s
  | _ :: s => escapesQuote s

theorem escapes_pair (c : Char) (s : List Char) :
    escapesQuote ('\\' :: c :: s) = (decide (c = '\'') || escapesQuote s) := rfl

theorem escapes_other (c : Char) (s : List Char) (other : c ≠ '\\') :
    escapesQuote (c :: s) = escapesQuote s :=
  escapesQuote.eq_3 c s fun _ _ same => absurd same other

theorem escapes_split (t s : List Char) (c : Char) (other : c ≠ '\\') :
    escapesQuote (t ++ c :: s) = (escapesQuote (t ++ [c]) || escapesQuote s) := by
  fun_induction escapesQuote t with
  | case1 =>
      rw [List.nil_append, List.nil_append, escapes_other c s other, escapes_other c [] other]
      rfl
  | case2 d t ih =>
      rw [List.cons_append, List.cons_append, List.cons_append, List.cons_append, escapes_pair,
        escapes_pair, ih, Bool.or_assoc]
  | case3 d t alone ih =>
      by_cases backslash : d = '\\'
      · cases t with
        | nil =>
            rw [backslash, List.singleton_append, List.singleton_append, escapes_pair, escapes_pair,
              Bool.or_assoc]
            rfl
        | cons e t => exact absurd rfl (alone e t backslash)
      · rw [List.cons_append, List.cons_append, escapes_other _ _ backslash,
          escapes_other _ _ backslash, ih]

/-! ### Trimming -/

theorem trim_last (s : List Char) (c : Char) (last : (Text.trim s).getLast? = some c) :
    Text.isBlank c = false := by
  unfold Text.trim Text.trimEnd at last
  rw [List.getLast?_reverse] at last
  have first := List.head?_dropWhile_not Text.isBlank (Text.trimStart s).reverse
  rw [last] at first
  simpa using first

theorem trim_fixed (s : List Char) (first : ∀ c, s.head? = some c → Text.isBlank c = false)
    (last : ∀ c, s.getLast? = some c → Text.isBlank c = false) : Text.trim s = s := by
  have settled (t : List Char) (head : ∀ c, t.head? = some c → Text.isBlank c = false) :
      t.dropWhile Text.isBlank = t := by
    cases t with
    | nil => rfl
    | cons c t => rw [List.dropWhile_cons_of_neg (by simp [head c rfl])]
  rw [Text.trim, Text.trimStart, settled s first, Text.trimEnd, settled, List.reverse_reverse]
  rwa [List.head?_reverse]

theorem trim_parts (s : List Char) : ∃ front back, s = front ++ (Text.trim s ++ back) ∧
    (∀ c ∈ front, Text.isBlank c = true) ∧ ∀ c ∈ back, Text.isBlank c = true := by
  refine ⟨s.takeWhile Text.isBlank, ((Text.trimStart s).reverse.takeWhile Text.isBlank).reverse, ?_,
    fun c member => List.mem_takeWhile_imp member,
    fun c member => List.mem_takeWhile_imp (List.mem_reverse.mp member)⟩
  have back := congrArg List.reverse
    (List.takeWhile_append_dropWhile (p := Text.isBlank) (l := (Text.trimStart s).reverse))
  rw [List.reverse_append, List.reverse_reverse] at back
  rw [Text.trim, Text.trimEnd, back]
  exact List.takeWhile_append_dropWhile.symm

/-! ### Squeezed text -/

-- What collapsing leaves as it is, `last` being the character before: one space for white space, but
-- none at the end, after `(` and in front of `)` and `,`, and lower case outside of quotes.
def Tidy (quoted : Bool) (last : Option Char) : List Char → Prop
  | [] => True
  | c :: s =>
    if quoted then Tidy (c ≠ '\'') (some c) s
    else if Text.isBlank c then
      c = ' ' ∧ last.any (· ≠ '(')
        ∧ (∃ d, s.head? = some d ∧ Text.isBlank d = false ∧ d ≠ ')' ∧ d ≠ ',') ∧ Tidy false last s
    else Text.lowerChar c = [c] ∧ Tidy (c = '\'') (some c) s

structure Squeezed (s : List Char) : Prop where
  tidy : Tidy false none s
  last : ∀ c, s.getLast? = some c → Text.isBlank c = false

theorem tidy_letters (last : Option Char) (letters rest : List Char)
    (plain : ∀ c ∈ letters, Text.isBlank c = false ∧ Text.lowerChar c = [c] ∧ c ≠ '\'')
    (tidy : Tidy false (letters.getLast?.or last) rest) : Tidy false last (letters ++ rest) := by
  induction letters generalizing last with
  | nil => exact tidy
  | cons c letters ih =>
      obtain ⟨solid, lower, unquoted⟩ := plain c (by simp)
      rw [List.cons_append, Tidy, if_neg Bool.false_ne_true, solid, if_neg Bool.false_ne_true]
      refine ⟨lower, ?_⟩
      rw [decide_eq_false unquoted]
      refine ih (some c) (fun d member => plain d (by simp [member])) ?_
      rw [List.getLast?_cons] at tidy
      cases ends : letters.getLast? with
      | none => simpa [ends] using tidy
      | some d => simpa [ends] using tidy

theorem tidy_lower (c : Char) (last : Option Char) (rest : List Char)
    (solid : Text.isBlank c = false)
    (tidy : Tidy (c = '\'') ((Text.lowerChar c).getLast?.or last) rest) :
    Tidy false last (Text.lowerChar c ++ rest) := by
  by_cases quote : c = '\''
  · subst quote
    exact ⟨rfl, tidy⟩
  · rw [decide_eq_false quote] at tidy
    refine tidy_letters last _ rest (fun d member => ⟨Text.lower_char_solid c d solid member,
      Text.lower_char_again c d member, fun same => ?_⟩) tidy
    exact quote (Text.lower_char_mark c d member (by rw [same]; decide) ▸ same)

theorem collapse_tidy (quoted pending : Bool) (last : Option Char) (s : List Char) :
    Tidy quoted last (collapse quoted pending last s) := by
  induction s generalizing quoted pending last with
  | nil => trivial
  | cons c s ih =>
      cases quoted with
      | true => exact ih _ _ _
      | false =>
          rw [collapse, if_neg Bool.false_ne_true]
          by_cases blank : Text.isBlank c = true
          · rw [if_pos blank]
            exact ih _ _ _
          · rw [if_neg blank]
            have solid : Text.isBlank c = false := by simpa using blank
            have body := tidy_lower c last _ solid (ih (c = '\'') false _)
            dsimp only
            split
            case isFalse => exact body
            case isTrue space =>
              simp only [Bool.and_eq_true, decide_eq_true_eq] at space
              obtain ⟨⟨⟨-, after⟩, closing⟩, comma⟩ := space
              refine ⟨rfl, after, ?_, body⟩
              obtain ⟨d, ds, lower⟩ := List.exists_cons_of_ne_nil (Text.lower_char_ne_nil c)
              have member : d ∈ Text.lowerChar c := by simp [lower]
              refine ⟨d, by simp [lower], Text.lower_char_solid c d solid member, ?_, ?_⟩
              · exact fun same =>
                  closing (Text.lower_char_mark c d member (by rw [same]; decide) ▸ same)
              · exact fun same =>
                  comma (Text.lower_char_mark c d member (by rw [same]; decide) ▸ same)

theorem collapse_last (quoted pending : Bool) (last : Option Char) (s : List Char) (e : Char)
    (ends : s.getLast? = some e) (solid : Text.isBlank e = false) :
    ∃ d, (collapse quoted pending last s).getLast? = some d ∧ Text.isBlank d = false := by
  induction s generalizing quoted pending last with
  | nil => cases ends
  | cons c s ih =>
      have later (front back : List Char)
          (found : ∃ d, back.getLast? = some d ∧ Text.isBlank d = false) :
          ∃ d, (front ++ back).getLast? = some d ∧ Text.isBlank d = false := by
        obtain ⟨d, last, solid⟩ := found
        exact ⟨d, by rw [List.getLast?_append, last]; rfl, solid⟩
      by_cases more : s = []
      · subst more
        obtain rfl : c = e := Option.some.inj ends
        cases quoted with
        | true => exact ⟨c, rfl, solid⟩
        | false =>
            rw [collapse, if_neg Bool.false_ne_true, solid, if_neg Bool.false_ne_true]
            dsimp only
            rw [collapse, List.append_nil]
            have letters := Text.lower_char_ne_nil c
            exact later _ _ ⟨_, List.getLast?_eq_some_getLast letters,
              Text.lower_char_solid c _ solid (List.getLast_mem letters)⟩
      · have found (q p : Bool) (l : Option Char) := ih q p l (by
          rwa [List.getLast?_cons_of_ne_nil more] at ends)
        cases quoted with
        | true => exact later [c] _ (found _ _ _)
        | false =>
            rw [collapse, if_neg Bool.false_ne_true]
            split
            · exact found _ _ _
            · exact later _ _ (found _ _ _)

theorem collapse_fixed (quoted : Bool) (last : Option Char) (s : List Char)
    (tidy : Tidy quoted last s) : collapse quoted false last s = s := by
  induction s generalizing quoted last with
  | nil => rfl
  | cons c s ih =>
      cases quoted with
      | true => exact congrArg (c :: ·) (ih _ _ tidy)
      | false =>
          rw [Tidy, if_neg Bool.false_ne_true] at tidy
          rw [collapse, if_neg Bool.false_ne_true]
          by_cases blank : Text.isBlank c = true
          · rw [if_pos blank] at tidy ⊢
            obtain ⟨rfl, after, ⟨d, head, solid, closing, comma⟩, rest⟩ := tidy
            obtain ⟨t, rfl⟩ := List.head?_eq_some_iff.mp head
            have same := ih _ _ rest
            rw [collapse, if_neg Bool.false_ne_true, solid, if_neg Bool.false_ne_true] at same ⊢
            have space : (true && last.any (· ≠ '(') && d ≠ ')' && d ≠ ',') = true := by
              rw [after, decide_eq_true closing, decide_eq_true comma]
              rfl
            rw [if_pos space]
            exact congrArg (' ' :: ·) same
          · rw [if_neg blank] at tidy ⊢
            obtain ⟨lower, rest⟩ := tidy
            rw [lower]
            exact congrArg (c :: ·) (ih _ _ rest)

theorem trim_squeezed (s : List Char) (squeezed : Squeezed s) : Text.trim s = s := by
  refine trim_fixed s (fun c first => ?_) squeezed.last
  obtain ⟨rest, rfl⟩ := List.head?_eq_some_iff.mp first
  cases solid : Text.isBlank c with
  | false => rfl
  | true =>
      -- The first character has no character before it.
      have tidy := squeezed.tidy
      rw [Tidy, if_neg Bool.false_ne_true, if_pos solid] at tidy
      exact tidy.2.1.symm

theorem squeeze_squeezed (e : List Char) : Squeezed (squeeze e) := by
  refine ⟨collapse_tidy _ _ _ _, fun c last => ?_⟩
  cases ends : (Text.trim e).getLast? with
  | none =>
      rw [squeeze, List.getLast?_eq_none_iff.mp ends] at last
      cases last
  | some d =>
      obtain ⟨b, same, solid⟩ := collapse_last false false none _ d ends (trim_last e d ends)
      rw [squeeze, same] at last
      cases last
      exact solid

theorem squeeze_fixed (s : List Char) (squeezed : Squeezed s) : squeeze s = s := by
  rw [squeeze, trim_squeezed s squeezed]
  exact collapse_fixed false none s squeezed.tidy

/-! ### Parts of a squeezed text -/

def quotedAfter (quoted : Bool) : List Char → Bool
  | [] => quoted
  | c :: s => quotedAfter (if c = '\'' then !quoted else quoted) s

theorem tidy_front (quoted : Bool) (last : Option Char) (front back : List Char)
    (tidy : Tidy quoted last (front ++ back))
    (solid : ∀ c, front.getLast? = some c → Text.isBlank c = false) : Tidy quoted last front := by
  induction front generalizing quoted last with
  | nil => trivial
  | cons c front ih =>
      have solid' : ∀ d, front.getLast? = some d → Text.isBlank d = false := by
        intro d ends
        exact solid d (by rw [List.getLast?_cons, ends]; rfl)
      rw [List.cons_append, Tidy] at tidy
      rw [Tidy]
      split
      case isTrue quote =>
        rw [if_pos quote] at tidy
        exact ih _ _ tidy solid'
      case isFalse unquoted =>
        rw [if_neg unquoted] at tidy
        split
        case isFalse visible =>
          rw [if_neg visible] at tidy
          exact ⟨tidy.1, ih _ _ tidy.2 solid'⟩
        case isTrue blank =>
          rw [if_pos blank] at tidy
          obtain ⟨space, after, ⟨d, head, next⟩, rest⟩ := tidy
          refine ⟨space, after, ⟨d, ?_, next⟩, ih _ _ rest solid'⟩
          cases front with
          | nil =>
              rw [solid c rfl] at blank
              cases blank
          | cons e front => exact head

theorem tidy_tail (quoted : Bool) (last : Option Char) (c : Char) (s : List Char)
    (tidy : Tidy quoted last (c :: s)) :
    ∃ before, Tidy (if c = '\'' then !quoted else quoted) before s := by
  cases quoted with
  | true =>
      refine ⟨some c, ?_⟩
      have next : (if c = '\'' then !true else true) = decide (c ≠ '\'') := by
        by_cases quote : c = '\'' <;> simp [quote]
      rw [next]
      exact tidy
  | false =>
      rw [Tidy, if_neg Bool.false_ne_true] at tidy
      split at tidy
      case isTrue blank =>
        refine ⟨last, ?_⟩
        rw [tidy.1, if_neg (by decide)]
        exact tidy.2.2.2
      case isFalse visible =>
        refine ⟨some c, ?_⟩
        have next : (if c = '\'' then !false else false) = decide (c = '\'') := by
          by_cases quote : c = '\'' <;> simp [quote]
        rw [next]
        exact tidy.2

theorem tidy_closed (quoted : Bool) (last : Option Char) (inside : List Char) (c : Char)
    (tidy : Tidy quoted last (inside ++ [')'])) (unquoted : quotedAfter quoted inside = false)
    (ends : inside.getLast? = some c) : Text.isBlank c = false := by
  induction inside generalizing quoted last with
  | nil => cases ends
  | cons d inside ih =>
      by_cases more : inside = []
      · subst more
        obtain rfl : d = c := Option.some.inj ends
        cases blank : Text.isBlank d with
        | false => rfl
        | true =>
            have other : d ≠ '\'' := by
              rintro rfl
              cases blank
            rw [quotedAfter, quotedAfter, if_neg other] at unquoted
            subst unquoted
            rw [List.cons_append, Tidy, if_neg Bool.false_ne_true, if_pos blank] at tidy
            obtain ⟨-, -, ⟨e, head, -, closing, -⟩, -⟩ := tidy
            exact absurd (Option.some.inj head).symm closing
      · rw [List.getLast?_cons_of_ne_nil more] at ends
        obtain ⟨before, rest⟩ := tidy_tail quoted last d _ tidy
        exact ih _ before rest unquoted ends

/-! ### Parentheses around the whole -/

theorem wraps_unquoted (quoted : Bool) (depth : Nat) (inside : List Char) (opened : depth ≠ 0)
    (wraps : wrapsFrom quoted depth (inside ++ [')']) = true) : quotedAfter quoted inside = false := by
  induction inside generalizing quoted depth with
  | nil =>
      cases quoted with
      | false => rfl
      | true => simp [wrapsFrom, opened] at wraps
  | cons c inside ih =>
      rw [List.cons_append, wrapsFrom] at wraps
      rw [quotedAfter]
      split
      case isTrue quote =>
        rw [if_pos quote] at wraps
        exact ih _ depth opened wraps
      case isFalse other =>
        rw [if_neg other] at wraps
        split at wraps
        · exact ih _ (depth + 1) (by omega) wraps
        · split at wraps
          · split at wraps
            case isTrue => cases wraps
            case isFalse more =>
              refine ih _ (depth - 1) (fun closed => more ⟨closed, ?_⟩) wraps
              exact List.append_ne_nil_of_right_ne_nil _ (by simp)
          · exact ih _ depth opened wraps

theorem tidy_opened (s : List Char) (tidy : Tidy false (some '(') s) : Tidy false none s := by
  cases s with
  | nil => trivial
  | cons c s =>
      rw [Tidy, if_neg Bool.false_ne_true] at tidy ⊢
      by_cases blank : Text.isBlank c = true
      · rw [if_pos blank] at tidy
        cases tidy.2.1
      · rw [if_neg blank] at tidy ⊢
        exact tidy

theorem unwrap_parts (s inside : List Char) (unwrapped : unwrap? s = some inside) :
    ∃ m, s = '(' :: (m ++ [')']) ∧ inside = Text.trim m ∧ quotedAfter false m = false := by
  unfold unwrap? at unwrapped
  split at unwrapped
  case h_2 => cases unwrapped
  case h_1 rest =>
    split at unwrapped
    case isFalse => cases unwrapped
    case isTrue wrapped =>
      obtain ⟨m, rfl⟩ := List.getLast?_eq_some_iff.mp wrapped.1
      rw [List.dropLast_concat] at unwrapped
      exact ⟨m, rfl, (Option.some.inj unwrapped).symm,
        wraps_unquoted false 1 m Nat.one_ne_zero wrapped.2⟩

theorem unwrap_squeezed (s inside : List Char) (squeezed : Squeezed s)
    (unwrapped : unwrap? s = some inside) : Squeezed inside := by
  obtain ⟨m, rfl, rfl, unquoted⟩ := unwrap_parts s inside unwrapped
  have tidy : Tidy false (some '(') (m ++ [')']) := squeezed.tidy.2
  have solid (c : Char) (ends : m.getLast? = some c) : Text.isBlank c = false :=
    tidy_closed _ _ m c tidy unquoted ends
  have inner : Squeezed m := ⟨tidy_opened m (tidy_front _ _ m [')'] tidy solid), solid⟩
  rwa [trim_squeezed m inner]

theorem strip_wrapped_squeezed (s : List Char) (squeezed : Squeezed s) :
    Squeezed (stripWrapped s) ∧ unwrap? (stripWrapped s) = none := by
  fun_induction stripWrapped s with
  | case1 s inside unwrapped ih => exact ih (unwrap_squeezed s inside squeezed unwrapped)
  | case2 s bare => exact ⟨squeezed, bare⟩

theorem unwrap_bare (s : List Char) (bare : s.head? ≠ some '(') : unwrap? s = none := by
  unfold unwrap?
  split
  · exact absurd rfl bare
  · rfl

theorem strip_wrapped_bare (s : List Char) (bare : unwrap? s = none) : stripWrapped s = s := by
  rw [stripWrapped]
  split
  case h_1 inside unwrapped =>
    rw [bare] at unwrapped
    cases unwrapped
  case h_2 => rfl

/-! ### Normal forms -/

structure Normal (s : List Char) : Prop where
  squeezed : Squeezed s
  bare : unwrap? s = none
  some : s ≠ []
  null : s ≠ "null".toList

theorem normalize_normal (e s : List Char) (normal : normalize e = some s) : Normal s := by
  have squeezed := squeeze_squeezed e
  unfold normalize at normal
  dsimp only at normal
  split at normal
  case isTrue => cases normal
  case isFalse some =>
    cases normal
    rw [not_or] at some
    rw [stripParens, trim_squeezed _ squeezed] at some ⊢
    obtain ⟨inner, bare⟩ := strip_wrapped_squeezed _ squeezed
    exact ⟨inner, bare, some.1, some.2⟩

theorem normal_fixed (s : List Char) (normal : Normal s) : normalize s = some s := by
  have stripped : stripParens (squeeze s) = s := by
    rw [squeeze_fixed s normal.squeezed, stripParens, trim_squeezed s normal.squeezed,
      strip_wrapped_bare s normal.bare]
  rw [normalize, stripped, if_neg (not_or.mpr ⟨normal.some, normal.null⟩)]

/-! ### Literals without their cast -/

theorem split_cast_plain (quoted : Bool) (c : Char) (s : List Char) (other : c ≠ '\'')
    (apart : ¬(quoted = false ∧ c = ':' ∧ s.head? = some ':')) :
    splitCast quoted (c :: s) = (splitCast quoted s).map fun (a, b) => (c :: a, b) := by
  rw [splitCast.eq_def]
  dsimp only
  rw [if_neg other]
  split
  · exact absurd ⟨rfl, rfl, rfl⟩ apart
  · rfl

theorem split_cast_quote (quoted : Bool) (s : List Char) :
    splitCast quoted ('\'' :: s) = (splitCast (!quoted) s).map fun (a, b) => ('\'' :: a, b) := by
  rw [splitCast.eq_def]
  exact if_pos rfl

theorem split_cast_first (quoted : Bool) (s literal type : List Char)
    (parts : splitCast quoted s = some (literal, type)) :
    s = literal ++ ':' :: ':' :: type ∧ splitCast quoted literal = none := by
  induction s generalizing quoted literal with
  | nil => cases parts
  | cons c s ih =>
      by_cases quote : c = '\''
      · subst quote
        rw [split_cast_quote] at parts
        obtain ⟨⟨front, back⟩, rest, same⟩ := Option.map_eq_some_iff.mp parts
        cases same
        obtain ⟨rfl, uncast⟩ := ih _ front rest
        exact ⟨rfl, by rw [split_cast_quote, uncast, Option.map_none]⟩
      · by_cases colons : quoted = false ∧ c = ':' ∧ s.head? = some ':'
        · obtain ⟨rfl, rfl, head⟩ := colons
          obtain ⟨t, rfl⟩ := List.head?_eq_some_iff.mp head
          cases parts
          exact ⟨rfl, rfl⟩
        · rw [split_cast_plain quoted c s quote colons] at parts
          obtain ⟨⟨front, back⟩, rest, same⟩ := Option.map_eq_some_iff.mp parts
          cases same
          obtain ⟨rfl, uncast⟩ := ih _ front rest
          refine ⟨rfl, ?_⟩
          rw [split_cast_plain quoted c front quote, uncast, Option.map_none]
          rintro ⟨unquoted, colon, head⟩
          exact colons ⟨unquoted, colon, by rw [List.head?_append, head]; rfl⟩

theorem number_chars (s : List Char) (number : isNumber s = true) (c : Char) (member : c ∈ s) :
    c = '-' ∨ c = '+' ∨ c = '.' ∨ c.isDigit = true := by
  have digits (unsigned : List Char)
      (whole : (unsigned.takeWhile (· ≠ '.')).all Char.isDigit = true)
      (fraction : ∀ point rest, unsigned.dropWhile (· ≠ '.') = point :: rest →
        rest.all Char.isDigit = true)
      (inside : c ∈ unsigned) : c = '.' ∨ c.isDigit = true := by
    rw [← List.takeWhile_append_dropWhile (p := (· ≠ '.')) (l := unsigned)] at inside
    rcases List.mem_append.mp inside with front | back
    · exact .inr (List.all_eq_true.mp whole c front)
    · have point := List.head?_dropWhile_not (· ≠ '.') unsigned
      cases rest : unsigned.dropWhile (· ≠ '.') with
      | nil =>
          rw [rest] at back
          cases back
      | cons d t =>
          rw [rest] at back point
          rcases List.mem_cons.mp back with rfl | later
          · exact .inl (by simpa using point)
          · exact .inr (List.all_eq_true.mp (fraction d t rest) c later)
  unfold isNumber at number
  simp only [Bool.and_eq_true] at number
  obtain ⟨⟨-, whole⟩, fraction⟩ := number
  have read := digits _ whole fun point rest found => by
    rw [found] at fraction
    exact (Bool.and_eq_true_iff.mp fraction).2
  -- What was read stands behind the sign, if there is one.
  clear whole fraction
  split at read
  · exact (List.mem_cons.mp member).imp_right fun later => .inr (read later)
  · exact .inr ((List.mem_cons.mp member).imp_right read)
  · exact .inr (.inr (read member))

theorem number_char_solid (c : Char) (char : c = '-' ∨ c = '+' ∨ c = '.' ∨ c.isDigit = true) :
    Text.isBlank c = false ∧ c ≠ '(' := by
  obtain rfl | rfl | rfl | digit := char
  · decide
  · decide
  · decide
  · have bounds : 48 ≤ c.toNat ∧ c.toNat ≤ 57 := Char.isDigit_iff_toNat.mp digit
    refine ⟨?_, ?_⟩
    · simp only [Text.isBlank, Bool.or_eq_false_iff, Bool.and_eq_false_iff, decide_eq_false_iff_not,
        beq_eq_false_iff_ne]
      omega
    · rintro rfl
      cases digit

theorem literal_normal (s literal type : List Char) (normal : Normal s)
    (parts : splitCast false s = some (literal, type))
    (kind : isNumber literal = true ∨ isQuoted literal = true) : Normal literal := by
  obtain ⟨rfl, -⟩ := split_cast_first false s literal type parts
  have quotes (quoted : isQuoted literal = true) :
      literal.head? = some '\'' ∧ literal.getLast? = some '\'' := by
    simp only [isQuoted, Bool.and_eq_true, decide_eq_true_eq] at quoted
    exact ⟨quoted.1.2, quoted.2⟩
  have first (c : Char) (head : literal.head? = some c) : c ≠ '(' := by
    cases kind with
    | inl number => exact (number_char_solid c (number_chars _ number c (List.mem_of_head? head))).2
    | inr quoted =>
        rw [(quotes quoted).1] at head
        cases head
        decide
  have last (c : Char) (ends : literal.getLast? = some c) : Text.isBlank c = false := by
    cases kind with
    | inl number => exact (number_char_solid c (number_chars _ number c (List.mem_of_getLast? ends))).1
    | inr quoted =>
        rw [(quotes quoted).2] at ends
        cases ends
        rfl
  have bare : unwrap? literal = none := unwrap_bare literal fun head => first '(' head rfl
  refine ⟨⟨tidy_front _ _ _ _ normal.squeezed.tidy last, last⟩, bare, ?_, ?_⟩
  · rintro rfl
    revert kind
    decide
  · rintro rfl
    revert kind
    decide

theorem strip_cast_normal (s : List Char) (normal : Normal s) :
    Normal (stripLiteralCast s) ∧ stripLiteralCast (stripLiteralCast s) = stripLiteralCast s := by
  cases parts : splitCast false s with
  | none =>
      have same : stripLiteralCast s = s := by rw [stripLiteralCast, parts]
      rw [same]
      exact ⟨normal, same⟩
  | some pair =>
      obtain ⟨literal, type⟩ := pair
      by_cases kind : type.all isTypeChar ∧ (isNumber literal ∨ isQuoted literal)
      · have stripped : stripLiteralCast s = literal := by
          rw [stripLiteralCast, parts]
          exact if_pos kind
        rw [stripped]
        refine ⟨literal_normal s literal type normal parts kind.2, ?_⟩
        rw [stripLiteralCast, (split_cast_first false s literal type parts).2]
      · have same : stripLiteralCast s = s := by
          rw [stripLiteralCast, parts]
          exact if_neg kind
        rw [same]
        exact ⟨normal, same⟩

end SchemaDrift.Default
