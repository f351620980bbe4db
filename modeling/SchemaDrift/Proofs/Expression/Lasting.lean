import SchemaDrift.Dialect.Canonical
import SchemaDrift.Proofs.Expression.Default
/-!
What normalizing a default keeps. A property of texts that collapsing keeps, and cutting off what
normalizing cuts off at the two ends, is a property of the normal form.
-/

set_option autoImplicit false

namespace SchemaDrift.Default

/-! ### What is written for one character -/

def gap (pending : Bool) (last : Option Char) (c : Char) : List Char :=
  if pending && last.any (· ≠ '(') && c ≠ ')' && c ≠ ',' then [' '] else []

theorem gap_space (pending : Bool) (last : Option Char) (c d : Char) (member : d ∈ gap pending last c) :
    d = ' ' := by
  unfold gap at member
  split at member
  · exact List.mem_singleton.mp member
  · cases member

theorem gap_unquoted (pending : Bool) (last : Option Char) (c : Char) : '\'' ∉ gap pending last c :=
  fun quote => by cases gap_space pending last c _ quote

theorem collapse_blank (pending : Bool) (last : Option Char) (c : Char) (s : List Char)
    (blank : Text.isBlank c = true) :
    collapse false pending last (c :: s) = collapse false true last s := by
  rw [collapse, if_neg Bool.false_ne_true, if_pos blank]

theorem collapse_solid (pending : Bool) (last : Option Char) (c : Char) (s : List Char)
    (solid : Text.isBlank c = false) :
    collapse false pending last (c :: s) = gap pending last c ++ (Text.lowerChar c
      ++ collapse (c = '\'') false ((Text.lowerChar c).getLast?.or last) s) := by
  rw [collapse, if_neg Bool.false_ne_true, solid, if_neg Bool.false_ne_true]
  exact List.append_assoc ..

theorem lower_unquoted (c : Char) (other : c ≠ '\'') : '\'' ∉ Text.lowerChar c :=
  fun member => other (Text.lower_char_mark c '\'' member (by decide)).symm

/-! ### Properties of the normal form -/

theorem lead_unquoted (front : List Char) (lead : ∀ c ∈ front, c = '(' ∨ Text.isBlank c = true) :
    '\'' ∉ front := by
  intro quote
  rcases lead _ quote with paren | blank
  · cases paren
  · cases blank

theorem blanks_unquoted (run : List Char) (blank : ∀ c ∈ run, Text.isBlank c = true) :
    '\'' ∉ run :=
  lead_unquoted run fun c member => .inr (blank c member)

theorem type_unquoted (type : List Char) (typed : type.all isTypeChar = true) :
    '\'' ∉ ':' :: ':' :: type := by
  intro quote
  simp only [List.mem_cons] at quote
  rcases quote with colon | colon | inside
  · cases colon
  · cases colon
  · cases List.all_eq_true.mp typed _ inside

-- A property of texts that collapsing keeps, and the loss of opening parentheses and white space in
-- front, and of an end without quotes.
structure Lasting (P : List Char → Prop) : Prop where
  opened : ∀ front s, (∀ c ∈ front, c = '(' ∨ Text.isBlank c = true) → P (front ++ s) → P s
  ended : ∀ s back, '\'' ∉ back → P (s ++ back) → P s
  collapsed : ∀ s, P s → P (collapse false false none s)

section Lasting

variable (P : List Char → Prop) (lasting : Lasting P)
include lasting

theorem trim_keeps (s : List Char) (held : P s) : P (Text.trim s) := by
  obtain ⟨front, back, parts, first, last⟩ := trim_parts s
  rw [parts] at held
  exact lasting.ended _ back (blanks_unquoted back last)
    (lasting.opened front _ (fun c member => .inr (first c member)) held)

theorem strip_wrapped_keeps (s : List Char) (held : P s) : P (stripWrapped s) := by
  fun_induction stripWrapped s with
  | case2 => exact held
  | case1 s inside unwrapped ih =>
      obtain ⟨m, rfl, rfl, -⟩ := unwrap_parts s inside unwrapped
      have inner : P (m ++ [')']) := lasting.opened ['('] _ (by simp) held
      exact ih (trim_keeps P lasting m (lasting.ended m [')'] (by decide) inner))

theorem normalize_keeps (e n : List Char) (held : P e) (normal : normalize e = some n) : P n := by
  have trimmed := trim_keeps P lasting
  unfold normalize at normal
  dsimp only at normal
  split at normal
  · cases normal
  · cases normal
    exact strip_wrapped_keeps P lasting _ (trimmed _ (lasting.collapsed _ (trimmed e held)))

theorem strip_cast_keeps (s : List Char) (held : P s) : P (stripLiteralCast s) := by
  unfold stripLiteralCast
  split
  case h_2 => exact held
  case h_1 literal type parts =>
    split
    case isFalse => exact held
    case isTrue cast =>
      rw [(split_cast_first false s literal type parts).1] at held
      exact lasting.ended literal _ (type_unquoted type cast.1) held

theorem default_keeps (dialect : Dialect) (e : List Char) (n : String) (held : P e)
    (normal : dialect.normalizeDefault e = some n) : P n.toList := by
  have kept := normalize_keeps P lasting e
  cases dialect with
  | postgres =>
      obtain ⟨s, normalized, rfl⟩ := Option.map_eq_some_iff.mp normal
      rw [String.toList_ofList]
      exact strip_cast_keeps P lasting s (kept s held normalized)
  | mysql | spanner =>
      obtain ⟨s, normalized, rfl⟩ := Option.map_eq_some_iff.mp normal
      rw [String.toList_ofList]
      exact kept s held normalized

end Lasting

end SchemaDrift.Default
