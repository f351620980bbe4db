import SchemaDrift.Proofs.Expression.Respelling
import SchemaDrift.Proofs.Expression.Wrapping
/-!
The tokens of an expression: words, numbers, operators, quoted strings, parentheses and other marks.
White space outside of quotes separates tokens and is no part of them.
-/

set_option autoImplicit false

namespace SchemaDrift.Check

open SchemaDrift.Default (quotedAfter outside)

abbrev Token := List Char

/-! ### Reading tokens -/

-- What the character read last is part of. Nothing goes on behind a mark.
inductive Place where
  | apart | word | number | exponent | point | operator | quoted | closed
deriving DecidableEq

def isSign (c : Char) : Bool := c = '+' || c = '-'

def isOperator (c : Char) : Bool := "+-*/<>=~!@#%^&|?:".toList.contains c

def isMark (c : Char) : Bool := "(),;[]".toList.contains c

def start (c : Char) : Place :=
  if c = '\'' then .quoted
  else if c.isDigit then .number
  else if c = '.' then .point
  else if isOperator c then .operator
  else if isMark c then .apart
  else .word

def isWord (c : Char) : Bool := !Text.isBlank c && (start c = .word || start c = .number)

-- Where a token goes on with the character, if it does. A sign starts an operator of its own, and a
-- quote behind the quote that closes a string is a quote in that string.
def next? : Place → Char → Option Place
  | .apart, _ => none
  | .word, c => if isWord c then some .word else none
  | .number, c =>
    if c = 'e' ∨ c = 'E' then some .exponent
    else if isWord c ∨ c = '.' then some .number
    else none
  | .exponent, c => if isWord c ∨ isSign c then some .number else none
  | .point, c => if c.isDigit then some .number else none
  | .operator, c => if isOperator c ∧ !isSign c then some .operator else none
  | .quoted, c => some (if c = '\'' then .closed else .quoted)
  | .closed, c => if c = '\'' then some .quoted else none

-- The rest of the token that is being read, and the tokens after it.
def lex (place : Place) : List Char → Token × List Token
  | [] => ([], [])
  | c :: s =>
    match next? place c with
    | some next => (c :: (lex next s).1, (lex next s).2)
    | none =>
      if Text.isBlank c then ([], (lex .apart s).2)
      else ([], (c :: (lex (start c) s).1) :: (lex (start c) s).2)

def tokens (s : List Char) : List Token := (lex .apart s).2

/-! ### The characters of a token -/

structure Inner (c : Char) : Prop where
  solid : Text.isBlank c = false
  opening : c ≠ '('
  closing : c ≠ ')'

theorem start_quoted (c : Char) : start c = .quoted ↔ c = '\'' := by
  unfold start
  split_ifs <;> simp_all

theorem word_inner (c : Char) (word : isWord c = true) : Inner c ∧ c ≠ '\'' := by
  rw [isWord, Bool.and_eq_true, Bool.not_eq_true'] at word
  refine ⟨⟨word.1, ?_, ?_⟩, ?_⟩ <;> rintro rfl <;> exact absurd word.2 (by decide)

theorem digit_inner (c : Char) (digit : c.isDigit = true) : Inner c ∧ c ≠ '\'' := by
  have solid := Default.number_char_solid c (.inr (.inr (.inr digit)))
  refine ⟨⟨solid.1, solid.2, ?_⟩, ?_⟩ <;> rintro rfl <;> cases digit

theorem operator_inner (c : Char) (operator : isOperator c = true) : Inner c ∧ c ≠ '\'' := by
  have all : ("+-*/<>=~!@#%^&|?:".toList.all fun d =>
      !Text.isBlank d && d ≠ '(' && d ≠ ')' && d ≠ '\'') = true := by decide +kernel
  have plain := List.all_eq_true.mp all c (List.contains_iff_mem.mp operator)
  simp only [Bool.and_eq_true, Bool.not_eq_true', decide_eq_true_eq] at plain
  exact ⟨⟨plain.1.1.1, plain.1.1.2, plain.1.2⟩, plain.2⟩

theorem next_inner (place next : Place) (c : Char) (found : next? place c = some next)
    (unquoted : place ≠ .quoted) : Inner c ∧ (next = .quoted ↔ c = '\'') := by
  have goes (plain : Inner c ∧ c ≠ '\'') (other : next ≠ .quoted) :
      Inner c ∧ (next = .quoted ↔ c = '\'') := ⟨plain.1, iff_of_false other plain.2⟩
  cases place with
  | apart => cases found
  | quoted => exact absurd rfl unquoted
  | closed =>
      obtain ⟨rfl, rfl⟩ : c = '\'' ∧ Place.quoted = next := by simpa [next?] using found
      exact ⟨⟨rfl, by decide, by decide⟩, by decide⟩
  | word =>
      obtain ⟨word, rfl⟩ : isWord c = true ∧ Place.word = next := by simpa [next?] using found
      exact goes (word_inner c word) (by decide)
  | point =>
      obtain ⟨digit, rfl⟩ : c.isDigit = true ∧ Place.number = next := by simpa [next?] using found
      exact goes (digit_inner c digit) (by decide)
  | operator =>
      obtain ⟨⟨operator, -⟩, rfl⟩ :
          (isOperator c = true ∧ isSign c = false) ∧ Place.operator = next := by
        simpa [next?] using found
      exact goes (operator_inner c operator) (by decide)
  | exponent =>
      obtain ⟨word | sign, rfl⟩ : (isWord c = true ∨ isSign c = true) ∧ Place.number = next := by
        simpa [next?] using found
      · exact goes (word_inner c word) (by decide)
      · obtain rfl | rfl : c = '+' ∨ c = '-' := by simpa [isSign] using sign
        · exact goes (operator_inner '+' (by decide)) (by decide)
        · exact goes (operator_inner '-' (by decide)) (by decide)
  | number =>
      dsimp only [next?] at found
      split at found
      case isTrue mark =>
        cases found
        obtain rfl | rfl := mark
        · exact goes (word_inner 'e' (by decide)) (by decide)
        · exact goes (word_inner 'E' (by decide)) (by decide)
      case isFalse =>
        split at found
        case isFalse => cases found
        case isTrue more =>
          cases found
          rcases more with word | rfl
          · exact goes (word_inner c word) (by decide)
          · exact goes ⟨⟨rfl, by decide, by decide⟩, by decide⟩ (by decide)

theorem next_quoted (place next : Place) (c : Char) (found : next? place c = some next) :
    decide (next = .quoted)
      = if c = '\'' then !decide (place = .quoted) else decide (place = .quoted) := by
  by_cases quoted : place = .quoted
  · subst quoted
    cases found
    split <;> rfl
  · have mark : decide (next = .quoted) = decide (c = '\'') :=
      decide_eq_decide.mpr (next_inner place next c found quoted).2
    rw [decide_eq_false quoted, mark]
    by_cases quote : c = '\'' <;> simp [quote]

theorem next_kept (place next : Place) (c : Char) (found : next? place c = some next) :
    decide (next = .quoted) = true ∨ Text.isBlank c = false := by
  by_cases quoted : place = .quoted
  · subst quoted
    by_cases quote : c = '\''
    · subst quote
      exact .inr rfl
    · rw [next_quoted _ _ _ found, if_neg quote]
      exact .inl rfl
  · exact .inr (next_inner place next c found quoted).1.solid

theorem started_quoted (c : Char) :
    decide (start c = .quoted) = if c = '\'' then !false else false := by
  by_cases quote : c = '\''
  · rw [if_pos quote, decide_eq_true ((start_quoted c).mpr quote)]
    rfl
  · rw [if_neg quote, decide_eq_false (mt (start_quoted c).mp quote)]

theorem none_unquoted (place : Place) (c : Char) (none : next? place c = none) :
    place ≠ .quoted := by
  rintro rfl
  cases none

/-! ### Tokens and the text -/

theorem lex_apart (s : List Char) : (lex .apart s).1 = [] := by
  cases s with
  | nil => rfl
  | cons c s =>
      rw [lex]
      dsimp only [next?]
      split <;> rfl

theorem drop_blanks_kept (quoted : Bool) (c : Char) (s : List Char)
    (kept : (if c = '\'' then !quoted else quoted) = true ∨ Text.isBlank c = false) :
    dropBlanks quoted (c :: s) = c :: dropBlanks (if c = '\'' then !quoted else quoted) s := by
  rw [dropBlanks]
  exact if_pos (by simpa using kept)

theorem drop_blanks_blank (c : Char) (s : List Char) (blank : Text.isBlank c = true) :
    dropBlanks false (c :: s) = dropBlanks false s := by
  have quote : c ≠ '\'' := by
    rintro rfl
    cases blank
  simp [dropBlanks, quote, blank]

theorem lex_joined (place : Place) (s : List Char) :
    (lex place s).1 ++ (lex place s).2.flatten = dropBlanks (place = .quoted) s := by
  fun_induction lex place s with
  | case1 => rfl
  | case2 place c s next found ih =>
      have inside := next_quoted place next c found
      rw [drop_blanks_kept _ _ _ (inside ▸ next_kept place next c found), ← inside, ← ih]
      rfl
  | case3 place c s none blank ih =>
      rw [lex_apart] at ih
      rw [decide_eq_false (none_unquoted place c none), drop_blanks_blank c s blank]
      exact ih
  | case4 place c s none solid ih =>
      rw [Bool.not_eq_true] at solid
      rw [decide_eq_false (none_unquoted place c none), drop_blanks_kept _ _ _ (.inr solid),
        ← started_quoted, ← ih]
      rfl

theorem tokens_joined (s : List Char) : (tokens s).flatten = dropBlanks false s := by
  have joined := lex_joined .apart s
  rwa [lex_apart] at joined

example : tokens "a1>=-1.5e-3 AND t.b<>'it''s (x'".toList
    = ["a1", ">=", "-", "1.5e-3", "AND", "t", ".", "b", "<>", "'it''s (x'"].map String.toList := by
  decide +kernel

/-! ### Parentheses among the tokens -/

def isParen (t : Token) : Bool := t = ['('] || t = [')']

def parens (ts : List Token) : List Char := (ts.filter isParen).flatten

theorem balanced_passed (quoted : Bool) (depth : Nat) (c : Char) (s : List Char)
    (passed : quoted = true ∨ c ≠ '(' ∧ c ≠ ')') :
    balancedFrom depth (outside quoted (c :: s))
      = balancedFrom depth (outside (if c = '\'' then !quoted else quoted) s) := by
  rw [outside]
  by_cases quote : c = '\''
  · rw [if_pos quote, if_pos quote]
  · rw [if_neg quote, if_neg quote]
    cases quoted with
    | true => rw [if_pos rfl]
    | false =>
        obtain ⟨opening, closing⟩ := passed.resolve_left Bool.false_ne_true
        rw [if_neg Bool.false_ne_true, balancedFrom.eq_5 _ _ _ opening closing]

theorem parens_paren (c : Char) (ts : List Token) (paren : c = '(' ∨ c = ')') :
    parens ([c] :: ts) = c :: parens ts := by
  obtain rfl | rfl := paren <;> rfl

theorem parens_other (c : Char) (t : Token) (ts : List Token) (opening : c ≠ '(')
    (closing : c ≠ ')') : parens ((c :: t) :: ts) = parens ts := by
  have other : isParen (c :: t) = false := by simp [isParen, opening, closing]
  rw [parens, List.filter_cons_of_neg (by simp [other]), parens]

theorem lex_parens (place : Place) (s : List Char) (depth : Nat) :
    balancedFrom depth (parens (lex place s).2)
      = balancedFrom depth (outside (place = .quoted) s) := by
  fun_induction lex place s generalizing depth with
  | case1 => rfl
  | case2 place c s next found ih =>
      rw [balanced_passed, ← next_quoted place next c found]
      · exact ih depth
      · by_cases quoted : place = .quoted
        · exact .inl (decide_eq_true quoted)
        · have inner := (next_inner place next c found quoted).1
          exact .inr ⟨inner.opening, inner.closing⟩
  | case3 place c s none blank ih =>
      have plain : c ≠ '\'' ∧ c ≠ '(' ∧ c ≠ ')' := by
        refine ⟨?_, ?_, ?_⟩ <;> rintro rfl <;> cases blank
      rw [decide_eq_false (none_unquoted place c none), balanced_passed _ _ _ _ (.inr plain.2),
        if_neg plain.1]
      exact ih depth
  | case4 place c s none solid ih =>
      rw [decide_eq_false (none_unquoted place c none)]
      by_cases opening : c = '('
      · subst opening
        rw [show start '(' = .apart from rfl] at ih ⊢
        rw [lex_apart, parens_paren _ _ (.inl rfl)]
        exact ih (depth + 1)
      · by_cases closing : c = ')'
        · subst closing
          rw [show start ')' = .apart from rfl] at ih ⊢
          rw [lex_apart, parens_paren _ _ (.inr rfl)]
          cases depth with
          | zero => rfl
          | succ depth => exact ih depth
        · rw [parens_other c _ _ opening closing,
            balanced_passed _ _ _ _ (.inr ⟨opening, closing⟩), ← started_quoted]
          exact ih depth

theorem lex_closing (place : Place) (s : List Char)
    (closed : quotedAfter (place = .quoted) s = false) :
    lex place (s ++ [')']) = ((lex place s).1, (lex place s).2 ++ [[')']]) := by
  fun_induction lex place s with
  | case1 place =>
      have unquoted : place ≠ .quoted := of_decide_eq_false closed
      have none : next? place ')' = none := by
        cases found : next? place ')' with
        | none => rfl
        | some next => exact absurd rfl (next_inner place next ')' found unquoted).1.closing
      rw [List.nil_append, lex, none]
      rfl
  | case2 place c s next found ih =>
      rw [quotedAfter, ← next_quoted place next c found] at closed
      rw [List.cons_append, lex, found]
      dsimp only
      rw [ih closed]
  | case3 place c s none blank ih =>
      have quote : c ≠ '\'' := by
        rintro rfl
        cases blank
      rw [quotedAfter, if_neg quote, decide_eq_false (none_unquoted place c none)] at closed
      rw [List.cons_append, lex, none]
      dsimp only
      rw [if_pos blank, ih closed]
  | case4 place c s none solid ih =>
      rw [quotedAfter, decide_eq_false (none_unquoted place c none), ← started_quoted] at closed
      rw [List.cons_append, lex, none]
      dsimp only
      rw [if_neg solid, ih closed]
      rfl

theorem tokens_wrapped (s : List Char) (closed : quotedAfter false s = false) :
    tokens ('(' :: (s ++ [')'])) = ['('] :: (tokens s ++ [[')']]) := by
  have opened : tokens ('(' :: (s ++ [')']))
      = ('(' :: (lex .apart (s ++ [')'])).1) :: (lex .apart (s ++ [')'])).2 := rfl
  rw [opened, lex_closing .apart s closed, lex_apart, tokens]

end SchemaDrift.Check
