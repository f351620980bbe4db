import SchemaDrift.Proofs.Grammar.Evaluation
import SchemaDrift.Proofs.Grammar.Reading
/-!
Words, numbers and keywords in front of a text that does not go on with them: each is read as a
whole, and a keyword is read from no other word.
-/

set_option autoImplicit false

namespace SchemaDrift.Grammar

def CharSet.Ends (set : CharSet) (s : List Char) : Prop :=
  ∀ c, s.head? = some c → set.has c = false

theorem ends_cons (set : CharSet) (c : Char) (s : List Char) (outside : set.has c = false) :
    set.Ends (c :: s) := by
  intro d head
  cases head
  exact outside

theorem ends_mono (small large : CharSet)
    (within : ∀ c, small.has c = true → large.has c = true) (s : List Char)
    (ends : large.Ends s) : small.Ends s := by
  intro c head
  exact Bool.eq_false_iff.mpr fun inside => Bool.eq_false_iff.mp (ends c head) (within c inside)

/-! ### Characters of identifiers -/

theorem start_in_identifier (c : Char) (start : CharSet.identifierStart.has c = true) :
    CharSet.identifier.has c = true := by
  simp only [CharSet.has, Char.isAlphanum, Bool.or_eq_true] at start ⊢
  tauto

theorem digit_in_identifier (c : Char) (digit : CharSet.digit.has c = true) :
    CharSet.identifier.has c = true := by
  simp only [CharSet.has, Char.isAlphanum, Bool.or_eq_true] at digit ⊢
  tauto

theorem blank_not_in_identifier (c : Char) (inside : CharSet.identifier.has c = true) :
    CharSet.blank.has c = false := by
  refine Bool.eq_false_iff.mpr fun blank => ?_
  simp only [CharSet.has, isSpace, Bool.or_eq_true, decide_eq_true_eq] at blank
  rcases blank with ((rfl | rfl) | rfl) | rfl <;> revert inside <;> decide

theorem lower_in_identifier (c : Char) (inside : CharSet.identifier.has c.toLower = true) :
    CharSet.identifier.has c = true := by
  by_cases upper : c.isUpper = true
  · simp [CharSet.has, Char.isAlphanum, Char.isAlpha, upper]
  · rw [Char.toLower_eq_of_not_isUpper (by simpa using upper)] at inside
    exact inside

/-! ### Runs of characters -/

section Reading

variable {layout : Layout}

theorem span_read (set : CharSet) (front rest : List Char)
    (inside : ∀ c ∈ front, set.has c = true) (ends : set.Ends rest) :
    Gives .token (.many (.one set)) (front ++ rest) (.matched rest []) := by
  induction front with
  | nil => exact gives_none (gives_no_one set ends)
  | cons c front ih =>
      have others := ih fun d member => inside d (List.mem_cons_of_mem _ member)
      exact gives_many (gives_one set c (inside c List.mem_cons_self)) [] (gives_more rfl others)

theorem number_read (c : Char) (digits rest : List Char)
    (all : ∀ d ∈ c :: digits, d.isDigit = true) (ends : CharSet.digit.Ends rest) :
    Gives layout (.rule .number) (c :: digits ++ rest)
      (.matched rest (layout.keep (.node .number (c :: digits ++ rest) rest []))) := by
  obtain ⟨first, others⟩ := List.forall_mem_cons.mp all
  exact gives_rule .number (gives_seq [] (gives_one .digit c first) (span_read _ _ _ others ends))

theorem bare_identifier_read (c : Char) (word rest : List Char)
    (start : CharSet.identifierStart.has c = true)
    (inside : ∀ d ∈ word, CharSet.identifier.has d = true) (ends : CharSet.identifier.Ends rest) :
    Gives layout (.rule .bareIdentifier) (c :: word ++ rest)
      (.matched rest (layout.keep (.node .bareIdentifier (c :: word ++ rest) rest []))) :=
  gives_rule .bareIdentifier
    (gives_seq [] (gives_one .identifierStart c start) (span_read _ _ _ inside ends))

/-! ### Keywords -/

theorem drop_own_word (word rest : List Char) :
    dropWord? (word.map Char.toLower) (word ++ rest) = some rest := by
  induction word with
  | nil => rfl
  | cons c word ih =>
      rw [List.map_cons, List.cons_append, dropWord?, if_pos rfl]
      exact ih

theorem drop_word_within (lower name rest left : List Char)
    (plain : ∀ c ∈ lower, CharSet.identifier.has c = true) (ends : CharSet.identifier.Ends rest)
    (dropped : dropWord? lower (name ++ rest) = some left) :
    ∃ front back, name = front ++ back ∧ left = back ++ rest ∧ front.map Char.toLower = lower := by
  induction lower generalizing name with
  | nil =>
      cases dropped
      exact ⟨[], name, rfl, rfl, rfl⟩
  | cons a lower ih =>
      obtain ⟨first, others⟩ := List.forall_mem_cons.mp plain
      cases name with
      | nil =>
          cases rest with
          | nil => cases dropped
          | cons c rest =>
              rw [List.nil_append, dropWord?] at dropped
              split at dropped
              case isFalse => cases dropped
              case isTrue same =>
                subst same
                exact absurd (lower_in_identifier c first) (Bool.eq_false_iff.mp (ends c rfl))
      | cons c name =>
          rw [List.cons_append, dropWord?] at dropped
          split at dropped
          case isFalse => cases dropped
          case isTrue same =>
            subst same
            obtain ⟨front, back, rfl, rest_left, rfl⟩ := ih name others dropped
            exact ⟨c :: front, back, rfl, rest_left, rfl⟩

theorem whole_word_read (lower : String) (word rest : List Char)
    (same : word.map Char.toLower = lower.toList) (ends : CharSet.identifier.Ends rest) :
    Gives .token (.wholeWord lower) (word ++ rest) (.matched rest []) := by
  have found : Gives .token _ _ _ := gives_word _ (drop_own_word word rest)
  rw [same] at found
  exact gives_seq [] found (gives_not (gives_no_one .identifier ends))

theorem whole_word_refused (lower : String) (name rest : List Char)
    (plain : ∀ c ∈ lower.toList, CharSet.identifier.has c = true)
    (inside : ∀ c ∈ name, CharSet.identifier.has c = true) (ends : CharSet.identifier.Ends rest)
    (other : name.map Char.toLower ≠ lower.toList) :
    Gives .token (.wholeWord lower) (name ++ rest) .failed := by
  cases dropped : dropWord? lower.toList (name ++ rest) with
  | none => exact gives_seq_failed (gives_no_word _ dropped)
  | some left =>
      obtain ⟨front, back, rfl, rfl, same⟩ := drop_word_within _ _ _ _ plain ends dropped
      have goes_on : Gives .token (.notAt (.one .identifier)) (back ++ rest) .failed := by
        cases back with
        | nil => exact absurd (by simpa using same) other
        | cons c back => exact gives_no_not (gives_one .identifier c (inside c (by simp)))
      exact gives_seq_stuck (gives_word _ dropped) goes_on

theorem keyword_plain (k : Keyword) : ∀ c ∈ k.text.toList, CharSet.identifier.has c = true := by
  have all : k.text.toList.all CharSet.identifier.has = true := by cases k <;> rfl
  exact List.all_eq_true.mp all

theorem keyword_read (k : Keyword) (word rest : List Char)
    (same : word.map Char.toLower = k.text.toList) (ends : CharSet.identifier.Ends rest) :
    Gives layout (.kw k) (word ++ rest)
      (.matched rest (layout.keep (.node (.keyword k) (word ++ rest) rest []))) :=
  gives_rule (.keyword k) (whole_word_read k.text word rest same ends)

theorem keyword_refused (k : Keyword) (name rest : List Char)
    (inside : ∀ c ∈ name, CharSet.identifier.has c = true) (ends : CharSet.identifier.Ends rest)
    (other : name.map Char.toLower ≠ k.text.toList) :
    Gives layout (.kw k) (name ++ rest) .failed :=
  gives_no_rule (.keyword k)
    (whole_word_refused k.text name rest (keyword_plain k) inside ends other)

/-! ### Layout -/

theorem skip_solid (s : List Char) (ink : CharSet.blank.Ends s) (dash : s.head? ≠ some '-')
    (slash : s.head? ≠ some '/') : skipLayout s = s := by
  have spaces : skipSpaces s = s := by
    cases s with
    | nil => rfl
    | cons c s => exact List.dropWhile_cons_of_neg (Bool.eq_false_iff.mp (ink c rfl))
  have bare : afterComment s = none := by
    unfold afterComment
    split
    · exact absurd rfl dash
    · exact absurd rfl slash
    · rfl
  rw [skip_layout_none s (spaces.symm ▸ bare), spaces]

end Reading

end SchemaDrift.Grammar
