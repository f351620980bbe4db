import SchemaDrift.Proofs.Expression.Token
import SchemaDrift.Schema.Constraint
/-!
When two checks count as the same. Their texts are compared without white space and without the
parentheses around the whole, so that tokens can run together; and how far those parentheses are
taken off depends on the parentheses in quotes.
-/

set_option autoImplicit false

namespace SchemaDrift.Check

open SchemaDrift.Default (quotedAfter outside Paired paired_iff marks)

def joined (e : String) : List Char := (tokens e.toList).flatten

def Apart (e : String) : Prop := tokens (joined e) = tokens e.toList

def paired (s : List Char) : Bool := !quotedAfter false s && balanced (outside false s)

-- The text without parentheses around the whole of it. Those in quotes do not count.
def bareText (s : List Char) : List Char := unwrapped '(' ')' paired s

def bareTokens (ts : List Token) : List Token :=
  unwrapped ['('] [')'] (fun ts => balanced (parens ts)) ts

theorem paired_text (s : List Char) : paired s = true ↔ Paired s := by
  rw [paired_iff, paired, Bool.and_eq_true, Bool.not_eq_true']

/-! ### What wrapping keeps -/

theorem balanced_wrapped (s : List Char) (held : balanced s = true) :
    balanced ('(' :: (s ++ [')'])) = true :=
  Default.balanced_closing 0 s held

theorem paired_wrapped (s : List Char) (held : paired s = true) :
    paired ('(' :: (s ++ [')'])) = true := by
  have wrapped := Default.paired_wrapped s [] [] ((paired_text s).mp held) (by simp) (by simp)
  exact (paired_text _).mpr wrapped

theorem parens_wrapped (ts : List Token) :
    parens (['('] :: (ts ++ [[')']])) = '(' :: (parens ts ++ [')']) := by
  rw [parens_paren _ _ (.inl rfl), parens, List.filter_append, List.flatten_append, ← parens]
  rfl

theorem tokens_balanced_wrapped (ts : List Token) (held : balanced (parens ts) = true) :
    balanced (parens (['('] :: (ts ++ [[')']]))) = true := by
  rw [parens_wrapped]
  exact balanced_wrapped _ held

theorem wrap_joined (ts : List Token) (k : Nat) :
    (wrap ['('] [')'] ts k).flatten = wrap '(' ')' ts.flatten k := by
  induction k with
  | zero => rfl
  | succ k ih => simp [wrap, ih]

theorem wrap_tokens (s : List Char) (k : Nat) (held : paired s = true) :
    tokens (wrap '(' ')' s k) = wrap ['('] [')'] (tokens s) k := by
  induction k with
  | zero => rfl
  | succ k ih =>
      have whole := (paired_text _).mp (wrap_pairs '(' ')' paired paired_wrapped s k held)
      rw [wrap, tokens_wrapped _ ((paired_iff _).mp whole).1, ih, wrap]

/-! ### Texts without white space -/

theorem marks_drop_blanks (quoted : Bool) (s : List Char) :
    marks quoted (dropBlanks quoted s) = marks quoted s := by
  induction s generalizing quoted with
  | nil => rfl
  | cons c s ih =>
      by_cases kept : (if c = '\'' then !quoted else quoted) = true ∨ Text.isBlank c = false
      · rw [drop_blanks_kept quoted c s kept, marks, marks]
        by_cases quote : c = '\''
        · rw [if_pos quote, if_pos quote, if_pos quote, ih]
        · rw [if_neg quote, if_neg quote, if_neg quote, ih]
      · have quote : c ≠ '\'' := by
          rintro rfl
          exact kept (.inr rfl)
        rw [if_neg quote, not_or, Bool.not_eq_true, Bool.not_eq_false] at kept
        obtain ⟨rfl, blank⟩ := kept
        rw [drop_blanks_blank c s blank, ih]
        exact (Default.marks_blanks [c] s (List.forall_mem_singleton.mpr blank)).symm

theorem joined_paired (e : String) (held : Paired e.toList) : paired (joined e) = true := by
  rw [paired_text, joined, tokens_joined]
  exact Default.paired_of_marks _ _ (marks_drop_blanks false e.toList).symm held

theorem tokens_paired (e : String) (held : Paired e.toList) :
    balanced (parens (tokens e.toList)) = true := by
  rw [balanced, tokens, lex_parens]
  exact ((paired_iff _).mp held).2

theorem squeeze_joined (e : String) : squeeze e = unwrapped '(' ')' balanced (joined e) := by
  rw [squeeze, strip_parens_unwrapped, joined, tokens_joined]

theorem check_agree (k l : List String) (a b : String) :
    (Constraint.check k a).structurallyEq (Constraint.check l b) = true ↔
      unwrapped '(' ')' balanced (joined a) = unwrapped '(' ')' balanced (joined b) := by
  rw [← squeeze_joined, ← squeeze_joined]
  exact decide_eq_true_iff

/-! ### Agreement -/

section Agreement

variable (a b : String) (left : Paired a.toList) (right : Paired b.toList)
include left right

theorem check_agree_text (k l : List String) :
    (Constraint.check k a).structurallyEq (Constraint.check l b) = true ↔
      bareText (joined a) = bareText (joined b) ∧
        (joined a = joined b ∨ balanced (joined a) = true ∧ balanced (joined b) = true) := by
  rw [check_agree, unwrapped_same_iff '(' ')' balanced balanced_wrapped, bareText, bareText,
    unwrapped_same_iff '(' ')' paired paired_wrapped, joined_paired a left, joined_paired b right]
  constructor
  · rintro (same | ⟨k, ⟨held, wraps⟩ | ⟨held, wraps⟩⟩)
    · exact ⟨.inl same, .inl same⟩
    · have outer := wrap_pairs '(' ')' balanced balanced_wrapped (joined a) k held
      exact ⟨.inr ⟨k, .inl ⟨rfl, wraps⟩⟩, .inr ⟨held, wraps ▸ outer⟩⟩
    · have outer := wrap_pairs '(' ')' balanced balanced_wrapped (joined b) k held
      exact ⟨.inr ⟨k, .inr ⟨rfl, wraps⟩⟩, .inr ⟨wraps ▸ outer, held⟩⟩
  · rintro ⟨same | ⟨k, wraps⟩, whole | ⟨first, second⟩⟩
    · exact .inl same
    · exact .inl same
    · exact .inl whole
    · rcases wraps with ⟨-, wraps⟩ | ⟨-, wraps⟩
      · exact .inr ⟨k, .inl ⟨first, wraps⟩⟩
      · exact .inr ⟨k, .inr ⟨second, wraps⟩⟩

theorem text_of_tokens (same : bareTokens (tokens a.toList) = bareTokens (tokens b.toList)) :
    bareText (joined a) = bareText (joined b) := by
  rw [bareTokens, bareTokens, unwrapped_same_iff _ _ _ tokens_balanced_wrapped] at same
  rw [bareText, bareText, unwrapped_same_iff _ _ _ paired_wrapped]
  rcases same with same | ⟨k, ⟨-, wraps⟩ | ⟨-, wraps⟩⟩
  · exact .inl (congrArg List.flatten same)
  · exact .inr ⟨k, .inl ⟨joined_paired a left, by rw [joined, wraps, wrap_joined, joined]⟩⟩
  · exact .inr ⟨k, .inr ⟨joined_paired b right, by rw [joined, wraps, wrap_joined, joined]⟩⟩

theorem tokens_of_text (apart : Apart a) (other : Apart b)
    (same : bareText (joined a) = bareText (joined b)) :
    bareTokens (tokens a.toList) = bareTokens (tokens b.toList) := by
  rw [bareText, bareText, unwrapped_same_iff _ _ _ paired_wrapped] at same
  rw [bareTokens, bareTokens, unwrapped_same_iff _ _ _ tokens_balanced_wrapped, ← apart, ← other]
  rcases same with same | ⟨k, ⟨held, wraps⟩ | ⟨held, wraps⟩⟩
  · exact .inl (by rw [same])
  · exact .inr ⟨k, .inl ⟨apart ▸ tokens_paired a left, by rw [wraps, wrap_tokens _ _ held]⟩⟩
  · exact .inr ⟨k, .inr ⟨other ▸ tokens_paired b right, by rw [wraps, wrap_tokens _ _ held]⟩⟩

end Agreement

-- Two checks count as the same exactly if they read the same without white space and without the
-- parentheses around the whole, and either read the same with these or keep a balance in which the
-- parentheses in quotes count too. To read the same is to have the same tokens, except where white
-- space keeps tokens apart.
theorem checks_agree_iff (k l : List String) (a b : String) (left : Paired a.toList)
    (right : Paired b.toList) :
    ((Constraint.check k a).structurallyEq (Constraint.check l b) = true ↔
      bareText (joined a) = bareText (joined b) ∧
        (joined a = joined b ∨ balanced (joined a) = true ∧ balanced (joined b) = true)) ∧
    (bareTokens (tokens a.toList) = bareTokens (tokens b.toList) →
      bareText (joined a) = bareText (joined b)) ∧
    (Apart a → Apart b → bareText (joined a) = bareText (joined b) →
      bareTokens (tokens a.toList) = bareTokens (tokens b.toList)) :=
  ⟨check_agree_text a b left right k l, text_of_tokens a b left right,
    tokens_of_text a b left right⟩

theorem ages_agree : Paired "age >= (0)".toList ∧ Paired "((age>= ( 0 )))".toList ∧
    (Constraint.check ["age"] "age >= (0)").structurallyEq
      (Constraint.check [] "((age>= ( 0 )))") = true ∧
    bareTokens (tokens "age >= (0)".toList) = bareTokens (tokens "((age>= ( 0 )))".toList) := by
  have left : Paired "age >= (0)".toList := ⟨by decide +kernel, by decide +kernel⟩
  have right : Paired "((age>= ( 0 )))".toList := ⟨by decide +kernel, by decide +kernel⟩
  have text : bareText (joined "age >= (0)") = bareText (joined "((age>= ( 0 )))") := by
    decide +kernel
  have apart : Apart "age >= (0)" ∧ Apart "((age>= ( 0 )))" := by
    unfold Apart
    decide +kernel
  obtain ⟨agree, -, same⟩ :=
    checks_agree_iff ["age"] [] "age >= (0)" "((age>= ( 0 )))" left right
  exact ⟨left, right, agree.mpr ⟨text, .inr ⟨by decide +kernel, by decide +kernel⟩⟩,
    same apart.1 apart.2 text⟩

-- `not a` and `nota`, which is a column, count as the same check; a parenthesis in quotes keeps the
-- parentheses around the whole in place.
theorem comparison_errs_both_ways :
    (¬∀ a b : String, Paired a.toList → Paired b.toList →
      (Constraint.check [] a).structurallyEq (Constraint.check [] b) = true →
        bareTokens (tokens a.toList) = bareTokens (tokens b.toList)) ∧
    ¬∀ a b : String, Paired a.toList → Paired b.toList →
      bareTokens (tokens a.toList) = bareTokens (tokens b.toList) →
        (Constraint.check [] a).structurallyEq (Constraint.check [] b) = true := by
  constructor
  · intro agree
    have same := agree "not a" "nota" ⟨by decide +kernel, by decide +kernel⟩
      ⟨by decide +kernel, by decide +kernel⟩ (by decide +kernel)
    revert same
    decide +kernel
  · intro agree
    have same := agree "(a = ')')" "a = ')'" ⟨by decide +kernel, by decide +kernel⟩
      ⟨by decide +kernel, by decide +kernel⟩ (by decide +kernel)
    revert same
    decide +kernel

end SchemaDrift.Check
