import SchemaDrift.Expression.Check
/-!
Taking off what is wrapped around the whole of a list, a pair at a time, as long as what is left
still pairs up. Two lists come to the same if and only if one of them is the other with more pairs
around it.
-/

set_option autoImplicit false

namespace SchemaDrift.Check

section Wrapping

variable {α : Type} (l r : α)

def wrap (s : List α) : Nat → List α
  | 0 => s
  | k + 1 => l :: (wrap s k ++ [r])

theorem wrap_add (s : List α) (i k : Nat) : wrap l r (wrap l r s i) k = wrap l r s (i + k) := by
  induction k with
  | zero => rfl
  | succ k ih => rw [wrap, ih, ← Nat.add_assoc, wrap]

variable (pairs : List α → Bool)

theorem wrap_pairs (closed : ∀ m, pairs m = true → pairs (l :: (m ++ [r])) = true) (s : List α)
    (k : Nat) (paired : pairs s = true) : pairs (wrap l r s k) = true := by
  induction k with
  | zero => exact paired
  | succ k ih => exact closed _ ih

variable [DecidableEq α]

def inside? : List α → Option (List α)
  | [] => none
  | c :: s =>
    if c = l ∧ s.getLast? = some r ∧ pairs s.dropLast then some s.dropLast else none

theorem inside_parts (s m : List α) (found : inside? l r pairs s = some m) :
    s = l :: (m ++ [r]) ∧ pairs m = true := by
  unfold inside? at found
  split at found
  case h_1 => cases found
  case h_2 c s =>
    split at found
    case isFalse => cases found
    case isTrue wrapped =>
      obtain ⟨rfl, last, paired⟩ := wrapped
      obtain ⟨m, rfl⟩ := List.getLast?_eq_some_iff.mp last
      rw [List.dropLast_concat] at found paired
      cases found
      exact ⟨rfl, paired⟩

theorem inside_wrapped (m : List α) (paired : pairs m = true) :
    inside? l r pairs (l :: (m ++ [r])) = some m := by
  rw [inside?, if_pos ⟨rfl, List.getLast?_concat, by rwa [List.dropLast_concat]⟩,
    List.dropLast_concat]

theorem inside_length (s m : List α) (found : inside? l r pairs s = some m) :
    m.length < s.length := by
  rw [(inside_parts l r pairs s m found).1]
  simp only [List.length_cons, List.length_append]
  omega

def unwrapped (s : List α) : List α :=
  match _h : inside? l r pairs s with
  | some m => unwrapped m
  | none => s
termination_by s.length
decreasing_by exact inside_length l r pairs s m _h

theorem unwrapped_wrapped (m : List α) (paired : pairs m = true) :
    unwrapped l r pairs (l :: (m ++ [r])) = unwrapped l r pairs m := by
  rw [unwrapped]
  split
  case h_1 n found =>
    rw [inside_wrapped l r pairs m paired] at found
    rw [Option.some.inj found]
  case h_2 found =>
    rw [inside_wrapped l r pairs m paired] at found
    cases found

theorem unwrapped_parts (s : List α) : ∃ k, s = wrap l r (unwrapped l r pairs s) k ∧
    (k = 0 ∨ pairs (unwrapped l r pairs s) = true) := by
  fun_induction unwrapped l r pairs s with
  | case2 s => exact ⟨0, rfl, .inl rfl⟩
  | case1 s m found ih =>
      obtain ⟨rfl, paired⟩ := inside_parts l r pairs s m found
      obtain ⟨k, parts, inner⟩ := ih
      refine ⟨k + 1, by rw [wrap, ← parts], .inr ?_⟩
      rcases inner with rfl | inner
      · rw [wrap] at parts
        exact parts ▸ paired
      · exact inner

variable (closed : ∀ m, pairs m = true → pairs (l :: (m ++ [r])) = true)
include closed

theorem unwrapped_wrap (s : List α) (k : Nat) (paired : pairs s = true) :
    unwrapped l r pairs (wrap l r s k) = unwrapped l r pairs s := by
  induction k with
  | zero => rfl
  | succ k ih =>
      rw [wrap, unwrapped_wrapped l r pairs _ (wrap_pairs l r pairs closed s k paired), ih]

theorem unwrapped_same_iff (s t : List α) : unwrapped l r pairs s = unwrapped l r pairs t ↔
    s = t ∨ ∃ k, pairs s = true ∧ t = wrap l r s k ∨ pairs t = true ∧ s = wrap l r t k := by
  constructor
  · intro same
    obtain ⟨i, first, outer⟩ := unwrapped_parts l r pairs s
    obtain ⟨j, second, other⟩ := unwrapped_parts l r pairs t
    rw [← same] at second other
    generalize unwrapped l r pairs s = core at first second outer other
    have wraps (i j : Nat) (less : i < j) (outer : j = 0 ∨ pairs core = true) :
        pairs (wrap l r core i) = true ∧ wrap l r core j = wrap l r (wrap l r core i) (j - i) := by
      have paired := outer.resolve_left (by omega)
      exact ⟨wrap_pairs l r pairs closed core i paired,
        by rw [wrap_add, Nat.add_sub_cancel' (Nat.le_of_lt less)]⟩
    rcases Nat.lt_trichotomy i j with less | rfl | more
    · exact .inr ⟨j - i, .inl (first ▸ second ▸ wraps i j less other)⟩
    · exact .inl (first.trans second.symm)
    · exact .inr ⟨i - j, .inr (first ▸ second ▸ wraps j i more outer)⟩
  · rintro (rfl | ⟨k, ⟨paired, rfl⟩ | ⟨paired, rfl⟩⟩)
    · rfl
    · exact (unwrapped_wrap l r pairs closed s k paired).symm
    · exact unwrapped_wrap l r pairs closed t k paired

end Wrapping

/-! ### Parentheses -/

theorem unwrap_inside (s : List Char) : unwrap? s = inside? '(' ')' balanced s := by
  cases s with
  | nil => rfl
  | cons c s =>
      by_cases opening : c = '('
      · subst opening
        simp [unwrap?, inside?]
      · rw [unwrap?.eq_2 _ fun t same => opening (List.cons.inj same).1, inside?,
          if_neg fun wrapped => opening wrapped.1]

theorem strip_parens_unwrapped (s : List Char) : stripParens s = unwrapped '(' ')' balanced s := by
  fun_induction stripParens s with
  | case1 s inner found ih =>
      rw [unwrap_inside] at found
      obtain ⟨rfl, paired⟩ := inside_parts '(' ')' balanced s inner found
      rw [ih, unwrapped_wrapped '(' ')' balanced inner paired]
  | case2 s bare =>
      rw [unwrap_inside] at bare
      rw [unwrapped]
      split
      case h_1 found =>
        rw [bare] at found
        cases found
      case h_2 => rfl

end SchemaDrift.Check
