import SchemaDrift.Grammar.Layout
import SchemaDrift.Proofs.Result
/-!
Layout at one place of a text. Two texts are alike up to a space and differ in what follows it, where
only layout is different; what a reader skips in the one it skips in the other.
-/

set_option autoImplicit false

namespace SchemaDrift.Grammar

-- The comment that takes the place of a space, without the space that it starts with.
def comment (body s : List Char) : List Char := '/' :: '*' :: (body ++ '*' :: '/' :: ' ' :: s)

-- Two texts go on with `old` and with `new` after a space. A place in front of the space is given
-- by what is read up to it; what lies behind the space is in both texts.
inductive SamePlace (old new : List Char) : List Char → List Char → Prop
  | before (s : List Char) : SamePlace old new (s ++ ' ' :: old) (s ++ ' ' :: new)
  | after (s : List Char) (short : s.length ≤ old.length) : SamePlace old new s s

def opensBlock : List Char → Bool
  | '/' :: '*' :: _ => true
  | _ => false

-- The layout skipped from here has no comment that the space in front of the last `after`
-- characters is part of.
def sparesLayout (after : Nat) (s : List Char) : Bool :=
  decide ((skipSpaces s).length ≤ after) ||
    match _h : afterComment (skipSpaces s) with
    | some rest => decide (after < rest.length) && sparesLayout after rest
    | none => !opensBlock (skipSpaces s)
termination_by s.length
decreasing_by exact Nat.lt_of_lt_of_le (afterComment_length _h) (skipSpaces_length s)

/-! ### Comments -/

theorem after_block_closed (body s : List Char) (closed : ¬['*', '/'] <:+: body) :
    afterBlock (body ++ '*' :: '/' :: s) = some s := by
  induction body with
  | nil => rfl
  | cons c body ih =>
      have early : ∀ rest, c = '*' → body ++ '*' :: '/' :: s = '/' :: rest → False := by
        intro rest star slash
        cases body with
        | nil => simp at slash
        | cons d body =>
            obtain ⟨rfl, _⟩ := List.cons.inj slash
            exact closed ⟨[], body, by simp [star]⟩
      rw [List.cons_append, afterBlock.eq_3 _ _ early]
      exact ih fun inner => closed (inner.trans (List.infix_cons_iff.mpr (.inr List.infix_rfl)))

theorem after_block_before (s old rest : List Char)
    (found : afterBlock (s ++ ' ' :: old) = some rest) (before : old.length < rest.length) :
    ∃ r, rest = r ++ ' ' :: old ∧ ∀ new, afterBlock (s ++ ' ' :: new) = some (r ++ ' ' :: new) := by
  induction s with
  | nil =>
      have shorter : rest.length < old.length :=
        afterBlock_length (s := old) (by simpa [afterBlock] using found)
      omega
  | cons c s ih =>
      by_cases closes : c = '*' ∧ ∃ r, s = '/' :: r
      · obtain ⟨rfl, r, rfl⟩ := closes
        have same : r ++ ' ' :: old = rest := by simpa [afterBlock] using found
        exact ⟨r, same.symm, fun new => rfl⟩
      · have open_ (new : List Char) :
            afterBlock (c :: (s ++ ' ' :: new)) = afterBlock (s ++ ' ' :: new) := by
          refine afterBlock.eq_3 _ _ fun rest star slash => closes ⟨star, ?_⟩
          cases s with
          | nil => simp at slash
          | cons d r => exact ⟨r, by rw [(List.cons.inj slash).1]⟩
        obtain ⟨r, same, others⟩ := ih ((open_ old).symm.trans found)
        exact ⟨r, same, fun new => (open_ new).trans (others new)⟩

theorem drop_while_before (p : Char → Bool) (inside : p ' ' = true) (s old : List Char)
    (before : old.length < ((s ++ ' ' :: old).dropWhile p).length) :
    ∃ r, ∀ new, (s ++ ' ' :: new).dropWhile p = r ++ ' ' :: new := by
  refine ⟨s.dropWhile p, fun new => ?_⟩
  rw [List.dropWhile_append] at before ⊢
  split
  · rename_i empty
    rw [if_pos empty, List.dropWhile_cons_of_pos inside] at before
    have shorter := (List.dropWhile_sublist p (l := old)).length_le
    omega
  · rfl

theorem after_comment_before (s old rest : List Char)
    (found : afterComment (s ++ ' ' :: old) = some rest) (before : old.length < rest.length) :
    ∃ r, rest = r ++ ' ' :: old ∧
      ∀ new, afterComment (s ++ ' ' :: new) = some (r ++ ' ' :: new) := by
  rcases s with _ | ⟨c, _ | ⟨d, s⟩⟩
  · simp [afterComment] at found
  · simp [afterComment] at found
  · by_cases line : c = '-' ∧ d = '-'
    · obtain ⟨rfl, rfl⟩ := line
      have same := Option.some.inj found
      rw [← same] at before
      obtain ⟨r, others⟩ := drop_while_before _ (by decide) s old before
      exact ⟨r, same.symm.trans (others old), fun new => congrArg some (others new)⟩
    · by_cases block : c = '/' ∧ d = '*'
      · obtain ⟨rfl, rfl⟩ := block
        exact after_block_before s old rest found before
      · have bare : afterComment (c :: d :: (s ++ ' ' :: old)) = none := by
          unfold afterComment
          split <;> simp_all
        rw [List.cons_append, List.cons_append, bare] at found
        cases found

theorem no_comment_before (s old : List Char) (visible : s ≠ [])
    (bare : afterComment (s ++ ' ' :: old) = none) (shut : opensBlock (s ++ ' ' :: old) = false)
    (new : List Char) : afterComment (s ++ ' ' :: new) = none := by
  rcases s with _ | ⟨c, _ | ⟨d, s⟩⟩
  · exact absurd rfl visible
  · simp [afterComment]
  · unfold afterComment at bare ⊢
    split at bare <;> simp_all [opensBlock]

theorem after_comment_front (s t : List Char) (passed : afterComment s = some t) :
    ∃ c front, s = c :: (front ++ t) ∧ (c = '-' ∨ c = '/') := by
  have block (s t : List Char) (closed : afterBlock s = some t) : ∃ front, s = front ++ t := by
    fun_induction afterBlock s with
    | case1 => cases closed
    | case2 s =>
        cases closed
        exact ⟨['*', '/'], rfl⟩
    | case3 c s _ ih =>
        obtain ⟨front, rfl⟩ := ih closed
        exact ⟨c :: front, rfl⟩
  unfold afterComment at passed
  split at passed
  case h_1 s =>
    cases passed
    have line := List.takeWhile_append_dropWhile (p := fun c => c ≠ '\n' && c ≠ '\r') (l := s)
    exact ⟨'-', '-' :: _, congrArg (fun rest => '-' :: '-' :: rest) line.symm, .inl rfl⟩
  case h_2 s =>
    obtain ⟨front, rfl⟩ := block s t passed
    exact ⟨'/', '*' :: front, rfl, .inr rfl⟩
  case h_3 => cases passed

/-! ### Layout -/

theorem skip_spaces_before (s : List Char) :
    (∀ rest, skipSpaces (s ++ ' ' :: rest) = skipSpaces rest) ∨
      ∃ r, r ≠ [] ∧ r.length ≤ s.length ∧ ∀ rest, skipSpaces (s ++ ' ' :: rest) = r ++ ' ' :: rest := by
  cases visible : s.dropWhile isSpace with
  | nil =>
      left
      intro rest
      rw [skipSpaces, List.dropWhile_append, visible]
      rfl
  | cons c r =>
      right
      refine ⟨c :: r, by simp, visible ▸ (List.dropWhile_sublist isSpace).length_le, fun rest => ?_⟩
      rw [skipSpaces, List.dropWhile_append, visible]
      rfl

theorem skip_layout_spaces (s r : List Char) (same : skipSpaces s = skipSpaces r) :
    skipLayout s = skipLayout r := by
  rw [skipLayout, skipLayout, same]

theorem skip_layout_none (s : List Char) (bare : afterComment (skipSpaces s) = none) :
    skipLayout s = skipSpaces s := by
  rw [skipLayout]
  split <;> simp_all

theorem skip_layout_some (s rest : List Char) (found : afterComment (skipSpaces s) = some rest) :
    skipLayout s = skipLayout rest := by
  rw [skipLayout]
  split <;> simp_all

theorem skip_layout_length (s : List Char) : (skipLayout s).length ≤ s.length := by
  fun_induction skipLayout s with
  | case1 s rest found ih =>
      have shorter := afterComment_length found
      have spaces := skipSpaces_length s
      omega
  | case2 s bare => exact skipSpaces_length s

theorem skip_layout_suffix (s : List Char) : skipLayout s <:+ s := by
  fun_induction skipLayout s with
  | case1 s rest found ih =>
      obtain ⟨c, front, same, -⟩ := after_comment_front _ rest found
      have spaces : skipSpaces s <:+ s := List.dropWhile_suffix isSpace
      exact (ih.trans ⟨c :: front, same.symm⟩).trans spaces
  | case2 s bare => exact List.dropWhile_suffix isSpace

theorem skip_nothing : skipLayout [] = [] := List.suffix_nil.mp (skip_layout_suffix [])

theorem skip_comment (body s : List Char) (closed : ¬['*', '/'] <:+: body) :
    skipLayout (comment body s) = skipLayout s := by
  have found : afterComment (skipSpaces (comment body s)) = some (' ' :: s) :=
    after_block_closed body (' ' :: s) closed
  rw [skip_layout_some _ _ found]
  exact skip_layout_spaces _ _ rfl

theorem skip_layout_before (old new : List Char) (same : skipLayout new = skipLayout old)
    (s : List Char) (spared : sparesLayout old.length (s ++ ' ' :: old) = true) :
    SamePlace old new (skipLayout (s ++ ' ' :: old)) (skipLayout (s ++ ' ' :: new)) := by
  induction size : s.length using Nat.strong_induction_on generalizing s with
  | _ n ih =>
    rcases skip_spaces_before s with gone | ⟨r, visible, short, kept⟩
    · rw [skip_layout_spaces _ _ (gone old), skip_layout_spaces _ _ (gone new), same]
      exact .after _ (skip_layout_length old)
    · rw [sparesLayout, kept, Bool.or_eq_true] at spared
      have ahead : ¬(r ++ ' ' :: old).length ≤ old.length := by
        simp only [List.length_append, List.length_cons]
        omega
      have spared := spared.resolve_left (by simpa using ahead)
      split at spared
      · rename_i rest found
        obtain ⟨before, spared⟩ := Bool.and_eq_true_iff.mp spared
        obtain ⟨x, rfl, others⟩ := after_comment_before r old rest found (by simpa using before)
        rw [skip_layout_some (s ++ ' ' :: old) _ ((kept old).symm ▸ found),
          skip_layout_some (s ++ ' ' :: new) _ ((kept new).symm ▸ others new)]
        have shorter := afterComment_length found
        simp only [List.length_append, List.length_cons] at shorter
        exact ih x.length (by omega) x spared rfl
      · rename_i bare
        have absent := no_comment_before r old visible bare (by simpa using spared)
        rw [skip_layout_none (s ++ ' ' :: old) ((kept old).symm ▸ bare), kept,
          skip_layout_none (s ++ ' ' :: new) ((kept new).symm ▸ absent new), kept]
        exact .before r

end SchemaDrift.Grammar
