import Mathlib
import SchemaDrift.Text.Position
/-!
Positions in a text, as byte offsets and as lines with columns. Each way of counting can be turned
into the other and back, at line ends and at the end of the text too, and both grow together.
-/

set_option autoImplicit false

namespace SchemaDrift

def Text.IsBoundary (text : List Char) (offset : Nat) : Prop :=
  ∃ before after, text = before ++ after ∧ offset = byteLength before

def Location.Before (a b : Location) : Prop :=
  a.line < b.line ∨ a.line = b.line ∧ a.column < b.column

namespace Text

/-! ### Counting bytes -/

theorem byte_length_append (s t : List Char) :
    byteLength (s ++ t) = byteLength s + byteLength t := by
  induction s with
  | nil => simp [byteLength]
  | cons c s ih =>
      simp only [byteLength, List.cons_append, List.foldr_cons] at ih ⊢
      omega

theorem take_bytes_before (before after : List Char) :
    takeBytes (byteLength before) (before ++ after) = before := by
  induction before with
  | nil => cases after <;> simp [byteLength, takeBytes]
  | cons c before ih =>
      have size := Char.utf8Size_pos c
      have rest : byteLength (c :: before) - c.utf8Size = byteLength before := by
        simp [byteLength]
      have some : byteLength (c :: before) ≠ 0 := by
        simp only [byteLength, List.foldr_cons]
        omega
      rw [List.cons_append, takeBytes, if_neg some, rest, ih]

/-! ### Counting lines -/

theorem advance_append (location : Location) (s t : List Char) :
    advance location (s ++ t) = advance (advance location s) t := by
  induction s generalizing location with
  | nil => rfl
  | cons c s ih =>
      simp only [List.cons_append, advance]
      split <;> exact ih _

theorem advance_in_line (location : Location) (s : List Char) (single : '\n' ∉ s) :
    advance location s = { location with column := location.column + s.length } := by
  induction s generalizing location with
  | nil => rfl
  | cons c s ih =>
      simp only [List.mem_cons, not_or] at single
      rw [advance, if_neg (Ne.symm single.1), ih _ single.2, List.length_cons]
      simp only [Location.mk.injEq, true_and, and_true]
      omega

theorem advance_over_lines (location : Location) (s : List Char) :
    advance location (s ++ ['\n'])
      = { location with line := location.line + (s.count '\n' + 1), column := 1 } := by
  induction s generalizing location with
  | nil => rfl
  | cons c s ih =>
      rw [List.cons_append, advance]
      by_cases newline : c = '\n'
      · rw [if_pos newline, ih, newline, List.count_cons_self]
        simp only [Location.mk.injEq, and_true]
        omega
      · rw [if_neg newline, ih, List.count_cons_of_ne newline]

theorem drop_over_lines (s rest : List Char) :
    dropLines (s.count '\n' + 1) (s ++ '\n' :: rest) = rest := by
  induction s with
  | nil => cases rest <;> rfl
  | cons c s ih =>
      rw [List.cons_append, dropLines]
      by_cases newline : c = '\n'
      · rw [if_pos newline, newline, List.count_cons_self, ih]
      · rw [if_neg newline, List.count_cons_of_ne newline, ih]

/-! ### There and back -/

theorem last_line (s : List Char) : ∃ lines last, s = lines ++ last ∧ '\n' ∉ last ∧
    (lines = [] ∨ ∃ front, lines = front ++ ['\n']) := by
  induction s using List.reverseRecOn with
  | nil => exact ⟨[], [], rfl, List.not_mem_nil, .inl rfl⟩
  | append_singleton s c ih =>
      by_cases newline : c = '\n'
      · exact ⟨s ++ [c], [], by simp, List.not_mem_nil, .inr ⟨s, by rw [newline]⟩⟩
      · obtain ⟨lines, last, rfl, single, ended⟩ := ih
        exact ⟨lines, last ++ [c], by simp, by simp [single, Ne.symm newline], ended⟩

theorem location_of_before (lines last : List Char) (single : '\n' ∉ last)
    (ended : lines = [] ∨ ∃ front, lines = front ++ ['\n']) :
    advance { line := 1, column := 1 } (lines ++ last)
      = { line := 1 + lines.count '\n', column := 1 + last.length } := by
  rw [advance_append, advance_in_line _ last single]
  rcases ended with rfl | ⟨front, rfl⟩
  · rfl
  · rw [advance_over_lines, List.count_append]
    rfl

theorem drop_lines_before (lines rest : List Char)
    (ended : lines = [] ∨ ∃ front, lines = front ++ ['\n']) :
    dropLines (lines.count '\n') (lines ++ rest) = rest := by
  rcases ended with rfl | ⟨front, rfl⟩
  · cases rest <;> rfl
  · rw [List.count_append, List.append_assoc]
    exact drop_over_lines front rest

theorem offset_of_location (before after : List Char) :
    offsetOf (before ++ after) (advance { line := 1, column := 1 } before).line
      (advance { line := 1, column := 1 } before).column = byteLength before := by
  obtain ⟨lines, last, rfl, single, ended⟩ := last_line before
  have rest : dropLines (1 + lines.count '\n' - 1) (lines ++ (last ++ after)) = last ++ after := by
    rw [Nat.add_sub_cancel_left]
    exact drop_lines_before lines (last ++ after) ended
  rw [location_of_before lines last single ended, offsetOf, List.append_assoc, rest,
    Nat.add_sub_cancel_left, List.take_left, byte_length_append lines (last ++ after),
    Nat.add_sub_cancel_right, byte_length_append]

/-! ### Order -/

theorem advance_one (location : Location) (c : Char) :
    location.Before (advance location [c]) := by
  by_cases newline : c = '\n'
  · simp [Location.Before, advance, newline]
  · simp [Location.Before, advance, newline]

theorem before_trans (a b c : Location) (first : a.Before b) (second : b.Before c) : a.Before c := by
  unfold Location.Before at *
  omega

theorem advance_moves_on (location : Location) (c : Char) (s : List Char) :
    location.Before (advance location (c :: s)) := by
  induction s generalizing location c with
  | nil => exact advance_one location c
  | cons d s ih =>
      have split := advance_append location [c] (d :: s)
      rw [List.singleton_append] at split
      rw [split]
      exact before_trans _ _ _ (advance_one location c) (ih _ d)

theorem shorter_begins_longer (s t u v : List Char) (same : s ++ t = u ++ v)
    (less : byteLength s < byteLength u) : ∃ c more, u = s ++ c :: more := by
  rcases List.append_eq_append_iff.mp same with ⟨more, longer, _⟩ | ⟨more, longer, _⟩
  · cases more with
    | nil =>
        rw [longer, List.append_nil] at less
        exact absurd less (Nat.lt_irrefl _)
    | cons c more => exact ⟨c, more, longer⟩
  · rw [longer, byte_length_append] at less
    omega

end Text

-- Every place in a text has its own line and column, which lead back to it, and a later place has a
-- later line, or a later column of the same line.
theorem positions_convert (text : List Char) :
    (∀ offset, Text.IsBoundary text offset →
      Text.offsetOf text (Text.locationAt text offset).line (Text.locationAt text offset).column
        = offset) ∧
    ∀ i j, Text.IsBoundary text i → Text.IsBoundary text j → i < j →
      (Text.locationAt text i).Before (Text.locationAt text j) := by
  constructor
  · rintro _ ⟨before, after, rfl, rfl⟩
    rw [Text.locationAt, Text.take_bytes_before, Text.offset_of_location]
  · rintro _ _ ⟨before, after, rfl, rfl⟩ ⟨longer, rest, same, rfl⟩ less
    obtain ⟨c, more, rfl⟩ := Text.shorter_begins_longer before after longer rest same less
    have later : Text.locationAt (before ++ after) (Text.byteLength (before ++ c :: more))
        = Text.advance (Text.advance { line := 1, column := 1 } before) (c :: more) := by
      rw [Text.locationAt, same, Text.take_bytes_before, Text.advance_append]
    rw [later, Text.locationAt, Text.take_bytes_before]
    exact Text.advance_moves_on _ c more

-- Two lines of which the second is empty; the end of the text is on it, seven bytes from the start.
theorem empty_last_line_converts :
    Text.IsBoundary "naïve\n".toList 7 ∧ Text.IsBoundary "naïve\n".toList 4 ∧
      Text.locationAt "naïve\n".toList 7 = { line := 2, column := 1 } ∧
      Text.locationAt "naïve\n".toList 4 = { line := 1, column := 4 } ∧
      Text.offsetOf "naïve\n".toList 2 1 = 7 ∧
      (Text.locationAt "naïve\n".toList 4).Before (Text.locationAt "naïve\n".toList 7) := by
  have whole : Text.IsBoundary "naïve\n".toList 7 := ⟨"naïve\n".toList, [], by simp, by decide⟩
  have inner : Text.IsBoundary "naïve\n".toList 4 := ⟨"naï".toList, "ve\n".toList, by decide, by decide⟩
  obtain ⟨back, grows⟩ := positions_convert "naïve\n".toList
  exact ⟨whole, inner, by decide, by decide, back 7 whole, grows 4 7 inner whole (by decide)⟩

end SchemaDrift
