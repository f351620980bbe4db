/-!
White space and comments between the parts of a rule.
-/

set_option autoImplicit false

namespace SchemaDrift.Grammar

def isSpace (c : Char) : Bool := c = ' ' || c = '\t' || c = '\r' || c = '\n'

def afterBlock : List Char → Option (List Char)
  | [] => none
  | '*' :: '/' :: s => some s
  | _ :: s => afterBlock s

def afterComment : List Char → Option (List Char)
  | '-' :: '-' :: s => some (s.dropWhile fun c => c ≠ '\n' && c ≠ '\r')
  | '/' :: '*' :: s => afterBlock s
  | _ => none

theorem afterBlock_length {s rest : List Char} (h : afterBlock s = some rest) :
    rest.length < s.length := by
  fun_induction afterBlock s with
  | case1 => cases h
  | case2 s => cases h; simp only [List.length_cons]; omega
  | case3 _ s _ ih => exact Nat.lt_succ_of_lt (ih h)

theorem afterComment_length {s rest : List Char} (h : afterComment s = some rest) :
    rest.length < s.length := by
  unfold afterComment at h
  split at h
  · cases h
    have := (List.dropWhile_sublist (fun c => c ≠ '\n' && c ≠ '\r') (l := ‹List Char›)).length_le
    simp only [List.length_cons]
    omega
  · have := afterBlock_length h
    simp only [List.length_cons]
    omega
  · cases h

def skipSpaces (s : List Char) : List Char := s.dropWhile isSpace

theorem skipSpaces_length (s : List Char) : (skipSpaces s).length ≤ s.length :=
  (List.dropWhile_sublist isSpace).length_le

-- Drops white space and comments. A comment that is not closed stays.
def skipLayout (s : List Char) : List Char :=
  match _h : afterComment (skipSpaces s) with
  | some rest => skipLayout rest
  | none => skipSpaces s
termination_by s.length
decreasing_by exact Nat.lt_of_lt_of_le (afterComment_length _h) (skipSpaces_length s)

end SchemaDrift.Grammar
