/-!
Comparing lists as multisets under a relation that need not be equality.
-/

set_option autoImplicit false

namespace SchemaDrift

variable {α : Type}

def eraseFirst? (p : α → Bool) : List α → Option (List α)
  | [] => none
  | a :: l => if p a then some l else (eraseFirst? p l).map (a :: ·)

-- Can the members be paired off so that `same` holds of each pair?
def sameMultiset (same : α → α → Bool) : List α → List α → Bool
  | [], l => l.isEmpty
  | a :: k, l => match eraseFirst? (same a) l with
    | some l => sameMultiset same k l
    | none => false

def sameMembers [DecidableEq α] (k l : List α) : Bool := k.all (· ∈ l) && l.all (· ∈ k)

end SchemaDrift
