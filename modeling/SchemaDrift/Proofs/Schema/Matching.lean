import Mathlib
import SchemaDrift.Schema.Multiset
/-!
Comparing lists by a key of their members. Under a relation that only looks at the key, comparing
and removing members become equations between multisets of keys.
-/

set_option autoImplicit false

namespace SchemaDrift

variable {α κ : Type}

def tally (key : α → κ) (l : List α) : Multiset κ := ↑(l.map key)

@[simp] theorem tally_nil (key : α → κ) : tally key [] = 0 := rfl

@[simp] theorem tally_cons (key : α → κ) (a : α) (l : List α) :
    tally key (a :: l) = key a ::ₘ tally key l := rfl

@[simp] theorem tally_append (key : α → κ) (k l : List α) :
    tally key (k ++ l) = tally key k + tally key l := by
  simp [tally]

@[simp] theorem mem_tally (key : α → κ) (k : κ) (l : List α) :
    k ∈ tally key l ↔ ∃ a ∈ l, key a = k := by
  simp [tally]

theorem alike_member (key : α → κ) (k l : List α) (same : tally key k = tally key l) (b : α)
    (member : b ∈ l) : ∃ a ∈ k, key a = key b := by
  refine (mem_tally key (key b) k).mp ?_
  rw [same]
  exact (mem_tally key (key b) l).mpr ⟨b, member, rfl⟩

theorem tally_perm (key : α → κ) {k l : List α} (perm : k.Perm l) : tally key k = tally key l :=
  Multiset.coe_eq_coe.mpr (perm.map key)

theorem tally_sublist (key : α → κ) {k l : List α} (sub : k.Sublist l) :
    tally key k ≤ tally key l :=
  Multiset.coe_le.mpr (sub.map key).subperm

theorem tally_filter (key : α → κ) (p : α → Bool) (l : List α) :
    tally key (l.filter p) + tally key (l.filter (!p ·)) = tally key l := by
  rw [← tally_append]
  exact tally_perm key (List.filter_append_perm p l)

theorem erase_first_some (p : α → Bool) (l rest : List α) (erased : eraseFirst? p l = some rest) :
    ∃ front a back, l = front ++ a :: back ∧ rest = front ++ back ∧ p a = true ∧
      ∀ b ∈ front, p b = false := by
  induction l generalizing rest with
  | nil => cases erased
  | cons a l ih =>
      rw [eraseFirst?] at erased
      by_cases hit : p a = true
      · rw [if_pos hit] at erased
        cases erased
        exact ⟨[], a, l, rfl, rfl, hit, by simp⟩
      · rw [if_neg hit] at erased
        obtain ⟨tail, found, same⟩ := Option.map_eq_some_iff.mp erased
        obtain ⟨front, b, back, whole, remaining, picked, before⟩ := ih tail found
        subst same whole remaining
        refine ⟨a :: front, b, back, rfl, rfl, picked, ?_⟩
        intro c member
        rcases List.mem_cons.mp member with same | later
        · subst same
          simpa using hit
        · exact before c later

theorem erase_first_none (p : α → Bool) (l : List α) :
    eraseFirst? p l = none ↔ ∀ a ∈ l, p a = false := by
  induction l with
  | nil => simp [eraseFirst?]
  | cons a l ih =>
      by_cases hit : p a = true
      · simp [eraseFirst?, hit]
      · simp [eraseFirst?, hit, ih]

theorem erase_first_sublist (p : α → Bool) (l rest : List α)
    (erased : eraseFirst? p l = some rest) : rest.Sublist l := by
  obtain ⟨front, a, back, whole, remaining, _, _⟩ := erase_first_some p l rest erased
  rw [whole, remaining]
  exact (List.sublist_cons_self a back).append_left front

section ByKey

variable (key : α → κ)

theorem erase_first_tally (k : κ) (p : α → Bool) (picks : ∀ a, p a = true ↔ key a = k)
    (l rest : List α) (erased : eraseFirst? p l = some rest) :
    tally key l = k ::ₘ tally key rest := by
  obtain ⟨front, a, back, whole, remaining, picked, _⟩ := erase_first_some p l rest erased
  rw [whole, remaining, tally_append, tally_append, tally_cons, (picks a).mp picked,
    Multiset.add_cons]

theorem erase_first_present (k : κ) (p : α → Bool) (picks : ∀ a, p a = true ↔ key a = k)
    (l : List α) (present : k ∈ tally key l) : ∃ rest, eraseFirst? p l = some rest := by
  cases erased : eraseFirst? p l with
  | some rest => exact ⟨rest, rfl⟩
  | none =>
      obtain ⟨a, member, same⟩ := (mem_tally key k l).mp present
      have missed := (erase_first_none p l).mp erased a member
      rw [(picks a).mpr same] at missed
      cases missed

theorem erase_first_absent (k : κ) (p : α → Bool) (picks : ∀ a, p a = true ↔ key a = k)
    (l : List α) (erased : eraseFirst? p l = none) : k ∉ tally key l := by
  intro present
  obtain ⟨rest, found⟩ := erase_first_present key k p picks l present
  rw [erased] at found
  cases found

variable (same : α → α → Bool) (agree : ∀ a b, same a b = true ↔ key a = key b)

include agree

theorem same_multiset_iff (k l : List α) :
    sameMultiset same k l = true ↔ tally key k = tally key l := by
  have picks (a b : α) : same a b = true ↔ key b = key a := (agree a b).trans eq_comm
  induction k generalizing l with
  | nil => cases l <;> simp [sameMultiset]
  | cons a k ih =>
      rw [sameMultiset]
      cases erased : eraseFirst? (same a) l with
      | some rest =>
          rw [erase_first_tally key (key a) (same a) (picks a) l rest erased]
          simpa using ih rest
      | none =>
          have absent := erase_first_absent key (key a) (same a) (picks a) l erased
          simp only [Bool.false_eq_true, false_iff]
          intro equal
          exact absent (equal ▸ by simp)

theorem same_multiset_rel (k l : List α) :
    sameMultiset same k l = true ↔
      Multiset.Rel (fun a b => same a b = true) (↑k : Multiset α) (↑l : Multiset α) := by
  rw [same_multiset_iff key same agree, tally, tally, ← Multiset.map_coe, ← Multiset.map_coe,
    ← Multiset.rel_eq, Multiset.rel_map]
  simp only [agree]

end ByKey

end SchemaDrift
