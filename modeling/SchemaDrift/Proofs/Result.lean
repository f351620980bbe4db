import Mathlib
/-!
Computations that may fail, taken apart where they succeed.
-/

set_option autoImplicit false

namespace SchemaDrift

variable {ε φ α β : Type}

theorem bind_ok (x : Except ε α) (f : α → Except ε β) (b : β) :
    (x >>= f) = .ok b ↔ ∃ a, x = .ok a ∧ f a = .ok b := by
  cases x with
  | error e =>
      constructor
      · intro failed
        cases failed
      · rintro ⟨_, impossible, _⟩
        cases impossible
  | ok a =>
      constructor
      · exact fun h => ⟨a, rfl, h⟩
      · rintro ⟨_, same, h⟩
        cases same
        exact h

theorem bind_error (x : Except ε α) (f : α → Except ε β) (e : ε) :
    (x >>= f) = .error e ↔ x = .error e ∨ ∃ a, x = .ok a ∧ f a = .error e := by
  cases x with
  | error d =>
      constructor
      · intro failed
        cases failed
        exact .inl rfl
      · rintro (same | ⟨_, impossible, _⟩)
        · cases same
          rfl
        · cases impossible
  | ok a =>
      constructor
      · exact fun failed => .inr ⟨a, rfl, failed⟩
      · rintro (impossible | ⟨_, same, failed⟩)
        · cases impossible
        · cases same
          exact failed

theorem ok_of_option (x : Except ε α) (a : α) (some : x.toOption = some a) :
    x = .ok a := by
  cases x with
  | error => cases some
  | ok b => exact congrArg Except.ok (Option.some.inj some)

theorem map_error_ok (f : ε → φ) (x : Except ε α) (a : α) :
    x.mapError f = .ok a ↔ x = .ok a := by
  cases x <;> simp [Except.mapError]

theorem map_ok (f : α → β) (x : Except ε α) (b : β) :
    f <$> x = .ok b ↔ ∃ a, x = .ok a ∧ f a = b := by
  cases x with
  | error e =>
      constructor
      · intro failed
        cases failed
      · rintro ⟨_, impossible, _⟩
        cases impossible
  | ok a =>
      constructor
      · exact fun h => ⟨a, rfl, Except.ok.inj h⟩
      · rintro ⟨_, same, rfl⟩
        cases same
        rfl

theorem map_m_ok (f : α → Except ε β) (l : List α) (r : List β) :
    l.mapM f = .ok r ↔ List.Forall₂ (fun a b => f a = .ok b) l r := by
  induction l generalizing r with
  | nil =>
      rw [List.mapM_nil, List.forall₂_nil_left_iff]
      exact ⟨fun h => by cases h; rfl, fun h => by rw [h]; rfl⟩
  | cons a l ih =>
      rw [List.mapM_cons, bind_ok, List.forall₂_cons_left_iff]
      constructor
      · rintro ⟨b, first, others⟩
        obtain ⟨rest, found, same⟩ := (bind_ok _ _ _).mp others
        cases same
        exact ⟨b, rest, first, (ih rest).mp found, rfl⟩
      · rintro ⟨b, rest, first, others, same⟩
        subst same
        exact ⟨b, first, (bind_ok _ _ _).mpr ⟨rest, (ih rest).mpr others, rfl⟩⟩

theorem map_m_error (f : α → Except ε β) (l : List α) (e : ε) :
    l.mapM f = .error e ↔ ∃ front a back, l = front ++ a :: back ∧
      (∀ x ∈ front, ∃ b, f x = .ok b) ∧ f a = .error e := by
  induction l with
  | nil =>
      constructor
      · intro failed
        cases failed
      · rintro ⟨front, a, back, whole, _⟩
        simp at whole
  | cons x l ih =>
      rw [List.mapM_cons, bind_error]
      constructor
      · rintro (failed | ⟨b, good, failed⟩)
        · exact ⟨[], x, l, rfl, by simp, failed⟩
        · rcases (bind_error _ _ _).mp failed with failed | ⟨_, _, never⟩
          · obtain ⟨front, a, back, rfl, fine, fails⟩ := ih.mp failed
            exact ⟨x :: front, a, back, rfl, by simpa using ⟨⟨b, good⟩, fine⟩, fails⟩
          · cases never
      · rintro ⟨front, a, back, whole, fine, fails⟩
        cases front with
        | nil =>
            cases whole
            exact .inl fails
        | cons y front =>
            cases whole
            obtain ⟨b, good⟩ := fine x (by simp)
            have failed := ih.mpr ⟨front, a, back, rfl, fun z member => fine z (by simp [member]), fails⟩
            exact .inr ⟨b, good, (bind_error _ _ _).mpr (.inl failed)⟩

theorem for_m_ok (f : α → Except ε PUnit) (l : List α) :
    l.forM f = .ok () ↔ ∀ a ∈ l, f a = .ok () := by
  induction l with
  | nil => exact ⟨fun _ a member => absurd member List.not_mem_nil, fun _ => rfl⟩
  | cons a l ih =>
      rw [List.forall_mem_cons, ← ih]
      refine (bind_ok _ _ _).trans ⟨?_, fun both => ⟨(), both.1, both.2⟩⟩
      rintro ⟨_, first, others⟩
      exact ⟨first, others⟩

theorem fold_m_snoc_ok (f : β → α → Except ε β) (front : List α) (last : α) (start result : β) :
    (front ++ [last]).foldlM f start = .ok result ↔
      ∃ before, front.foldlM f start = .ok before ∧ f before last = .ok result := by
  rw [List.foldlM_append, bind_ok]
  simp only [List.foldlM_cons, List.foldlM_nil, bind_pure]

theorem fold_m_keeps_members (P : β → Prop) (f : β → α → Except ε β) (l : List α) (start result : β)
    (keeps : ∀ b, ∀ a ∈ l, ∀ next, P b → f b a = .ok next → P next) (holds : P start)
    (run : l.foldlM f start = .ok result) : P result := by
  induction l generalizing start with
  | nil =>
      cases run
      exact holds
  | cons a l ih =>
      rw [List.foldlM_cons] at run
      obtain ⟨next, first, others⟩ := (bind_ok _ _ _).mp run
      exact ih next (fun b x member => keeps b x (List.mem_cons_of_mem a member))
        (keeps start a List.mem_cons_self next holds first) others

theorem fold_m_keeps (P : β → Prop) (f : β → α → Except ε β)
    (keeps : ∀ b a next, P b → f b a = .ok next → P next) (l : List α) (start result : β)
    (holds : P start) (run : l.foldlM f start = .ok result) : P result :=
  fold_m_keeps_members P f l start result (fun b a _ => keeps b a) holds run

theorem pairs_exist (R : α → β → Prop) (l : List α) (each : ∀ a ∈ l, ∃ b, R a b) :
    ∃ r, List.Forall₂ R l r := by
  induction l with
  | nil => exact ⟨[], .nil⟩
  | cons a l ih =>
      obtain ⟨b, first⟩ := each a List.mem_cons_self
      obtain ⟨r, others⟩ := ih fun a member => each a (List.mem_cons_of_mem _ member)
      exact ⟨b :: r, .cons first others⟩

theorem pairs_append (R : α → β → Prop) (front back : List α) (r : List β) :
    List.Forall₂ R (front ++ back) r ↔
      ∃ first last, List.Forall₂ R front first ∧ List.Forall₂ R back last ∧ r = first ++ last := by
  constructor
  · intro pairs
    exact ⟨r.take front.length, r.drop front.length,
      (List.forall₂_take_append r front back pairs.flip).flip,
      (List.forall₂_drop_append r front back pairs.flip).flip, (List.take_append_drop _ _).symm⟩
  · rintro ⟨first, last, one, two, rfl⟩
    exact List.rel_append one two

theorem partner_of_left (R : α → β → Prop) (l : List α) (r : List β) (pairs : List.Forall₂ R l r)
    (a : α) (member : a ∈ l) : ∃ b ∈ r, R a b := by
  induction pairs with
  | nil => cases member
  | cons first _ ih =>
      rcases List.mem_cons.mp member with same | later
      · exact ⟨_, by simp, same ▸ first⟩
      · obtain ⟨b, found, related⟩ := ih later
        exact ⟨b, by simp [found], related⟩

theorem partner_of_right (R : α → β → Prop) (l : List α) (r : List β) (pairs : List.Forall₂ R l r)
    (b : β) (member : b ∈ r) : ∃ a ∈ l, R a b :=
  partner_of_left (fun b a => R a b) r l pairs.flip b member

end SchemaDrift
