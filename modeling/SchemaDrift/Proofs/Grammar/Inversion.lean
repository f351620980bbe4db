import SchemaDrift.Proofs.Grammar.Group
/-!
What was read by an expression was read by its parts: for each operator the converse of the lemmas
that put a match together.
-/

set_option autoImplicit false

namespace SchemaDrift.Grammar

section Operators

variable {layout : Layout} {a b : Expr} {s rest : List Char} {trees : List Tree}

theorem given_suffix {e : Expr} (given : Gives layout e s (.matched rest trees)) : rest <:+ s := by
  obtain ⟨n, given⟩ := given
  exact rest_suffix n layout e s rest trees (given n (Nat.le_refl n))

theorem given_rules {e : Expr} (given : Gives layout e s (.matched rest trees)) :
    ∀ tree ∈ trees, tree.rule ∈ e.rules := by
  obtain ⟨n, given⟩ := given
  have shaped := run_shaped n layout e s
  rw [given n (Nat.le_refl n)] at shaped
  exact fun tree member => (shaped tree member).2

theorem given_one {set : CharSet} (given : Gives layout (.one set) s (.matched rest trees)) :
    ∃ c, s = c :: rest ∧ set.has c = true := by
  cases s with
  | nil => cases gives_unique _ _ _ _ _ given (gives_no_one set (by rintro c ⟨⟩))
  | cons c s =>
      cases inside : set.has c with
      | true =>
          cases gives_unique _ _ _ _ _ given (gives_one set c inside)
          exact ⟨c, rfl, inside⟩
      | false => cases gives_unique _ _ _ _ _ given (gives_no_one set (ends_cons set c s inside))

theorem given_char {c : Char} (given : Gives layout (.char c) s (.matched rest trees)) :
    s = c :: rest := by
  obtain ⟨d, same, inside⟩ := given_one given
  rw [same, of_decide_eq_true inside]

theorem given_seq (given : Gives layout (a ++ b) s (.matched rest trees)) :
    ∃ mid first later, Gives layout a s (.matched mid first) ∧
      Gives layout b (layout.skip mid) (.matched rest later) ∧ trees = first ++ later := by
  obtain ⟨n, given⟩ := given
  obtain ⟨mid, first, front, next⟩ := and_then_matched _ _ _ _ (given (n + 1) (Nat.le_succ n))
  obtain ⟨later, back, same⟩ := prepend_matched _ _ _ _ next
  exact ⟨mid, first, later, gives_met _ _ _ _ _ front Outcome.noConfusion,
    gives_met _ _ _ _ _ back Outcome.noConfusion, same⟩

theorem given_alt (given : Gives layout (a ||| b) s (.matched rest trees)) :
    Gives layout a s (.matched rest trees) ∨
      Gives layout a s .failed ∧ Gives layout b s (.matched rest trees) := by
  obtain ⟨n, given⟩ := given
  have met : (run n layout a s).orElse (run n layout b s) = .matched rest trees :=
    given (n + 1) (Nat.le_succ n)
  cases first : run n layout a s with
  | matched mid found =>
      rw [first] at met
      cases met
      exact .inl (gives_met _ _ _ _ _ first Outcome.noConfusion)
  | failed =>
      rw [first] at met
      exact .inr ⟨gives_met _ _ _ _ _ first Outcome.noConfusion,
        gives_met _ _ _ _ _ met Outcome.noConfusion⟩
  | exhausted =>
      rw [first] at met
      cases met

theorem given_opt (given : Gives layout (.opt a) s (.matched rest trees)) :
    Gives layout a s (.matched rest trees) ∨ Gives layout a s .failed ∧ rest = s ∧ trees = [] := by
  obtain ⟨n, given⟩ := given
  have met := given (n + 1) (Nat.le_succ n)
  rw [run] at met
  cases first : run n layout a s with
  | matched mid found =>
      rw [first] at met
      cases met
      exact .inl (gives_met _ _ _ _ _ first Outcome.noConfusion)
  | failed =>
      rw [first] at met
      cases met
      exact .inr ⟨gives_met _ _ _ _ _ first Outcome.noConfusion, rfl, rfl⟩
  | exhausted =>
      rw [first] at met
      cases met

theorem given_not (given : Gives layout (.notAt a) s (.matched rest trees)) :
    Gives layout a s .failed ∧ rest = s ∧ trees = [] := by
  obtain ⟨n, given⟩ := given
  have met := given (n + 1) (Nat.le_succ n)
  rw [run] at met
  cases inner : run n layout a s with
  | failed =>
      rw [inner] at met
      cases met
      exact ⟨gives_met _ _ _ _ _ inner Outcome.noConfusion, rfl, rfl⟩
  | matched | exhausted =>
      rw [inner] at met
      cases met

theorem given_rule {r : Rule} (given : Gives layout (.rule r) s (.matched rest trees)) :
    ∃ children, Gives (r.layoutIn layout) r.body s (.matched rest children) ∧
      trees = layout.keep (.node r s rest children) := by
  obtain ⟨n, given⟩ := given
  obtain ⟨mid, children, body, same⟩ := and_then_matched _ _ _ _ (given (n + 1) (Nat.le_succ n))
  cases same
  exact ⟨children, gives_met _ _ _ _ _ body Outcome.noConfusion, rfl⟩

theorem given_no_seq (given : Gives layout (a ++ b) s .failed) :
    Gives layout a s .failed ∨ ∃ mid first, Gives layout a s (.matched mid first) ∧
      Gives layout b (layout.skip mid) .failed := by
  obtain ⟨n, given⟩ := given
  have met : (run n layout a s).andThen (fun mid found =>
    (run n layout b (layout.skip mid)).prepend found) = .failed := given (n + 1) (Nat.le_succ n)
  cases front : run n layout a s with
  | failed => exact .inl (gives_met _ _ _ _ _ front Outcome.noConfusion)
  | exhausted =>
      rw [front] at met
      cases met
  | matched mid first =>
      rw [front] at met
      refine .inr ⟨mid, first, gives_met _ _ _ _ _ front Outcome.noConfusion, ?_⟩
      cases back : run n layout b (layout.skip mid) with
      | failed => exact gives_met _ _ _ _ _ back Outcome.noConfusion
      | matched | exhausted =>
          rw [Outcome.andThen, back] at met
          cases met

theorem given_no_alt (given : Gives layout (a ||| b) s .failed) :
    Gives layout a s .failed ∧ Gives layout b s .failed := by
  obtain ⟨n, given⟩ := given
  have met : (run n layout a s).orElse (run n layout b s) = .failed := given (n + 1) (Nat.le_succ n)
  cases first : run n layout a s with
  | failed =>
      rw [first] at met
      exact ⟨gives_met _ _ _ _ _ first Outcome.noConfusion,
        gives_met _ _ _ _ _ met Outcome.noConfusion⟩
  | matched | exhausted =>
      rw [first] at met
      cases met

theorem given_no_rule {r : Rule} (given : Gives layout (.rule r) s .failed) :
    Gives (r.layoutIn layout) r.body s .failed := by
  obtain ⟨n, given⟩ := given
  have met := given (n + 1) (Nat.le_succ n)
  rw [run] at met
  cases inner : run n (r.layoutIn layout) r.body s with
  | failed => exact gives_met _ _ _ _ _ inner Outcome.noConfusion
  | matched | exhausted =>
      rw [inner] at met
      cases met

end Operators

/-! ### Repetitions -/

inductive Items (layout : Layout) (a : Expr) : List Char → List Char → List Tree → Prop
  | done (s : List Char) (stop : Gives layout a (layout.skip s) .failed) : Items layout a s s []
  | item (s mid rest : List Char) (found more : List Tree)
      (first : Gives layout a (layout.skip s) (.matched mid found))
      (later : Items layout a mid rest more) : Items layout a s rest (found ++ more)

theorem more_not_failed (fuel : Nat) (layout : Layout) (a : Expr) (s : List Char) :
    run fuel layout (.more a) s ≠ .failed := by
  cases fuel with
  | zero => rintro ⟨⟩
  | succ fuel =>
      rw [run]
      cases (run fuel layout a (layout.skip s)).andThen _ <;> rintro ⟨⟩

theorem items_met (fuel : Nat) (layout : Layout) (a : Expr) (s rest : List Char) (trees : List Tree)
    (met : run fuel layout (.more a) s = .matched rest trees) : Items layout a s rest trees := by
  induction fuel generalizing s trees with
  | zero => cases met
  | succ fuel ih =>
      rw [run] at met
      cases first : run fuel layout a (layout.skip s) with
      | exhausted =>
          rw [first] at met
          cases met
      | failed =>
          rw [first] at met
          cases met
          exact .done _ (gives_met _ _ _ _ _ first Outcome.noConfusion)
      | matched mid found =>
          rw [first, Outcome.andThen] at met
          cases later : run fuel layout (.more a) mid with
          | matched left more =>
              rw [later] at met
              cases met
              exact .item s mid _ found more (gives_met _ _ _ _ _ first Outcome.noConfusion)
                (ih mid more later)
          | exhausted =>
              rw [later] at met
              cases met
          | failed => exact absurd later (more_not_failed fuel layout a mid)

theorem given_many (layout : Layout) (a : Expr) (s rest : List Char) (trees : List Tree)
    (solid : layout.skip s = s) (given : Gives layout (.many a) s (.matched rest trees)) :
    Items layout a s rest trees := by
  obtain ⟨n, given⟩ := given
  refine items_met n layout a s rest trees ?_
  rw [← many_is_more n solid]
  exact given n (Nat.le_refl n)

theorem gives_items (layout : Layout) (a : Expr) (s rest : List Char) (trees : List Tree)
    (items : Items layout a s rest trees) : Gives layout (.more a) s (.matched rest trees) := by
  induction items with
  | done s stop => exact gives_no_later stop
  | item s mid rest found more first _ ih => exact gives_later more first ih

end SchemaDrift.Grammar
