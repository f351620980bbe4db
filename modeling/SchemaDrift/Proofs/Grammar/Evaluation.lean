import SchemaDrift.Grammar.Failure
import SchemaDrift.Proofs.Grammar.Fuel
import SchemaDrift.Proofs.Grammar.Literal
/-!
What an expression gives on a text, apart from fuel: one lemma for each operator, and that the
fuel of a text is enough for what a rule gives.
-/

set_option autoImplicit false

namespace SchemaDrift.Grammar

-- With enough fuel the outcome is this one.
def Gives (layout : Layout) (e : Expr) (s : List Char) (o : Outcome) : Prop :=
  ∃ enough, ∀ fuel, enough ≤ fuel → run fuel layout e s = o

theorem gives_from (enough : Nat) (layout : Layout) (e : Expr) (s : List Char) (o : Outcome)
    (next : ∀ fuel, enough ≤ fuel → run (fuel + 1) layout e s = o) : Gives layout e s o := by
  refine ⟨enough + 1, fun fuel le => ?_⟩
  obtain ⟨n, rfl⟩ := Nat.exists_eq_add_of_le' le
  exact next (n + enough) (Nat.le_add_left ..)

-- For an outcome that Lean computes with so much fuel and any more.
theorem gives_computed (enough : Nat) {layout : Layout} {e : Expr} {s : List Char} {o : Outcome}
    (same : ∀ fuel, run (fuel + enough) layout e s = o) : Gives layout e s o := by
  refine ⟨enough, fun fuel le => ?_⟩
  obtain ⟨n, rfl⟩ := Nat.exists_eq_add_of_le' le
  exact same n

section Operators

variable {layout : Layout} {a b : Expr} {s mid rest : List Char} {trees : List Tree} {o : Outcome}

/-! ### Characters and words -/

theorem gives_empty : Gives layout .empty s (.matched s []) := gives_computed 1 fun _ => rfl

theorem gives_finish : Gives layout .finish [] (.matched [] []) := gives_computed 1 fun _ => rfl

theorem gives_one (set : CharSet) (c : Char) (inside : set.has c = true) :
    Gives layout (.one set) (c :: s) (.matched s []) := by
  refine gives_computed 1 fun fuel => ?_
  rw [run, if_pos inside]

theorem gives_no_one (set : CharSet) (outside : ∀ c, s.head? = some c → set.has c = false) :
    Gives layout (.one set) s .failed := by
  refine gives_computed 1 fun fuel => ?_
  cases s with
  | nil => rfl
  | cons c s => rw [run, if_neg (Bool.eq_false_iff.mp (outside c rfl))]

theorem gives_char (c : Char) : Gives layout (.char c) (c :: s) (.matched s []) :=
  gives_computed 1 fun fuel => run_char fuel layout c s

theorem gives_other_char (c : Char) (other : s.head? ≠ some c) :
    Gives layout (.char c) s .failed := by
  refine gives_no_one _ fun d head => decide_eq_false ?_
  rintro rfl
  exact other head

theorem gives_word (lower : List Char) (dropped : dropWord? lower s = some rest) :
    Gives layout (.word lower) s (.matched rest []) := by
  refine gives_computed 1 fun fuel => ?_
  rw [run, dropped]

theorem gives_no_word (lower : List Char) (other : dropWord? lower s = none) :
    Gives layout (.word lower) s .failed := by
  refine gives_computed 1 fun fuel => ?_
  rw [run, other]

/-! ### Sequences and choices -/

theorem gives_and_then (first : Gives layout a s (.matched mid trees))
    (second : Gives layout b (layout.skip mid) o) : Gives layout (a ++ b) s (o.prepend trees) := by
  obtain ⟨n, first⟩ := first
  obtain ⟨m, second⟩ := second
  refine gives_from (max n m) _ _ _ _ fun fuel le => ?_
  show (run fuel layout a s).andThen _ = _
  rw [first fuel (by omega), Outcome.andThen, second fuel (by omega)]

theorem gives_seq (more : List Tree) (first : Gives layout a s (.matched mid trees))
    (second : Gives layout b (layout.skip mid) (.matched rest more)) :
    Gives layout (a ++ b) s (.matched rest (trees ++ more)) := gives_and_then first second

theorem gives_seq_solid (more : List Tree) (solid : skipLayout mid = mid)
    (first : Gives .free a s (.matched mid trees))
    (second : Gives .free b mid (.matched rest more)) :
    Gives .free (a ++ b) s (.matched rest (trees ++ more)) := by
  rw [← solid] at second
  exact gives_seq more first second

theorem gives_seq_stuck (first : Gives layout a s (.matched mid trees))
    (second : Gives layout b (layout.skip mid) .failed) : Gives layout (a ++ b) s .failed :=
  gives_and_then first second

theorem gives_seq_failed (first : Gives layout a s .failed) : Gives layout (a ++ b) s .failed := by
  obtain ⟨n, first⟩ := first
  refine gives_from n _ _ _ _ fun fuel le => ?_
  show (run fuel layout a s).andThen _ = _
  rw [first fuel le]
  rfl

theorem gives_left (first : Gives layout a s (.matched rest trees)) :
    Gives layout (a ||| b) s (.matched rest trees) := by
  obtain ⟨n, first⟩ := first
  refine gives_from n _ _ _ _ fun fuel le => ?_
  show (run fuel layout a s).orElse _ = _
  rw [first fuel le]
  rfl

theorem gives_right (first : Gives layout a s .failed) (second : Gives layout b s o) :
    Gives layout (a ||| b) s o := by
  obtain ⟨n, first⟩ := first
  obtain ⟨m, second⟩ := second
  refine gives_from (max n m) _ _ _ _ fun fuel le => ?_
  show (run fuel layout a s).orElse _ = _
  rw [first fuel (by omega)]
  exact second fuel (by omega)

theorem gives_opt (there : Gives layout a s (.matched rest trees)) :
    Gives layout (.opt a) s (.matched rest trees) := by
  obtain ⟨n, there⟩ := there
  refine gives_from n _ _ _ _ fun fuel le => ?_
  rw [run, there fuel le]
  rfl

theorem gives_no_opt (absent : Gives layout a s .failed) :
    Gives layout (.opt a) s (.matched s []) := by
  obtain ⟨n, absent⟩ := absent
  refine gives_from n _ _ _ _ fun fuel le => ?_
  rw [run, absent fuel le]
  rfl

theorem gives_not (absent : Gives layout a s .failed) :
    Gives layout (.notAt a) s (.matched s []) := by
  obtain ⟨n, absent⟩ := absent
  refine gives_from n _ _ _ _ fun fuel le => ?_
  rw [run, absent fuel le]

theorem gives_no_not (there : Gives layout a s (.matched rest trees)) :
    Gives layout (.notAt a) s .failed := by
  obtain ⟨n, there⟩ := there
  refine gives_from n _ _ _ _ fun fuel le => ?_
  rw [run, there fuel le]

/-! ### Repetitions -/

theorem gives_many (first : Gives layout a s (.matched mid trees)) (more : List Tree)
    (later : Gives layout (.more a) mid (.matched rest more)) :
    Gives layout (.many a) s (.matched rest (trees ++ more)) := by
  obtain ⟨n, first⟩ := first
  obtain ⟨m, later⟩ := later
  refine gives_from (max n m) _ _ _ _ fun fuel le => ?_
  rw [run, first fuel (by omega), Outcome.andThen, later fuel (by omega)]
  rfl

theorem gives_none (absent : Gives layout a s .failed) :
    Gives layout (.many a) s (.matched s []) := by
  obtain ⟨n, absent⟩ := absent
  refine gives_from n _ _ _ _ fun fuel le => ?_
  rw [run, absent fuel le]
  rfl

theorem gives_more (solid : layout.skip s = s) (all : Gives layout (.many a) s o) :
    Gives layout (.more a) s o := by
  obtain ⟨n, all⟩ := all
  refine gives_from n _ _ _ _ fun fuel le => ?_
  rw [← all (fuel + 1) (by omega), run, run, solid]

/-! ### Rules -/

theorem gives_rule (r : Rule)
    (body : Gives (r.layoutIn layout) r.body s (.matched rest trees)) :
    Gives layout (.rule r) s (.matched rest (layout.keep (.node r s rest trees))) := by
  obtain ⟨n, body⟩ := body
  refine gives_from n _ _ _ _ fun fuel le => ?_
  rw [run, body fuel le]
  rfl

theorem gives_no_rule (r : Rule) (body : Gives (r.layoutIn layout) r.body s .failed) :
    Gives layout (.rule r) s .failed := by
  obtain ⟨n, body⟩ := body
  refine gives_from n _ _ _ _ fun fuel le => ?_
  rw [run, body fuel le]
  rfl

theorem gives_end (r : Rule) (reads : r.reads = true) : Gives layout (.rule r) [] .failed := by
  have fails : run (fuelFor []) layout (.rule r) [] = .failed := by
    cases met : run (fuelFor []) layout (.rule r) [] with
    | failed => rfl
    | matched rest trees =>
        exact absurd (run_consumes _ _ (.rule r) _ _ _ reads met) (Nat.not_lt_zero _)
    | exhausted => exact absurd met (fuel_suffices layout r [])
  refine ⟨fuelFor [], fun fuel le => ?_⟩
  obtain ⟨extra, rfl⟩ := Nat.exists_eq_add_of_le le
  have same := run_more_fuel (fuelFor []) extra layout (.rule r) [] (fuel_suffices layout r [])
  exact same.trans fails

theorem gives_run (r : Rule) (given : Gives layout (.rule r) s o) :
    run (fuelFor s) layout (.rule r) s = o := by
  obtain ⟨n, given⟩ := given
  rw [← given (fuelFor s + n) (Nat.le_add_left ..)]
  exact (run_more_fuel (fuelFor s) n layout (.rule r) s (fuel_suffices layout r s)).symm

theorem gives_parse (r : Rule) (tree : Tree)
    (given : Gives .free (.rule r) s (.matched rest [tree])) : parse r s = .ok tree := by
  rw [parse, parse?, gives_run r given]
  rfl

end Operators

end SchemaDrift.Grammar
