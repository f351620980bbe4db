import SchemaDrift.Grammar.Match
import SchemaDrift.Proofs.Grammar.Layout
/-!
What holds of every match: more fuel gives the same outcome, no more remains than there was, and the
parts of a tree are of the rules that its rule mentions.
-/

set_option autoImplicit false

namespace SchemaDrift.Grammar

/-! ### What a match is put together from -/

theorem and_then_matched (o : Outcome) (next : List Char → List Tree → Outcome) (rest : List Char)
    (trees : List Tree) (met : o.andThen next = .matched rest trees) :
    ∃ mid found, o = .matched mid found ∧ next mid found = .matched rest trees := by
  cases o with
  | matched mid found => exact ⟨mid, found, rfl, met⟩
  | failed | exhausted => cases met

theorem or_else_matched (o other : Outcome) (rest : List Char) (trees : List Tree)
    (met : o.orElse other = .matched rest trees) :
    o = .matched rest trees ∨ other = .matched rest trees := by
  cases o with
  | matched | exhausted => exact .inl met
  | failed => exact .inr met

theorem prepend_matched (front trees : List Tree) (o : Outcome) (rest : List Char)
    (met : o.prepend front = .matched rest trees) :
    ∃ more, o = .matched rest more ∧ trees = front ++ more := by
  cases o with
  | matched mid found =>
      cases met
      exact ⟨found, rfl, rfl⟩
  | failed | exhausted => cases met

/-! ### Fuel -/

-- The second outcome is the first, unless that is for want of fuel.
def Outcome.Confirms (o more : Outcome) : Prop := o ≠ .exhausted → more = o

theorem confirms_and_then (o more : Outcome) (next then_ : List Char → List Tree → Outcome)
    (first : o.Confirms more) (rest : ∀ s trees, (next s trees).Confirms (then_ s trees)) :
    (o.andThen next).Confirms (more.andThen then_) := by
  intro ends
  cases o with
  | matched s trees =>
      rw [first (by simp)]
      exact rest s trees ends
  | failed =>
      rw [first (by simp)]
      rfl
  | exhausted => exact absurd rfl ends

theorem confirms_or_else (o more other else_ : Outcome) (first : o.Confirms more)
    (rest : other.Confirms else_) : (o.orElse other).Confirms (more.orElse else_) := by
  intro ends
  cases o with
  | matched s trees =>
      rw [first (by simp)]
      rfl
  | failed =>
      rw [first (by simp)]
      exact rest ends
  | exhausted => exact absurd rfl ends

theorem confirms_prepend (trees : List Tree) (o more : Outcome) (first : o.Confirms more) :
    (o.prepend trees).Confirms (more.prepend trees) := by
  intro ends
  cases o with
  | matched s found => rw [first (by simp)]
  | failed => rw [first (by simp)]
  | exhausted => exact absurd rfl ends

theorem confirms_self (o : Outcome) : o.Confirms o := fun _ => rfl

theorem run_confirms (fuel : Nat) (layout : Layout) (e : Expr) (s : List Char) :
    (run fuel layout e s).Confirms (run (fuel + 1) layout e s) := by
  induction fuel generalizing layout e s with
  | zero => exact fun ends => absurd rfl ends
  | succ fuel ih =>
      cases e with
      | empty | finish | one | word => exact confirms_self _
      | seq a b =>
          exact confirms_and_then _ _ _ _ (ih layout a s) fun rest trees =>
            confirms_prepend trees _ _ (ih layout b (layout.skip rest))
      | alt a b => exact confirms_or_else _ _ _ _ (ih layout a s) (ih layout b s)
      | opt a => exact confirms_or_else _ _ _ _ (ih layout a s) (confirms_self _)
      | many a =>
          exact confirms_or_else _ _ _ _
            (confirms_and_then _ _ _ _ (ih layout a s) fun rest trees =>
              confirms_prepend trees _ _ (ih layout (.more a) rest)) (confirms_self _)
      | more a =>
          exact confirms_or_else _ _ _ _
            (confirms_and_then _ _ _ _ (ih layout a (layout.skip s)) fun rest trees =>
              confirms_prepend trees _ _ (ih layout (.more a) rest)) (confirms_self _)
      | notAt a =>
          intro ends
          have same := ih layout a s
          rw [run] at ends
          rw [run, run]
          cases found : run fuel layout a s with
          | matched rest trees => rw [same (by simp [found]), found]
          | failed => rw [same (by simp [found]), found]
          | exhausted => simp [found] at ends
      | rule r =>
          exact confirms_and_then _ _ _ _ (ih (r.layoutIn layout) r.body s) fun _ _ =>
            confirms_self _

theorem run_more_fuel (fuel extra : Nat) (layout : Layout) (e : Expr) (s : List Char)
    (ends : run fuel layout e s ≠ .exhausted) :
    run (fuel + extra) layout e s = run fuel layout e s := by
  induction extra with
  | zero => rfl
  | succ extra ih =>
      have next := run_confirms (fuel + extra) layout e s
      rw [← ih] at ends
      exact (next ends).trans ih

theorem more_in_token (fuel : Nat) (e : Expr) (s : List Char) :
    run fuel .token (.more e) s = run fuel .token (.many e) s := by
  cases fuel <;> rfl

/-! ### Progress -/

def Outcome.Leaves (start : List Char) : Outcome → Prop
  | matched rest _ => rest <:+ start
  | _ => True

theorem leaves_and_then (start between : List Char) (o : Outcome)
    (next : List Char → List Tree → Outcome) (first : o.Leaves between)
    (rest : ∀ s trees, s <:+ between → (next s trees).Leaves start) :
    (o.andThen next).Leaves start := by
  cases o with
  | matched s trees => exact rest s trees first
  | failed | exhausted => trivial

theorem leaves_or_else (start : List Char) (o other : Outcome) (first : o.Leaves start)
    (rest : other.Leaves start) : (o.orElse other).Leaves start := by
  cases o with
  | matched | exhausted => exact first
  | failed => exact rest

theorem leaves_prepend (start : List Char) (trees : List Tree) (o : Outcome) (first : o.Leaves start) :
    (o.prepend trees).Leaves start := by
  cases o with
  | matched => exact first
  | failed | exhausted => trivial

theorem leaves_mono (short long : List Char) (o : Outcome) (first : o.Leaves short)
    (within : short <:+ long) : o.Leaves long := by
  cases o with
  | matched => exact List.IsSuffix.trans first within
  | failed | exhausted => trivial

theorem layout_skip_suffix (layout : Layout) (s : List Char) : layout.skip s <:+ s := by
  cases layout with
  | free => exact skip_layout_suffix s
  | tight | token => exact List.suffix_refl s

theorem skip_shortens (layout : Layout) (s : List Char) : (layout.skip s).length ≤ s.length :=
  (layout_skip_suffix layout s).length_le

theorem drop_word_suffix (lower s rest : List Char) (dropped : dropWord? lower s = some rest) :
    rest <:+ s := by
  fun_induction dropWord? lower s with
  | case1 s => exact Option.some.inj dropped ▸ List.suffix_refl s
  | case2 => cases dropped
  | case3 word c _ ih => exact (ih dropped).trans (List.suffix_cons c _)
  | case4 => cases dropped

theorem run_leaves (fuel : Nat) (layout : Layout) (e : Expr) (s : List Char) :
    (run fuel layout e s).Leaves s := by
  induction fuel generalizing layout e s with
  | zero => trivial
  | succ fuel ih =>
      cases e with
      | empty => exact List.suffix_refl s
      | finish =>
          rw [run]
          split
          · exact List.suffix_refl s
          · trivial
      | one set =>
          cases s with
          | nil => trivial
          | cons c rest =>
              rw [run]
              split
              · exact List.suffix_cons c rest
              · trivial
      | word lower =>
          rw [run]
          cases dropped : dropWord? lower s with
          | some rest => exact drop_word_suffix lower s rest dropped
          | none => trivial
      | seq a b =>
          exact leaves_and_then _ _ _ _ (ih layout a s) fun rest trees within =>
            leaves_prepend _ trees _ (leaves_mono _ _ _ (ih layout b (layout.skip rest))
              ((layout_skip_suffix layout rest).trans within))
      | alt a b => exact leaves_or_else _ _ _ (ih layout a s) (ih layout b s)
      | opt a => exact leaves_or_else _ _ _ (ih layout a s) (List.suffix_refl s)
      | many a =>
          exact leaves_or_else _ _ _
            (leaves_and_then _ _ _ _ (ih layout a s) fun rest trees within =>
              leaves_prepend _ trees _ (leaves_mono _ _ _ (ih layout (.more a) rest) within))
            (List.suffix_refl s)
      | more a =>
          exact leaves_or_else _ _ _
            (leaves_and_then _ _ _ _ (ih layout a (layout.skip s)) fun rest trees within =>
              leaves_prepend _ trees _ (leaves_mono _ _ _ (ih layout (.more a) rest)
                (within.trans (layout_skip_suffix layout s))))
            (List.suffix_refl s)
      | notAt a =>
          rw [run]
          cases run fuel layout a s with
          | matched | exhausted => trivial
          | failed => exact List.suffix_refl s
      | rule r =>
          exact leaves_and_then _ _ _ _ (ih (r.layoutIn layout) r.body s) fun _ _ within => within

theorem rest_suffix (fuel : Nat) (layout : Layout) (e : Expr) (s rest : List Char)
    (trees : List Tree) (met : run fuel layout e s = .matched rest trees) : rest <:+ s := by
  have leaves := run_leaves fuel layout e s
  rw [met] at leaves
  exact leaves

/-! ### Parts -/

def Expr.rules : Expr → List Rule
  | empty | finish | one _ | word _ | notAt _ => []
  | seq a b | alt a b => a.rules ++ b.rules
  | opt a | many a | more a => a.rules
  | rule r => [r]

inductive Tree.Shaped : Tree → Prop
  | node (r : Rule) (start rest : List Char) (children : List Tree)
      (rules : ∀ tree ∈ children, tree.rule ∈ r.body.rules) (below : ∀ tree ∈ children, tree.Shaped) :
      Shaped (.node r start rest children)

def Outcome.Holds (kind : Tree → Prop) (rules : List Rule) : Outcome → Prop
  | matched _ trees => ∀ tree ∈ trees, kind tree ∧ tree.rule ∈ rules
  | _ => True

section Holds

variable (kind : Tree → Prop)

theorem holds_mono (some all : List Rule) (o : Outcome) (held : o.Holds kind some)
    (within : some ⊆ all) : o.Holds kind all := by
  cases o with
  | matched => exact fun tree member => ⟨(held tree member).1, within (held tree member).2⟩
  | failed | exhausted => trivial

theorem holds_and_then (rules : List Rule) (o : Outcome)
    (next : List Char → List Tree → Outcome)
    (rest : ∀ s trees, o = .matched s trees → (next s trees).Holds kind rules) :
    (o.andThen next).Holds kind rules := by
  cases o with
  | matched s trees => exact rest s trees rfl
  | failed | exhausted => trivial

theorem holds_or_else (rules : List Rule) (o other : Outcome) (first : o.Holds kind rules)
    (rest : other.Holds kind rules) : (o.orElse other).Holds kind rules := by
  cases o with
  | matched | exhausted => exact first
  | failed => exact rest

theorem holds_prepend (rules : List Rule) (trees : List Tree) (o : Outcome)
    (front : ∀ tree ∈ trees, kind tree ∧ tree.rule ∈ rules) (rest : o.Holds kind rules) :
    (o.prepend trees).Holds kind rules := by
  cases o with
  | matched =>
      intro tree member
      exact (List.mem_append.mp member).elim (front tree) (rest tree)
  | failed | exhausted => trivial

-- A kind that every node has when its parts have it is the kind of all trees of a run.
theorem run_holds
    (built : ∀ (fuel : Nat) (layout : Layout) (r : Rule) (s rest : List Char) (children : List Tree),
      layout ≠ .token → run fuel (r.layoutIn layout) r.body s = .matched rest children →
      (∀ tree ∈ children, kind tree ∧ tree.rule ∈ r.body.rules) → kind (.node r s rest children))
    (fuel : Nat) (layout : Layout) (e : Expr) (s : List Char) :
    (run fuel layout e s).Holds kind e.rules := by
  have none (rules : List Rule) (s : List Char) : (Outcome.matched s []).Holds kind rules :=
    List.forall_mem_nil _
  induction fuel generalizing layout e s with
  | zero => trivial
  | succ fuel ih =>
      cases e with
      | empty => exact none _ _
      | finish =>
          rw [run]
          split
          · exact none _ _
          · trivial
      | one set =>
          cases s with
          | nil => trivial
          | cons c rest =>
              rw [run]
              split
              · exact none _ _
              · trivial
      | word lower =>
          rw [run]
          split
          · exact none _ _
          · trivial
      | seq a b =>
          have first := holds_mono kind _ _ _ (ih layout a s) (List.subset_append_left _ b.rules)
          refine holds_and_then kind _ _ _ fun rest trees met => ?_
          rw [met] at first
          exact holds_prepend kind _ trees _ first
            (holds_mono kind _ _ _ (ih layout b _) (List.subset_append_right a.rules _))
      | alt a b =>
          exact holds_or_else kind _ _ _
            (holds_mono kind _ _ _ (ih layout a s) (List.subset_append_left _ b.rules))
            (holds_mono kind _ _ _ (ih layout b s) (List.subset_append_right a.rules _))
      | opt a => exact holds_or_else kind _ _ _ (ih layout a s) (none _ _)
      | many a =>
          have first := ih layout a s
          refine holds_or_else kind _ _ _ (holds_and_then kind _ _ _ fun rest trees met => ?_) (none _ _)
          rw [met] at first
          exact holds_prepend kind _ trees _ first (ih layout (.more a) rest)
      | more a =>
          have first := ih layout a (layout.skip s)
          refine holds_or_else kind _ _ _ (holds_and_then kind _ _ _ fun rest trees met => ?_) (none _ _)
          rw [met] at first
          exact holds_prepend kind _ trees _ first (ih layout (.more a) rest)
      | notAt a =>
          rw [run]
          split
          · trivial
          · exact none _ _
          · trivial
      | rule r =>
          have inner := ih (r.layoutIn layout) r.body s
          refine holds_and_then kind _ _ _ fun rest trees met => ?_
          rw [met] at inner
          unfold Layout.keep
          split
          case isTrue => exact none _ _
          case isFalse kept =>
            intro tree member
            obtain rfl := List.mem_singleton.mp member
            exact ⟨built fuel layout r s rest trees kept met inner, List.mem_singleton.mpr rfl⟩

end Holds

theorem run_shaped (fuel : Nat) (layout : Layout) (e : Expr) (s : List Char) :
    (run fuel layout e s).Holds Tree.Shaped e.rules :=
  run_holds Tree.Shaped (fun _ _ r s rest children _ _ below =>
    .node r s rest children (fun tree member => (below tree member).2)
      (fun tree member => (below tree member).1)) fuel layout e s

end SchemaDrift.Grammar
