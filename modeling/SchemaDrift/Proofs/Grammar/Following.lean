import Mathlib.Data.List.Forall2
import SchemaDrift.Proofs.Grammar.Start
/-!
Matching in two texts side by side: at the same places the one match takes the same course as the
other, and the parts that it finds have the same texts, where a text is kept at all.
-/

set_option autoImplicit false

namespace SchemaDrift.Grammar

/-! ### Corresponding trees -/

-- The text of a part that is read for what it says. Of other parts only their own parts matter.
def Rule.keepsText : Rule → Bool
  | defaultExpr | parenGroup | referentialAction | typeArg | optionValue => true
  | r => r.layout ≠ .free

def Rule.SameText (r : Rule) (text other : List Char) : Prop :=
  text = other ∨ r = .defaultExpr ∧ ∃ b c, Blank b ∧ Blank c ∧ text ++ b = other ++ c

inductive Tree.Corresponds : Tree → Tree → Prop
  | node (r : Rule) (start rest otherStart otherRest : List Char) (children others : List Tree)
      (rules : ∀ tree ∈ children, tree.rule ∈ r.body.rules)
      (text : r.keepsText = true → r.SameText (Tree.node r start rest children).text
        (Tree.node r otherStart otherRest others).text)
      (below : List.Forall₂ Corresponds children others) :
      Corresponds (.node r start rest children) (.node r otherStart otherRest others)

mutual

theorem corresponds_self : ∀ tree : Tree, tree.Shaped → tree.Corresponds tree
  | .node r start rest children, .node _ _ _ _ rules below =>
    .node r start rest start rest children children rules (fun _ => .inl rfl)
      (all_correspond children below)

theorem all_correspond : ∀ trees : List Tree, (∀ tree ∈ trees, tree.Shaped) →
    List.Forall₂ Tree.Corresponds trees trees
  | [], _ => .nil
  | tree :: trees, shaped =>
    .cons (corresponds_self tree (shaped tree List.mem_cons_self))
      (all_correspond trees fun t member => shaped t (List.mem_cons_of_mem _ member))

end

/-! ### Corresponding outcomes -/

def Outcome.Follows (same : List Char → List Char → Prop) : Outcome → Outcome → Prop
  | .exhausted, _ => True
  | .failed, other => other = .failed
  | .matched rest trees, other => ∃ place found, other = .matched place found ∧
      same rest place ∧ List.Forall₂ Tree.Corresponds trees found

section Follows

variable (same : List Char → List Char → Prop)

theorem follows_self (o : Outcome) (here : ∀ rest trees, o = .matched rest trees → same rest rest)
    (rules : List Rule) (shaped : o.Holds Tree.Shaped rules) : o.Follows same o := by
  cases o with
  | matched rest trees =>
      exact ⟨rest, trees, rfl, here rest trees rfl,
        all_correspond trees fun tree member => (shaped tree member).1⟩
  | failed => rfl
  | exhausted => trivial

theorem follows_and_then (o other : Outcome) (next then_ : List Char → List Tree → Outcome)
    (first : o.Follows same other)
    (rest : ∀ s trees place found, o = .matched s trees → same s place →
      List.Forall₂ Tree.Corresponds trees found → (next s trees).Follows same (then_ place found)) :
    (o.andThen next).Follows same (other.andThen then_) := by
  cases o with
  | matched s trees =>
      obtain ⟨place, found, rfl, there, alike⟩ := first
      exact rest s trees place found rfl there alike
  | failed =>
      cases first
      rfl
  | exhausted => trivial

theorem follows_or_else (o other next else_ : Outcome) (first : o.Follows same other)
    (rest : o = .failed → next.Follows same else_) :
    (o.orElse next).Follows same (other.orElse else_) := by
  cases o with
  | matched s trees =>
      obtain ⟨place, found, rfl, there, alike⟩ := first
      exact ⟨place, found, rfl, there, alike⟩
  | failed =>
      cases first
      exact rest rfl
  | exhausted => trivial

theorem follows_prepend (trees found : List Tree) (o other : Outcome)
    (alike : List.Forall₂ Tree.Corresponds trees found) (first : o.Follows same other) :
    (o.prepend trees).Follows same (other.prepend found) := by
  cases o with
  | matched s more =>
      obtain ⟨place, others, rfl, there, rest⟩ := first
      exact ⟨place, found ++ others, rfl, there, List.rel_append alike rest⟩
  | failed =>
      cases first
      rfl
  | exhausted => trivial

end Follows

end SchemaDrift.Grammar
