import SchemaDrift.Proofs.Grammar.Match
/-!
The fuel of a text is enough for every rule: no rule nests deeply without reading a character, and
each item of a repetition reads one. So a match is the same with any fuel that gives an answer.
-/

set_option autoImplicit false

namespace SchemaDrift.Grammar

/-! ### Reading and nesting -/

def Rule.reads (r : Rule) : Bool :=
  !([Rule.endOfInput, .document, .rest, .quotedInner, .backtickInner].contains r)

namespace Expr

def reads : Expr → Bool
  | one _ => true
  | word lower => !lower.isEmpty
  | seq a b => a.reads || b.reads
  | alt a b => a.reads && b.reads
  | rule r => r.reads
  | empty | finish | opt _ | many _ | more _ | notAt _ => false

-- How deep a match nests before it has read a character, where `of` says so for rules.
def depth (of : Rule → Nat) : Expr → Nat
  | empty | finish | one _ | word _ => 1
  | seq a b => 1 + max (a.depth of) (if a.reads then 0 else b.depth of)
  | alt a b => 1 + max (a.depth of) (b.depth of)
  | opt a | many a | more a | notAt a => 1 + a.depth of
  | rule r => 1 + of r

-- What is matched after a character was read nests no deeper than a character pays for, and
-- repetitions read.
def fits (of : Rule → Nat) : Expr → Bool
  | empty | finish | one _ | word _ | rule _ => true
  | seq a b => a.fits of && b.fits of && decide (b.depth of ≤ nesting)
  | alt a b => a.fits of && b.fits of
  | opt a | notAt a => a.fits of
  | many a | more a => a.fits of && a.reads && decide (a.depth of < nesting)

end Expr

theorem depth_pos (of : Rule → Nat) (e : Expr) : 0 < e.depth of := by
  cases e <;> simp only [Expr.depth] <;> omega

def Rule.depthWithin : Nat → Rule → Nat
  | 0, _ => nesting
  | n + 1, r => r.body.depth (Rule.depthWithin n)

-- Without reading a character, fewer than five rules nest in each other.
def Rule.depth (r : Rule) : Nat := r.depthWithin 4

structure Rule.Modest (r : Rule) : Prop where
  reads : r.reads = true → r.body.reads = true
  fits : r.body.fits Rule.depth = true
  depth : r.body.depth Rule.depth ≤ r.depth
  shallow : r.depth ≤ nesting

instance (r : Rule) : Decidable r.Modest :=
  decidable_of_iff ((r.reads = true → r.body.reads = true) ∧ r.body.fits Rule.depth = true ∧
    r.body.depth Rule.depth ≤ r.depth ∧ r.depth ≤ nesting)
    ⟨fun all => ⟨all.1, all.2.1, all.2.2.1, all.2.2.2⟩,
      fun modest => ⟨modest.reads, modest.fits, modest.depth, modest.shallow⟩⟩

theorem rule_modest (r : Rule) : r.Modest := by
  cases r with
  | keyword word => cases word <;> decide +kernel
  | _ => decide +kernel

/-! ### Progress -/

theorem drop_word_consumes (lower s rest : List Char) (named : lower ≠ [])
    (dropped : dropWord? lower s = some rest) : rest.length < s.length := by
  cases lower with
  | nil => exact absurd rfl named
  | cons a word =>
      cases s with
      | nil => cases dropped
      | cons c s =>
          rw [dropWord?] at dropped
          split at dropped
          · exact Nat.lt_succ_of_le (drop_word_suffix word s rest dropped).length_le
          · cases dropped

theorem rest_shortens (fuel : Nat) (layout : Layout) (e : Expr) (s rest : List Char)
    (trees : List Tree) (met : run fuel layout e s = .matched rest trees) :
    rest.length ≤ s.length := (rest_suffix fuel layout e s rest trees met).length_le

theorem run_consumes (fuel : Nat) (layout : Layout) (e : Expr) (s rest : List Char)
    (trees : List Tree) (reads : e.reads = true)
    (met : run fuel layout e s = .matched rest trees) : rest.length < s.length := by
  induction fuel generalizing layout e s rest trees with
  | zero => cases met
  | succ fuel ih =>
      cases e with
      | empty | finish | opt | many | more | notAt => cases reads
      | one set =>
          cases s with
          | nil => cases met
          | cons c s =>
              rw [run] at met
              split at met
              · cases met
                exact Nat.lt_succ_self _
              · cases met
      | word lower =>
          rw [run] at met
          cases dropped : dropWord? lower s with
          | none =>
              rw [dropped] at met
              cases met
          | some left =>
              rw [dropped] at met
              cases met
              refine drop_word_consumes lower s rest ?_ dropped
              rintro rfl
              cases reads
      | seq a b =>
          obtain ⟨mid, found, first, next⟩ := and_then_matched _ _ _ _ met
          obtain ⟨more, second, -⟩ := prepend_matched _ _ _ _ next
          have skipped := skip_shortens layout mid
          have after := rest_shortens _ _ _ _ _ _ second
          have before := rest_shortens _ _ _ _ _ _ first
          rcases Bool.or_eq_true_iff.mp reads with left | right
          · have shorter := ih layout a s mid found left first
            omega
          · have shorter := ih layout b _ rest more right second
            omega
      | alt a b =>
          obtain ⟨left, right⟩ := Bool.and_eq_true_iff.mp reads
          rcases or_else_matched _ _ _ _ met with first | second
          · exact ih layout a s rest trees left first
          · exact ih layout b s rest trees right second
      | rule r =>
          obtain ⟨mid, found, body, kept⟩ := and_then_matched _ _ _ _ met
          cases kept
          exact ih _ _ s rest found ((rule_modest r).reads reads) body

/-! ### Enough fuel -/

theorem ends_and_then (o : Outcome) (next : List Char → List Tree → Outcome)
    (first : o ≠ .exhausted) (rest : ∀ s trees, o = .matched s trees → next s trees ≠ .exhausted) :
    o.andThen next ≠ .exhausted := by
  cases o with
  | matched s trees => exact rest s trees rfl
  | failed => exact Outcome.noConfusion
  | exhausted => exact absurd rfl first

theorem ends_or_else (o other : Outcome) (first : o ≠ .exhausted) (rest : other ≠ .exhausted) :
    o.orElse other ≠ .exhausted := by
  cases o with
  | matched s trees => exact Outcome.noConfusion
  | failed => exact rest
  | exhausted => exact absurd rfl first

theorem ends_prepend (trees : List Tree) (o : Outcome) (first : o ≠ .exhausted) :
    o.prepend trees ≠ .exhausted := by
  cases o with
  | matched s found => exact Outcome.noConfusion
  | failed => exact Outcome.noConfusion
  | exhausted => exact absurd rfl first

theorem character_pays (rest s : List Char) (shorter : rest.length < s.length) :
    rest.length * nesting + nesting ≤ s.length * nesting := by
  rw [← Nat.succ_mul]
  exact Nat.mul_le_mul_right nesting shorter

theorem run_ends (fuel : Nat) (layout : Layout) (e : Expr) (s : List Char)
    (fits : e.fits Rule.depth = true)
    (enough : s.length * nesting + e.depth Rule.depth ≤ fuel) :
    run fuel layout e s ≠ .exhausted := by
  -- The induction is on the fuel: each character of the text pays for `nesting` levels.
  induction fuel generalizing layout e s with
  | zero =>
      have positive := depth_pos Rule.depth e
      omega
  | succ fuel ih =>
      -- The items of a repetition after its first.
      have later (a : Expr) (mid : List Char) (item : a.fits Rule.depth = true)
          (reads : a.reads = true) (shallow : a.depth Rule.depth < nesting)
          (shorter : mid.length < s.length) (room : s.length * nesting ≤ fuel) :
          run fuel layout (.more a) mid ≠ .exhausted := by
        have paid := character_pays mid s shorter
        refine ih layout (.more a) mid ?_ ?_
        · simp only [Expr.fits, item, reads, shallow, decide_true, Bool.and_self]
        · simp only [Expr.depth]
          omega
      cases e with
      | empty => exact Outcome.noConfusion
      | finish =>
          rw [run]
          split <;> exact Outcome.noConfusion
      | one set =>
          cases s with
          | nil => exact Outcome.noConfusion
          | cons c s =>
              rw [run]
              split <;> exact Outcome.noConfusion
      | word lower =>
          rw [run]
          split <;> exact Outcome.noConfusion
      | seq a b =>
          simp only [Expr.fits, Bool.and_eq_true, decide_eq_true_eq] at fits
          obtain ⟨⟨left, right⟩, shallow⟩ := fits
          simp only [Expr.depth] at enough
          refine ends_and_then _ _ (ih layout a s left (by omega)) fun mid found met => ?_
          refine ends_prepend _ _ (ih layout b _ right ?_)
          have skipped := skip_shortens layout mid
          cases reads : a.reads with
          | true =>
              have shorter := run_consumes _ _ _ _ _ _ reads met
              have paid := character_pays _ s (skipped.trans_lt shorter)
              omega
          | false =>
              have before := rest_shortens _ _ _ _ _ _ met
              have kept := Nat.mul_le_mul_right nesting (skipped.trans before)
              simp only [reads, Bool.false_eq_true, if_false] at enough
              omega
      | alt a b =>
          obtain ⟨left, right⟩ := Bool.and_eq_true_iff.mp fits
          simp only [Expr.depth] at enough
          exact ends_or_else _ _ (ih layout a s left (by omega)) (ih layout b s right (by omega))
      | opt a =>
          simp only [Expr.depth] at enough
          exact ends_or_else _ _ (ih layout a s fits (by omega)) Outcome.noConfusion
      | many a =>
          simp only [Expr.fits, Bool.and_eq_true, decide_eq_true_eq] at fits
          obtain ⟨⟨item, reads⟩, shallow⟩ := fits
          simp only [Expr.depth] at enough
          refine ends_or_else _ _ (ends_and_then _ _ (ih layout a s item (by omega))
            fun mid found met => ends_prepend _ _ ?_) Outcome.noConfusion
          exact later a mid item reads shallow (run_consumes _ _ _ _ _ _ reads met) (by omega)
      | more a =>
          simp only [Expr.fits, Bool.and_eq_true, decide_eq_true_eq] at fits
          obtain ⟨⟨item, reads⟩, shallow⟩ := fits
          simp only [Expr.depth] at enough
          have skipped := skip_shortens layout s
          have kept := Nat.mul_le_mul_right nesting skipped
          refine ends_or_else _ _ (ends_and_then _ _ (ih layout a _ item (by omega))
            fun mid found met => ends_prepend _ _ ?_) Outcome.noConfusion
          have shorter := run_consumes _ _ _ _ _ _ reads met
          exact later a mid item reads shallow (shorter.trans_le skipped) (by omega)
      | notAt a =>
          simp only [Expr.depth] at enough
          have inner := ih layout a s fits (by omega)
          rw [run]
          split
          · exact Outcome.noConfusion
          · exact Outcome.noConfusion
          · exact absurd ‹_› inner
      | rule r =>
          simp only [Expr.depth] at enough
          have nested := (rule_modest r).depth
          exact ends_and_then _ _ (ih _ r.body s (rule_modest r).fits (by omega))
            fun _ _ _ => Outcome.noConfusion

theorem fuel_suffices (layout : Layout) (r : Rule) (s : List Char) :
    run (fuelFor s) layout (.rule r) s ≠ .exhausted := by
  refine run_ends (fuelFor s) layout (.rule r) s rfl ?_
  have shallow := (rule_modest r).shallow
  simp only [Expr.depth, fuelFor, nesting] at shallow ⊢
  omega

end SchemaDrift.Grammar
