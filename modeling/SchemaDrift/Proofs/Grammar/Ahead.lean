import SchemaDrift.Proofs.Grammar.DefaultTerm
import SchemaDrift.Proofs.Grammar.Following
import SchemaDrift.Proofs.Grammar.Inversion
/-!
A text that is read by itself, and again in front of the end of an item. Expressions that no comma,
closing parenthesis or line break goes on with are read the same from both.
-/

set_option autoImplicit false

namespace SchemaDrift.Grammar

/-! ### Places -/

-- No comment opens anywhere in the text, not even in a literal.
def uncommented : List Char → Bool
  | [] => true
  | c :: s => !opensComment (c :: s) && uncommented s

theorem uncommented_suffix (s t : List Char) (bare : uncommented s = true) (suffix : t <:+ s) :
    uncommented t = true := by
  induction s with
  | nil => exact List.suffix_nil.mp suffix ▸ bare
  | cons c s ih =>
      rcases List.suffix_cons_iff.mp suffix with rfl | inside
      · exact bare
      · exact ih (Bool.and_eq_true_iff.mp bare).2 inside

-- The same place in both texts: in the text itself, or behind it and the layout that follows it.
inductive Ahead (rest : List Char) : List Char → List Char → Prop
  | inside (s : List Char) : Ahead rest s (s ++ rest)
  | past : Ahead rest [] (skipLayout rest)

section Ahead

variable (rest : List Char) (ends : EndsItem rest)

include ends

theorem ahead_tail (s u : List Char) (ahead : Ahead rest s u) :
    ∃ tail, u = s ++ tail ∧ EndsItem tail ∧ ∀ left, left <:+ s → Ahead rest left (left ++ tail) := by
  cases ahead with
  | inside => exact ⟨rest, rfl, ends, fun left _ => .inside left⟩
  | past =>
      obtain ⟨c, t, member, skipped⟩ := skip_item_end rest ends
      refine ⟨skipLayout rest, rfl, skipped ▸ ends_item_cons c t member, fun left suffix => ?_⟩
      rw [List.suffix_nil.mp suffix]
      exact .past

theorem tail_head (s u : List Char) (ahead : Ahead rest s u) (c : Char) (head : u.head? = some c) :
    s.head? = some c ∨ s = [] ∧ c ∈ [',', ')', ';', '\n'] := by
  obtain ⟨tail, rfl, item, -⟩ := ahead_tail rest ends s u ahead
  cases s with
  | cons d s => exact .inl head
  | nil =>
      obtain ⟨d, first, member⟩ := item_end_char tail item
      obtain rfl := Option.some.inj (first.symm.trans head)
      exact .inr ⟨rfl, member⟩

theorem ahead_end (u : List Char) (solid : skipLayout u = u) (ahead : Ahead rest [] u) :
    ∃ c t, c ∈ [',', ')', ';'] ∧ u = c :: t := by
  obtain ⟨c, t, member, next⟩ := skip_item_end rest ends
  refine ⟨c, t, member, ?_⟩
  cases ahead with
  | inside => exact solid.symm.trans next
  | past => exact next

theorem skip_ahead (s u : List Char) (bare : uncommented s = true) (ahead : Ahead rest s u) :
    Ahead rest (skipLayout s) (skipLayout u) := by
  cases ahead with
  | past =>
      rw [skip_again, skip_nothing]
      exact .past
  | inside =>
      have visible : uncommented (skipSpaces s) = true :=
        uncommented_suffix s _ bare (List.dropWhile_suffix isSpace)
      have parts : s.takeWhile isSpace ++ skipSpaces s = s := List.takeWhile_append_dropWhile
      have blank : Blank (s.takeWhile isSpace) := fun c member => List.mem_takeWhile_imp member
      have skipped (tail : List Char) : skipLayout (s ++ tail) = skipLayout (skipSpaces s ++ tail) := by
        conv_lhs => rw [← parts, List.append_assoc, skip_blanks _ _ blank]
      have alone := skipped []
      rw [List.append_nil, List.append_nil] at alone
      rw [skipped rest, alone]
      cases first : skipSpaces s with
      | nil =>
          rw [List.nil_append, skip_nothing]
          exact .past
      | cons c t =>
          rw [first] at visible
          have ink : isSpace c = false := by
            have other := List.head?_dropWhile_not isSpace s
            rw [show s.dropWhile isSpace = c :: t from first] at other
            simpa using other
          have solid (w : List Char) (plain : opensComment (c :: w) = false) :
              skipLayout (c :: w) = c :: w := by
            have spaces : skipSpaces (c :: w) = c :: w :=
              List.dropWhile_cons_of_neg (Bool.eq_false_iff.mp ink)
            rw [skip_layout_none _ (spaces.symm ▸ no_comment _ plain), spaces]
          have plain : opensComment (c :: t) = false := by
            simpa using (Bool.and_eq_true_iff.mp visible).1
          have before : opensComment (c :: (t ++ rest)) = false := by
            cases t with
            | cons d t =>
                unfold opensComment at plain ⊢
                split <;> simp_all
            | nil =>
                obtain ⟨d, head, member⟩ := item_end_char rest ends
                obtain ⟨w, rfl⟩ := List.head?_eq_some_iff.mp head
                unfold opensComment
                split <;> simp_all
          rw [List.cons_append, solid _ plain, solid _ before]
          exact .inside (c :: t)

end Ahead

theorem text_ahead (r : Rule) (s left tail : List Char) (suffix : left <:+ s)
    (children others : List Tree) :
    (Tree.node r s left children).text = (Tree.node r (s ++ tail) (left ++ tail) others).text := by
  obtain ⟨front, rfl⟩ := suffix
  rw [tree_text, List.append_assoc, tree_text]

/-! ### Steady expressions -/

def CharSet.isSteady : CharSet → Bool
  | only c => !([',', ')', ';', '\n'].contains c)
  | digit | identifierStart | identifier => true
  | all | blank => false

def Rule.isToken (r : Rule) : Bool := decide (r.layout = .token) && r.body.isWordy

def Expr.isSteady (known : Rule → Bool) : Expr → Bool
  | empty => true
  | finish => false
  | one set => set.isSteady
  | word lower => lower.all CharSet.identifier.has
  | seq a b | alt a b => a.isSteady known && b.isSteady known
  | opt a | many a | more a | notAt a => a.isSteady known
  | rule r => known r

def Rule.steadyWithin : Nat → Rule → Bool
  | 0, r => r.isToken
  | n + 1, r => r.isToken ||
    decide (r.layout = .free) && !r.keepsText && r.body.isSteady (Rule.steadyWithin n)

theorem steady_refuses (set : CharSet) (steady : set.isSteady = true) (c : Char)
    (member : c ∈ [',', ')', ';', '\n']) : set.has c = false := by
  cases set with
  | all | blank => cases steady
  | digit | identifierStart | identifier =>
      simp only [List.mem_cons, List.not_mem_nil, or_false] at member
      rcases member with rfl | rfl | rfl | rfl <;> rfl
  | only a =>
      refine decide_eq_false ?_
      rintro rfl
      rw [CharSet.isSteady, List.contains_iff_mem.mpr member] at steady
      cases steady

section Steady

variable (rest : List Char) (ends : EndsItem rest)

include ends

theorem token_follows (fuel : Nat) (r : Rule) (token : r.isToken = true) (s u : List Char)
    (ahead : Ahead rest s u) :
    (run (fuel + 1) .free (.rule r) s).Follows (Ahead rest) (run (fuel + 1) .free (.rule r) u) := by
  obtain ⟨alone, wordy⟩ := Bool.and_eq_true_iff.mp token
  have layout : r.layoutIn .free = .token := by rw [Rule.layoutIn, of_decide_eq_true alone]
  obtain ⟨tail, rfl, item, places⟩ := ahead_tail rest ends s u ahead
  rw [run, run, layout, wordy_before fuel r.body s tail wordy (ends_item_apart tail item)]
  have shaped := run_shaped fuel .token r.body s
  cases met : run fuel .token r.body s with
  | failed => rfl
  | exhausted => trivial
  | matched left trees =>
      rw [met] at shaped
      have suffix := rest_suffix _ _ _ _ _ _ met
      exact ⟨left ++ tail, _, rfl, places left suffix, .cons (.node r _ _ _ _ trees trees
        (fun tree member => (shaped tree member).2)
        (fun _ => .inl (text_ahead r s left tail suffix trees trees))
        (all_correspond trees fun tree member => (shaped tree member).1)) .nil⟩

theorem steady_follows (fuel n : Nat) (e : Expr) (steady : e.isSteady (Rule.steadyWithin n) = true)
    (s u : List Char) (bare : uncommented s = true) (ahead : Ahead rest s u) :
    (run fuel .free e s).Follows (Ahead rest) (run fuel .free e u) := by
  -- One case for each operator; `n` bounds how far rules nest.
  have none (s u : List Char) (ahead : Ahead rest s u) :
      (Outcome.matched s []).Follows (Ahead rest) (.matched u []) := ⟨u, [], rfl, ahead, .nil⟩
  induction fuel generalizing n e s u with
  | zero => trivial
  | succ fuel ih =>
      have items (a : Expr) (first : a.isSteady (Rule.steadyWithin n) = true) (s u start place : List Char)
          (bare : uncommented s = true) (ahead : Ahead rest s u) (same : Ahead rest start place) :
          (((run fuel .free a s).andThen fun left trees =>
              (run fuel .free (.more a) left).prepend trees).orElse (.matched start [])).Follows
            (Ahead rest) (((run fuel .free a u).andThen fun left trees =>
              (run fuel .free (.more a) left).prepend trees).orElse (.matched place [])) := by
        refine follows_or_else _ _ _ _ _ (follows_and_then _ _ _ _ _ (ih n a first s u bare ahead)
          fun left trees there found met between alike => ?_) fun _ => none start place same
        exact follows_prepend _ trees found _ _ alike (ih n (.more a) first left there
          (uncommented_suffix s left bare (rest_suffix _ _ _ _ _ _ met)) between)
      cases e with
      | empty => exact none s u ahead
      | finish => cases steady
      | one set =>
          obtain ⟨tail, rfl, item, places⟩ := ahead_tail rest ends s u ahead
          cases s with
          | cons c s =>
              rw [List.cons_append, run, run]
              split
              · exact none s (s ++ tail) (places s (List.suffix_cons c s))
              · rfl
          | nil =>
              obtain ⟨c, head, member⟩ := item_end_char tail item
              obtain ⟨t, rfl⟩ := List.head?_eq_some_iff.mp head
              have outside := steady_refuses set steady c member
              rw [List.nil_append, run, run, if_neg (Bool.eq_false_iff.mp outside)]
              rfl
      | word lower =>
          obtain ⟨tail, rfl, item, places⟩ := ahead_tail rest ends s u ahead
          rw [run, run, drop_word_apart lower s tail (ends_item_apart tail item)
            (List.all_eq_true.mp steady)]
          cases dropped : dropWord? lower s with
          | none => rfl
          | some left => exact none left (left ++ tail) (places left (drop_word_suffix _ _ _ dropped))
      | seq a b =>
          obtain ⟨first, second⟩ := Bool.and_eq_true_iff.mp steady
          refine follows_and_then _ _ _ _ _ (ih n a first s u bare ahead)
            fun left trees there found met between alike => ?_
          have left_bare := uncommented_suffix s left bare (rest_suffix _ _ _ _ _ _ met)
          exact follows_prepend _ trees found _ _ alike (ih n b second _ _
            (uncommented_suffix left _ left_bare (skip_layout_suffix left))
            (skip_ahead rest ends left there left_bare between))
      | alt a b =>
          obtain ⟨first, second⟩ := Bool.and_eq_true_iff.mp steady
          exact follows_or_else _ _ _ _ _ (ih n a first s u bare ahead)
            fun _ => ih n b second s u bare ahead
      | opt a =>
          exact follows_or_else _ _ _ _ _ (ih n a steady s u bare ahead) fun _ => none s u ahead
      | many a => exact items a steady s u s u bare ahead ahead
      | more a =>
          exact items a steady _ _ s u (uncommented_suffix s _ bare (skip_layout_suffix s))
            (skip_ahead rest ends s u bare ahead) ahead
      | notAt a =>
          have inner := ih n a steady s u bare ahead
          rw [run, run]
          cases found : run fuel .free a s with
          | matched left trees =>
              rw [found] at inner
              obtain ⟨_, _, other, _⟩ := inner
              rw [other]
              rfl
          | failed =>
              rw [found] at inner
              rw [inner]
              exact none s u ahead
          | exhausted => trivial
      | rule r =>
          have token (token : r.isToken = true) := token_follows rest ends fuel r token s u ahead
          cases n with
          | zero => exact token steady
          | succ n =>
              rcases Bool.or_eq_true_iff.mp steady with wordy | inside
              · exact token wordy
              · obtain ⟨free, body⟩ := Bool.and_eq_true_iff.mp inside
                obtain ⟨free, forgets⟩ := Bool.and_eq_true_iff.mp free
                have layout : r.layoutIn .free = .free := by rw [Rule.layoutIn, of_decide_eq_true free]
                rw [run, run, layout]
                refine follows_and_then _ _ _ _ _ (ih n r.body body s u bare ahead)
                  fun left trees there found met between alike => ⟨there, _, rfl, between, ?_⟩
                have shaped := run_shaped fuel .free r.body s
                rw [met] at shaped
                refine .cons (.node r _ _ _ _ _ _ (fun tree member => (shaped tree member).2)
                  (fun keeps => ?_) alike) .nil
                rw [Bool.not_eq_true', keeps] at forgets
                cases forgets

theorem steady_given (n : Nat) (e : Expr) (steady : e.isSteady (Rule.steadyWithin n) = true)
    (s u : List Char) (bare : uncommented s = true) (ahead : Ahead rest s u) :
    (Gives .free e s .failed → Gives .free e u .failed) ∧
      ∀ left trees, Gives .free e s (.matched left trees) → ∃ there found,
        Gives .free e u (.matched there found) ∧ Ahead rest left there ∧
          List.Forall₂ Tree.Corresponds trees found := by
  constructor
  · rintro ⟨fuel, given⟩
    have follows := steady_follows rest ends fuel n e steady s u bare ahead
    rw [given fuel (Nat.le_refl fuel)] at follows
    exact gives_met _ _ _ _ _ follows Outcome.noConfusion
  · rintro left trees ⟨fuel, given⟩
    have follows := steady_follows rest ends fuel n e steady s u bare ahead
    rw [given fuel (Nat.le_refl fuel)] at follows
    obtain ⟨there, found, met, between, alike⟩ := follows
    exact ⟨there, found, gives_met _ _ _ _ _ met Outcome.noConfusion, between, alike⟩

end Steady

end SchemaDrift.Grammar
