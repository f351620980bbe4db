import SchemaDrift.Proofs.Grammar.Following
/-!
Matching in two texts that differ in layout at one place. Where the one match passes over that place
as layout, in all that it attempts, the other takes the same course, and the parts that it finds
have the same texts, where a text is kept at all.
-/

set_option autoImplicit false

namespace SchemaDrift.Grammar

def Expr.peeks : Expr → Bool
  | one _ => true
  | alt a b => a.peeks && b.peeks
  | _ => false

def Layout.spares (after : Nat) : Layout → List Char → Bool
  | free, s => sparesLayout after s
  | tight, _ | token, _ => true

-- The run on the same arguments reads the space in front of the last `after` characters as layout
-- wherever it comes to it, and in no part of which the text is kept. A name of two words is read in
-- one attempt, and where there is no second word the first is the name.
def spares (after : Nat) : Nat → Layout → Expr → List Char → Bool
  | 0, _, _, _ => true
  | fuel + 1, layout, e, s => decide (s.length ≤ after) || match e with
    | .empty | .finish => true
    | .one set => decide (s.length ≠ after + 1) || !set.has ' '
    | .word lower => !lower.contains ' '
    | .seq a b => spares after fuel layout a s && match run fuel layout a s with
      | .matched rest _ => layout.spares after rest && spares after fuel layout b (layout.skip rest)
      | _ => true
    | .alt a b => spares after fuel layout a s && match run fuel layout a s with
      | .failed => spares after fuel layout b s
      | _ => true
    | .opt a => spares after fuel layout a s
    | .many a => spares after fuel layout a s && match run fuel layout a s with
      | .matched rest _ => spares after fuel layout (.more a) rest
      | _ => true
    | .more a => layout.spares after s && spares after fuel layout a (layout.skip s) &&
      match run fuel layout a (layout.skip s) with
      | .matched rest _ => spares after fuel layout (.more a) rest
      | _ => true
    | .notAt a => a.peeks || spares after fuel layout a s
    | .rule r => (decide (r = .typeName) || spares after fuel (r.layoutIn layout) r.body s) &&
      match run fuel (r.layoutIn layout) r.body s with
      | .matched rest _ => !r.keepsText || decide (after < rest.length)
      | _ => true

section Follows

variable (old new : List Char)

theorem drop_word_before (lower s : List Char) (free : ' ' ∉ lower) :
    (∀ rest, dropWord? lower (s ++ ' ' :: rest) = none) ∨
      ∃ r, ∀ rest, dropWord? lower (s ++ ' ' :: rest) = some (r ++ ' ' :: rest) := by
  induction lower generalizing s with
  | nil => exact .inr ⟨s, fun _ => rfl⟩
  | cons a lower ih =>
      obtain ⟨other, free⟩ := List.ne_and_not_mem_of_not_mem_cons free
      cases s with
      | nil =>
          have differs : (' ').toLower ≠ a := fun same => other (same ▸ rfl)
          exact .inl fun rest => if_neg differs
      | cons c s =>
          by_cases same : c.toLower = a
          · rcases ih s free with none | ⟨r, found⟩
            · exact .inl fun rest => (if_pos same).trans (none rest)
            · exact .inr ⟨r, fun rest => (if_pos same).trans (found rest)⟩
          · exact .inl fun rest => if_neg same

theorem same_head (s : List Char) :
    ∃ c r x, s ++ ' ' :: old = c :: r ∧ s ++ ' ' :: new = c :: x := by
  cases s with
  | nil => exact ⟨' ', old, new, rfl, rfl⟩
  | cons c s => exact ⟨c, _, _, rfl, rfl⟩

theorem peeks_alike (fuel : Nat) (layout : Layout) (e : Expr) (peeks : e.peeks = true) (c : Char)
    (s r : List Char) :
    (run fuel layout e (c :: s) = .exhausted ∧ run fuel layout e (c :: r) = .exhausted) ∨
      (run fuel layout e (c :: s) = .failed ∧ run fuel layout e (c :: r) = .failed) ∨
      (run fuel layout e (c :: s) = .matched s [] ∧ run fuel layout e (c :: r) = .matched r []) := by
  induction e generalizing fuel with
  | one set =>
      cases fuel with
      | zero => exact .inl ⟨rfl, rfl⟩
      | succ fuel =>
          by_cases inside : set.has c = true
          · exact .inr (.inr ⟨if_pos inside, if_pos inside⟩)
          · exact .inr (.inl ⟨if_neg inside, if_neg inside⟩)
  | alt a b first second =>
      obtain ⟨left, right⟩ := Bool.and_eq_true_iff.mp peeks
      cases fuel with
      | zero => exact .inl ⟨rfl, rfl⟩
      | succ fuel =>
          rw [run, run]
          rcases first fuel left with ⟨one, two⟩ | ⟨one, two⟩ | ⟨one, two⟩
          · exact .inl (by simp [one, two, Outcome.orElse])
          · rw [one, two]
            exact second fuel right
          · exact .inr (.inr (by simp [one, two, Outcome.orElse]))
  | _ => cases peeks

theorem skip_place (same : skipLayout new = skipLayout old) (layout : Layout) (s place : List Char)
    (here : SamePlace old new s place) (spared : layout.spares old.length s = true) :
    SamePlace old new (layout.skip s) (layout.skip place) := by
  cases layout with
  | free =>
      cases here with
      | before s => exact skip_layout_before old new same s spared
      | after s short => exact .after _ ((skip_layout_length s).trans short)
  | tight | token => exact here

theorem text_before (r : Rule) (s rest : List Char) (children others : List Tree) :
    (Tree.node r (s ++ ' ' :: old) (rest ++ ' ' :: old) children).text
      = (Tree.node r (s ++ ' ' :: new) (rest ++ ' ' :: new) others).text := by
  have whole (tail : List Char) :
      (s ++ ' ' :: tail).length - (rest ++ ' ' :: tail).length = s.length - rest.length := by
    simp only [List.length_append, List.length_cons]
    omega
  rw [Tree.text, Tree.text, whole, whole, List.take_append_of_le_length (Nat.sub_le _ _),
    List.take_append_of_le_length (Nat.sub_le _ _)]

-- What this says of a match with so much fuel is shown with less fuel first.
def Passes (fuel : Nat) : Prop := ∀ layout e s place, SamePlace old new s place →
  spares old.length fuel layout e s = true →
    (run fuel layout e s).Follows (SamePlace old new) (run fuel layout e place)

/-! ### Names of two words -/

def Expr.blankFree : Expr → Bool
  | empty | finish => true
  | one set => !set.has ' '
  | word lower => !lower.contains ' '
  | seq a b | alt a b => a.blankFree && b.blankFree
  | opt a | many a | more a | notAt a => a.blankFree
  | rule _ => false

theorem blank_free_spares (after fuel : Nat) (e : Expr) (s : List Char)
    (free : e.blankFree = true) : spares after fuel .token e s = true := by
  induction fuel generalizing e s with
  | zero => rfl
  | succ fuel ih =>
      unfold spares
      rw [Bool.or_eq_true]
      right
      cases e with
      | empty | finish => rfl
      | one set => exact Bool.or_eq_true_iff.mpr (.inr free)
      | word => exact free
      | seq a b =>
          obtain ⟨first, second⟩ := Bool.and_eq_true_iff.mp free
          refine Bool.and_eq_true_iff.mpr ⟨ih a s first, ?_⟩
          split
          · exact Bool.and_eq_true_iff.mpr ⟨rfl, ih b _ second⟩
          · rfl
      | alt a b =>
          obtain ⟨first, second⟩ := Bool.and_eq_true_iff.mp free
          refine Bool.and_eq_true_iff.mpr ⟨ih a s first, ?_⟩
          split
          · exact ih b s second
          · rfl
      | opt a => exact ih a s free
      | many a =>
          refine Bool.and_eq_true_iff.mpr ⟨ih a s free, ?_⟩
          split
          · exact ih (.more a) _ free
          · rfl
      | more a =>
          refine Bool.and_eq_true_iff.mpr ⟨Bool.and_eq_true_iff.mpr ⟨rfl, ih a _ free⟩, ?_⟩
          split
          · exact ih (.more a) _ free
          · rfl
      | notAt a => exact Bool.or_eq_true_iff.mpr (.inr (ih a s free))
      | rule => cases free

theorem run_spaces (fuel : Nat) (s : List Char) : run fuel .token (.many (.one .blank)) s
    = if s.length + 2 ≤ fuel + (skipSpaces s).length then .matched (skipSpaces s) []
      else .exhausted := by
  induction fuel generalizing s with
  | zero =>
      have short := skipSpaces_length s
      exact (if_neg (by omega)).symm
  | succ fuel ih =>
      rw [run]
      cases fuel with
      | zero =>
          have short := skipSpaces_length s
          exact (if_neg (by omega)).symm
      | succ fuel =>
          cases s with
          | nil => exact (if_pos (by simp only [List.length_nil]; omega)).symm
          | cons c s =>
              by_cases space : isSpace c = true
              · have skipped : skipSpaces (c :: s) = skipSpaces s :=
                  List.dropWhile_cons_of_pos space
                have one : run (fuel + 1) .token (.one .blank) (c :: s) = .matched s [] :=
                  if_pos space
                rw [one, skipped, Outcome.andThen, more_in_token, ih]
                by_cases enough : s.length + 2 ≤ fuel + 1 + (skipSpaces s).length
                · rw [if_pos enough, if_pos (by simp only [List.length_cons]; omega)]
                  rfl
                · rw [if_neg enough, if_neg (by simp only [List.length_cons]; omega)]
                  rfl
              · have skipped : skipSpaces (c :: s) = c :: s := List.dropWhile_cons_of_neg space
                have one : run (fuel + 1) .token (.one .blank) (c :: s) = .failed := if_neg space
                rw [one, skipped, if_pos (by omega)]
                rfl

theorem run_blanks (fuel : Nat) (c : Char) (s : List Char) (space : isSpace c = true) :
    run fuel .token blanks (c :: s) = run fuel .token (.many (.one .blank)) (c :: s) := by
  rcases fuel with _ | _ | fuel
  · rfl
  · rfl
  · have one : run (fuel + 1) .token (.one .blank) (c :: s) = .matched s [] := if_pos space
    change (run (fuel + 1) .token (.one .blank) (c :: s)).andThen
        (fun rest trees => (run (fuel + 1) .token (.many (.one .blank)) rest).prepend trees)
      = ((run (fuel + 1) .token (.one .blank) (c :: s)).andThen fun rest trees =>
        (run (fuel + 1) .token (.more (.one .blank)) rest).prepend trees).orElse (.matched (c :: s) [])
    rw [one, Outcome.andThen, Outcome.andThen, more_in_token, run_spaces]
    split <;> rfl

-- The outcome is the same in the other text, or in both the space was read as white space.
def Outcome.Meets (o other : Outcome) : Prop :=
  o.Follows (SamePlace old new) other ∨ (o = .matched (skipSpaces old) [] ∧ other = .matched new [])

theorem blanks_before (mark : new.head? = some '/') (fuel : Nat) (s : List Char) :
    (run fuel .token blanks (s ++ ' ' :: old)).Meets old new
      (run fuel .token blanks (s ++ ' ' :: new)) := by
  have stop : skipSpaces new = new := by
    cases new with
    | nil => cases mark
    | cons c new =>
        cases mark
        rfl
  have short := skipSpaces_length old
  obtain ⟨c, r, x, one, two⟩ := same_head old new s
  by_cases space : isSpace c = true
  · have spaces (rest r : List Char) (head : s ++ ' ' :: rest = c :: r) :
        run fuel .token blanks (s ++ ' ' :: rest)
          = if (s ++ ' ' :: rest).length + 2 ≤ fuel + (skipSpaces (s ++ ' ' :: rest)).length
            then .matched (skipSpaces (s ++ ' ' :: rest)) [] else .exhausted := by
      rw [head, run_blanks fuel c r space, run_spaces]
    rw [spaces old r one, spaces new x two]
    rcases skip_spaces_before s with gone | ⟨y, _, _, kept⟩
    · rw [gone, gone, stop]
      simp only [List.length_append, List.length_cons]
      by_cases enough : s.length + (old.length + 1) + 2 ≤ fuel + (skipSpaces old).length
      · rw [if_pos enough, if_pos (by omega)]
        exact .inr ⟨rfl, rfl⟩
      · rw [if_neg enough]
        exact .inl trivial
    · rw [kept, kept]
      simp only [List.length_append, List.length_cons]
      by_cases enough : s.length + (old.length + 1) + 2 ≤ fuel + (y.length + (old.length + 1))
      · rw [if_pos enough, if_pos (by omega)]
        exact .inl ⟨_, [], rfl, .before y, .nil⟩
      · rw [if_neg enough]
        exact .inl trivial
  · rw [one, two]
    rcases fuel with _ | _ | fuel
    · exact .inl trivial
    · exact .inl trivial
    · have failed (r : List Char) : run (fuel + 2) .token blanks (c :: r) = .failed := by
        have one : run (fuel + 1) .token (.one .blank) (c :: r) = .failed := if_neg space
        change (run (fuel + 1) .token (.one .blank) (c :: r)).andThen _ = _
        rw [one]
        rfl
      rw [failed, failed]
      exact .inl rfl

def Expr.twoWords (v w : String) : Expr := .word v.toList ++ blanks ++ .wholeWord w

theorem first_word_before (mark : new.head? = some '/') (fuel : Nat) (v : String)
    (letters : ' ' ∉ v.toList) (s : List Char) :
    (run fuel .token (.word v.toList ++ blanks) (s ++ ' ' :: old)).Meets old new
      (run fuel .token (.word v.toList ++ blanks) (s ++ ' ' :: new)) := by
  rcases fuel with _ | _ | fuel
  · exact .inl trivial
  · exact .inl trivial
  · have parts (rest : List Char) : run (fuel + 2) .token (.word v.toList ++ blanks) rest
        = (run (fuel + 1) .token (.word v.toList) rest).andThen fun rest trees =>
          (run (fuel + 1) .token blanks rest).prepend trees := rfl
    rw [parts, parts]
    rcases drop_word_before v.toList s letters with none | ⟨r, found⟩
    · left
      simp only [run, none]
      rfl
    · have read (rest : List Char) : run (fuel + 1) .token (.word v.toList) (s ++ ' ' :: rest)
          = .matched (r ++ ' ' :: rest) [] := by
        rw [run, found]
      rw [read, read]
      rcases blanks_before old new mark (fuel + 1) r with follows | ⟨one, two⟩
      · exact .inl (follows_prepend (SamePlace old new) [] [] _ _ .nil follows)
      · exact .inr (by simp [Outcome.andThen, one, two, Outcome.prepend])

theorem second_word_refused (mark : new.head? = some '/') (fuel : Nat) (w : String)
    (letter : ∀ rest, dropWord? w.toList ('/' :: rest) = none)
    (ends : run fuel .token (.wholeWord w) (skipSpaces old) ≠ .exhausted) :
    run fuel .token (.wholeWord w) new = .failed := by
  rcases fuel with _ | _ | fuel
  · exact absurd rfl ends
  · exact absurd rfl ends
  · cases new with
    | nil => cases mark
    | cons c new =>
        cases mark
        change (run (fuel + 1) .token (.word w.toList) ('/' :: new)).andThen _ = _
        rw [run, letter]
        rfl

theorem two_words_follow (mark : new.head? = some '/') (fuel : Nat)
    (below : ∀ m < fuel, Passes old new m) (v w : String) (first : ' ' ∉ v.toList)
    (second : ' ' ∉ w.toList) (letter : ∀ rest, dropWord? w.toList ('/' :: rest) = none)
    (s : List Char) (apart : ∀ rest trees, run fuel .token (.twoWords v w) (s ++ ' ' :: old)
      = .matched rest trees → old.length < rest.length) :
    (run fuel .token (.twoWords v w) (s ++ ' ' :: old)).Follows (SamePlace old new)
      (run fuel .token (.twoWords v w) (s ++ ' ' :: new)) := by
  rcases fuel with _ | fuel
  · trivial
  · have parts (rest : List Char) : run (fuel + 1) .token (.twoWords v w) rest
        = (run fuel .token (.word v.toList ++ blanks) rest).andThen fun rest trees =>
          (run fuel .token (.wholeWord w) rest).prepend trees := rfl
    rw [parts] at apart
    rw [parts, parts]
    rcases first_word_before old new mark fuel v first s with follows | ⟨one, two⟩
    · refine follows_and_then (SamePlace old new) _ _ _ _ follows fun rest trees place found _ between alike =>
        follows_prepend (SamePlace old new) trees found _ _ alike
          (below fuel (Nat.lt_succ_self _) .token _ rest place between
            (blank_free_spares _ _ _ _ ?_))
      have letters : (!w.toList.contains ' ') = true := by simpa using second
      exact Bool.and_eq_true_iff.mpr ⟨letters, by decide⟩
    · rw [one, Outcome.andThen] at apart
      rw [one, two, Outcome.andThen, Outcome.andThen]
      have refused := second_word_refused old new mark fuel w letter
      cases met : run fuel .token (.wholeWord w) (skipSpaces old) with
      | matched rest trees =>
          have far := apart rest trees (by rw [met]; rfl)
          have near := (rest_suffix _ _ _ _ _ _ met).length_le
          exact absurd (near.trans (skipSpaces_length old)) (Nat.not_le_of_lt far)
      | exhausted => trivial
      | failed =>
          rw [refused (by simp [met])]
          rfl

theorem type_name_follows (mark : new.head? = some '/') (fuel : Nat)
    (below : ∀ m < fuel, Passes old new m) (s : List Char)
    (apart : ∀ rest trees, run fuel .token Rule.typeName.body (s ++ ' ' :: old)
      = .matched rest trees → old.length < rest.length) :
    (run fuel .token Rule.typeName.body (s ++ ' ' :: old)).Follows (SamePlace old new)
      (run fuel .token Rule.typeName.body (s ++ ' ' :: new)) := by
  rcases fuel with _ | _ | fuel
  · trivial
  · trivial
  · refine follows_or_else (SamePlace old new) _ _ _ _
      (follows_or_else (SamePlace old new) _ _ _ _ ?_ fun failed => ?_)
      fun _ => below (fuel + 1) (by omega) .token _ _ _ (.before s) (blank_free_spares _ _ _ _ rfl)
    · refine two_words_follow old new mark fuel (fun m less => below m (by omega)) "double"
        "precision" (by decide) (by decide) (fun _ => rfl) s fun rest trees met => apart rest trees ?_
      change ((run fuel .token (.twoWords "double" "precision") _).orElse _).orElse _ = _
      rw [met]
      rfl
    · refine two_words_follow old new mark fuel (fun m less => below m (by omega)) "character"
        "varying" (by decide) (by decide) (fun _ => rfl) s fun rest trees met => apart rest trees ?_
      change ((run fuel .token _ _).orElse
        (run fuel .token (.twoWords "character" "varying") _)).orElse _ = _
      rw [failed, met]
      rfl

/-! ### Every expression -/

theorem run_follows (mark : new.head? = some '/') (same : skipLayout new = skipLayout old)
    (fuel : Nat) : Passes old new fuel := by
  induction fuel using Nat.strong_induction_on with
  | _ fuel below =>
    intro layout e s place here spared
    cases fuel with
    | zero => trivial
    | succ fuel =>
      have ih := below fuel (Nat.lt_succ_self _)
      cases here with
      | after s short =>
          refine follows_self (SamePlace old new) _ (fun rest trees met => .after rest ?_) _
            (run_shaped _ _ _ _)
          exact (rest_suffix _ _ _ _ _ _ met).length_le.trans short
      | before s =>
          have ahead : decide ((s ++ ' ' :: old).length ≤ old.length) = false := by
            simp only [List.length_append, List.length_cons, decide_eq_false_iff_not]
            omega
          unfold spares at spared
          rw [ahead, Bool.false_or] at spared
          cases e with
          | empty => exact ⟨_, [], rfl, .before s, .nil⟩
          | finish => simp [run, Outcome.Follows]
          | one set =>
              cases s with
              | nil =>
                  have outside : set.has ' ' = false := by simpa using spared
                  simp [run, outside, Outcome.Follows]
              | cons c s =>
                  by_cases inside : set.has c = true
                  · simp only [List.cons_append, run, if_pos inside]
                    exact ⟨_, [], rfl, .before s, .nil⟩
                  · simp only [List.cons_append, run, if_neg inside]
                    rfl
          | word lower =>
              rcases drop_word_before lower s (by simpa using spared) with none | ⟨r, found⟩
              · simp only [run, none]
                rfl
              · simp only [run, found]
                exact ⟨_, [], rfl, .before r, .nil⟩
          | seq a b =>
              obtain ⟨first, rest⟩ := Bool.and_eq_true_iff.mp spared
              refine follows_and_then (SamePlace old new) _ _ _ _ (ih layout a _ _ (.before s) first)
                fun here trees there found met between alike => ?_
              rw [met] at rest
              obtain ⟨passed, second⟩ := Bool.and_eq_true_iff.mp rest
              exact follows_prepend (SamePlace old new) trees found _ _ alike
                (ih layout b _ _ (skip_place old new same layout here there between passed) second)
          | alt a b =>
              obtain ⟨first, rest⟩ := Bool.and_eq_true_iff.mp spared
              refine follows_or_else (SamePlace old new) _ _ _ _ (ih layout a _ _ (.before s) first)
                fun failed => ?_
              rw [failed] at rest
              exact ih layout b _ _ (.before s) rest
          | opt a =>
              exact follows_or_else (SamePlace old new) _ _ _ _ (ih layout a _ _ (.before s) spared)
                fun _ => ⟨_, [], rfl, .before s, .nil⟩
          | many a =>
              obtain ⟨first, rest⟩ := Bool.and_eq_true_iff.mp spared
              refine follows_or_else (SamePlace old new) _ _ _ _
                (follows_and_then (SamePlace old new) _ _ _ _ (ih layout a _ _ (.before s) first)
                  fun here trees there found met between alike => ?_)
                fun _ => ⟨_, [], rfl, .before s, .nil⟩
              rw [met] at rest
              exact follows_prepend (SamePlace old new) trees found _ _ alike
                (ih layout (.more a) here there between rest)
          | more a =>
              obtain ⟨front, rest⟩ := Bool.and_eq_true_iff.mp spared
              obtain ⟨passed, first⟩ := Bool.and_eq_true_iff.mp front
              refine follows_or_else (SamePlace old new) _ _ _ _
                (follows_and_then (SamePlace old new) _ _ _ _
                  (ih layout a _ _ (skip_place old new same layout _ _ (.before s) passed) first)
                  fun here trees there found met between alike => ?_)
                fun _ => ⟨_, [], rfl, .before s, .nil⟩
              rw [met] at rest
              exact follows_prepend (SamePlace old new) trees found _ _ alike
                (ih layout (.more a) here there between rest)
          | notAt a =>
              simp only [run]
              rcases Bool.or_eq_true_iff.mp spared with peeks | spared
              · obtain ⟨c, r, x, one, two⟩ := same_head old new s
                have alike := peeks_alike fuel layout a peeks c r x
                rw [← one, ← two] at alike
                rcases alike with ⟨one, two⟩ | ⟨one, two⟩ | ⟨one, two⟩
                · rw [one]
                  trivial
                · rw [one, two]
                  exact ⟨_, [], rfl, .before s, .nil⟩
                · rw [one, two]
                  rfl
              · have inner := ih layout a _ _ (.before s) spared
                cases found : run fuel layout a (s ++ ' ' :: old) with
                | matched rest trees =>
                    rw [found] at inner
                    obtain ⟨_, _, other, _⟩ := inner
                    rw [other]
                    rfl
                | failed =>
                    rw [found] at inner
                    rw [inner]
                    exact ⟨_, [], rfl, .before s, .nil⟩
                | exhausted => trivial
          | rule r =>
              obtain ⟨inside, kept⟩ := Bool.and_eq_true_iff.mp spared
              have body : (run fuel (r.layoutIn layout) r.body (s ++ ' ' :: old)).Follows (SamePlace old new)
                  (run fuel (r.layoutIn layout) r.body (s ++ ' ' :: new)) := by
                rcases Bool.or_eq_true_iff.mp inside with named | spared
                · obtain rfl : r = .typeName := of_decide_eq_true named
                  refine type_name_follows old new mark fuel
                    (fun m less => below m (Nat.lt_succ_of_lt less)) s fun rest trees met => ?_
                  have met : run fuel (Rule.typeName.layoutIn layout) Rule.typeName.body
                      (s ++ ' ' :: old) = .matched rest trees := met
                  rw [met] at kept
                  exact of_decide_eq_true kept
                · exact ih _ _ _ _ (.before s) spared
              refine follows_and_then (SamePlace old new) _ _ _ _ body
                fun rest trees there found met between alike => ⟨there, _, rfl, between, ?_⟩
              have shaped := run_shaped fuel (r.layoutIn layout) r.body (s ++ ' ' :: old)
              rw [met] at kept shaped
              unfold Layout.keep
              split
              · exact .nil
              · refine .cons (.node r _ _ _ _ _ _ (fun tree member => (shaped tree member).2)
                  (fun keeps => ?_) alike) .nil
                cases between with
                | before rest => exact .inl (text_before old new r s rest trees found)
                | after rest short =>
                    simp only [keeps, Bool.not_true, Bool.false_or, decide_eq_true_eq] at kept
                    omega

end Follows

end SchemaDrift.Grammar
