import SchemaDrift.Proofs.Grammar.Word
/-!
What the first character of a text decides: by it most alternatives of a rule are refused, and parts
that need not be there are passed over. With this, what is written in a fixed layout is read back
part by part.
-/

set_option autoImplicit false

namespace SchemaDrift.Grammar

/-! ### The first character -/

-- What an expression gives in front of a character, as far as the character decides it.
inductive Start where
  | refused
  /-- Nothing is read. -/
  | passed
  | undecided
deriving DecidableEq

def Start.outcome? (s : List Char) : Start → Option Outcome
  | refused => some .failed
  | passed => some (.matched s [])
  | undecided => none

def Expr.startWith (refuses : Rule → Bool) (c : Char) : Expr → Start
  | empty => .passed
  | finish => .refused
  | one set => if set.has c then .undecided else .refused
  | word [] => .passed
  | word (a :: _) => if c.toLower = a then .undecided else .refused
  | seq a b => match a.startWith refuses c with
    | .refused => .refused
    | .passed => b.startWith refuses c
    | .undecided => .undecided
  | alt a b => match a.startWith refuses c with
    | .refused => b.startWith refuses c
    | decided => decided
  | opt a | many a | more a => match a.startWith refuses c with
    | .refused => .passed
    | _ => .undecided
  | notAt a => match a.startWith refuses c with
    | .refused => .passed
    | .passed => .refused
    | .undecided => .undecided
  | rule r => if refuses r then .refused else .undecided

def Rule.refusesWithin (known : Rule → Bool) (c : Char) : Nat → Rule → Bool
  | 0, r => known r
  | n + 1, r => known r || decide (r.body.startWith (Rule.refusesWithin known c n) c = .refused)

def Expr.start (c : Char) (e : Expr) : Start :=
  e.startWith (Rule.refusesWithin (fun _ => false) c 6) c

def Expr.refusedBy (chars : List Char) (e : Expr) : Bool :=
  chars.all fun c => decide (e.start c = .refused)

theorem refused_by (chars : List Char) (e : Expr) (refused : e.refusedBy chars = true) (c : Char)
    (member : c ∈ chars) : e.start c = .refused :=
  of_decide_eq_true (List.all_eq_true.mp refused c member)

def isSolid (c : Char) : Bool := !isSpace c && c ≠ '-' && c ≠ '/'

theorem skip_solid_char (c : Char) (s : List Char) (solid : isSolid c = true) :
    skipLayout (c :: s) = c :: s := by
  simp only [isSolid, Bool.and_eq_true, Bool.not_eq_true', decide_eq_true_eq] at solid
  refine skip_solid _ (ends_cons _ c s solid.1.1) ?_ ?_
  · rintro ⟨⟩
    exact solid.1.2 rfl
  · rintro ⟨⟩
    exact solid.2 rfl

theorem layout_skip_solid (layout : Layout) (c : Char) (s : List Char) (solid : isSolid c = true) :
    layout.skip (c :: s) = c :: s := by
  cases layout with
  | free => exact skip_solid_char c s solid
  | tight | token => rfl

section Deciding

variable {c : Char} (s : List Char) (solid : isSolid c = true)

include solid

theorem gives_start_with (refuses : Rule → Bool)
    (right : ∀ r layout, refuses r = true → Gives layout (.rule r) (c :: s) .failed)
    (layout : Layout) (e : Expr) (o : Outcome)
    (decided : (e.startWith refuses c).outcome? (c :: s) = some o) :
    Gives layout e (c :: s) o := by
  -- One case for each operator; `refuses` is right about the rules below.
  induction e generalizing layout o with
  | empty =>
      cases decided
      exact gives_empty
  | finish =>
      cases decided
      exact gives_computed 1 fun _ => rfl
  | one set =>
      rw [Expr.startWith] at decided
      split at decided <;> cases decided
      exact gives_no_one set (ends_cons set c s (Bool.eq_false_iff.mpr ‹_›))
  | word lower =>
      cases lower with
      | nil =>
          cases decided
          exact gives_word [] rfl
      | cons a lower =>
          rw [Expr.startWith] at decided
          split at decided <;> cases decided
          exact gives_no_word _ (by rw [dropWord?, if_neg ‹_›])
  | seq a b first second =>
      rw [Expr.startWith] at decided
      split at decided
      · rename_i refused
        cases decided
        exact gives_seq_failed (first layout _ (by rw [refused]; rfl))
      · rename_i passed
        have left := first layout _ (by rw [passed]; rfl)
        have right := second layout o decided
        rw [← layout_skip_solid layout c s solid] at right
        have both := gives_and_then left right
        cases o <;> exact both
      · cases decided
  | alt a b first second =>
      rw [Expr.startWith] at decided
      split at decided
      · rename_i refused
        exact gives_right (first layout _ (by rw [refused]; rfl)) (second layout o decided)
      · cases verdict : a.startWith refuses c with
        | refused => exact absurd verdict ‹_›
        | undecided =>
            rw [verdict] at decided
            cases decided
        | passed =>
            have left := first layout o decided
            rw [verdict] at decided
            cases decided
            exact gives_left left
  | opt a inner =>
      rw [Expr.startWith] at decided
      split at decided <;> cases decided
      exact gives_no_opt (inner layout _ (by rw [‹a.startWith refuses c = .refused›]; rfl))
  | many a inner =>
      rw [Expr.startWith] at decided
      split at decided <;> cases decided
      exact gives_none (inner layout _ (by rw [‹a.startWith refuses c = .refused›]; rfl))
  | more a inner =>
      rw [Expr.startWith] at decided
      split at decided <;> cases decided
      exact gives_more (layout_skip_solid layout c s solid)
        (gives_none (inner layout _ (by rw [‹a.startWith refuses c = .refused›]; rfl)))
  | notAt a inner =>
      rw [Expr.startWith] at decided
      split at decided <;> cases decided
      · exact gives_not (inner layout _ (by rw [‹a.startWith refuses c = .refused›]; rfl))
      · exact gives_no_not (inner layout _ (by rw [‹a.startWith refuses c = .passed›]; rfl))
  | rule r =>
      rw [Expr.startWith] at decided
      split at decided <;> cases decided
      exact right r layout ‹_›

theorem refused_within (known : Rule → Bool)
    (right : ∀ r layout, known r = true → Gives layout (.rule r) (c :: s) .failed) (n : Nat)
    (r : Rule) (layout : Layout) (refuses : r.refusesWithin known c n = true) :
    Gives layout (.rule r) (c :: s) .failed := by
  induction n generalizing r layout with
  | zero => exact right r layout refuses
  | succ n ih =>
      rcases Bool.or_eq_true_iff.mp refuses with direct | inner
      · exact right r layout direct
      · have verdict := of_decide_eq_true inner
        exact gives_no_rule r (gives_start_with s solid _ ih _ r.body _ (by rw [verdict]; rfl))

theorem gives_start {layout : Layout} (e : Expr) (o : Outcome)
    (decided : (e.start c).outcome? (c :: s) = some o) : Gives layout e (c :: s) o :=
  gives_start_with s solid _ (refused_within s solid _ (fun _ _ => Bool.noConfusion) 6) layout e o
    decided

theorem gives_refused {layout : Layout} (e : Expr) (refuses : e.start c = .refused) :
    Gives layout e (c :: s) .failed := gives_start s solid e _ (by rw [refuses]; rfl)

theorem gives_passed {layout : Layout} (e : Expr) (passes : e.start c = .passed) :
    Gives layout e (c :: s) (.matched (c :: s) []) := gives_start s solid e _ (by rw [passes]; rfl)

end Deciding

def Expr.picks (c : Char) (r : Rule) : Expr → Bool
  | rule q => q = r
  | alt a b => a.picks c r || (decide (a.start c = .refused) && b.picks c r)
  | _ => false

theorem refused_front {layout : Layout} (s : List Char) (e : Expr) (c : Char)
    (head : s.head? = some c) (solid : isSolid c = true) (refuses : e.start c = .refused) :
    Gives layout e s .failed := by
  obtain ⟨s, rfl⟩ := List.head?_eq_some_iff.mp head
  exact gives_refused s solid e refuses

theorem picked_given {layout : Layout} (s rest : List Char) (trees : List Tree) (e : Expr) (r : Rule)
    (c : Char) (head : s.head? = some c) (solid : isSolid c = true) (picks : e.picks c r = true)
    (given : Gives layout (.rule r) s (.matched rest trees)) :
    Gives layout e s (.matched rest trees) := by
  induction e with
  | rule q =>
      obtain rfl : q = r := of_decide_eq_true picks
      exact given
  | alt a b first second =>
      rw [Expr.picks, Bool.or_eq_true, Bool.and_eq_true] at picks
      rcases picks with here | ⟨refused, there⟩
      · exact gives_left (first here)
      · exact gives_right (refused_front s a c head solid (of_decide_eq_true refused)) (second there)
  | empty | finish | one | word | seq | opt | many | more | notAt => cases picks

/-! ### One part after the other -/

def Blank (s : List Char) : Prop := ∀ c ∈ s, isSpace c = true

theorem skip_blank (c : Char) (s : List Char) (blank : isSpace c = true) :
    skipLayout (c :: s) = skipLayout s :=
  skip_layout_spaces _ _ (List.dropWhile_cons_of_pos blank)

theorem skip_blanks (b s : List Char) (blank : Blank b) : skipLayout (b ++ s) = skipLayout s := by
  induction b with
  | nil => rfl
  | cons c b ih =>
      obtain ⟨first, others⟩ := List.forall_mem_cons.mp blank
      exact (skip_blank c _ first).trans (ih others)

theorem skip_again (s : List Char) : skipLayout (skipLayout s) = skipLayout s := by
  fun_induction skipLayout s with
  | case1 s rest found ih => exact ih
  | case2 s bare =>
      have spaces : skipSpaces (skipSpaces s) = skipSpaces s := List.dropWhile_idempotent isSpace s
      rw [skip_layout_none _ (spaces.symm ▸ bare), spaces]

theorem free_skip_again (s : List Char) : Layout.free.skip (skipLayout s) = skipLayout s := skip_again s

section Parts

variable {layout : Layout} {a b : Expr} {s mid left rest : List Char} {trees : List Tree}

theorem gives_next (more : List Tree) (first : Gives .free a s (.matched left trees))
    (skipped : skipLayout left = mid) (second : Gives .free b mid (.matched rest more)) :
    Gives .free (a ++ b) s (.matched rest (trees ++ more)) := by
  subst skipped
  exact gives_seq more first second

theorem gives_next_failed (first : Gives .free a s (.matched left trees))
    (skipped : skipLayout left = mid) (second : Gives .free b mid .failed) :
    Gives .free (a ++ b) s .failed := by
  subst skipped
  exact gives_seq_stuck first second

theorem gives_later (more : List Tree) (item : Gives layout a (layout.skip s) (.matched mid trees))
    (later : Gives layout (.more a) mid (.matched rest more)) :
    Gives layout (.more a) s (.matched rest (trees ++ more)) := by
  obtain ⟨n, item⟩ := item
  obtain ⟨m, later⟩ := later
  refine gives_from (max n m) _ _ _ _ fun fuel le => ?_
  rw [run, item fuel (by omega), Outcome.andThen, later fuel (by omega)]
  rfl

theorem gives_no_later (absent : Gives layout a (layout.skip s) .failed) :
    Gives layout (.more a) s (.matched s []) := by
  obtain ⟨n, absent⟩ := absent
  refine gives_from n _ _ _ _ fun fuel le => ?_
  rw [run, absent fuel le]
  rfl

theorem many_is_more (fuel : Nat) (solid : layout.skip s = s) :
    run fuel layout (.many a) s = run fuel layout (.more a) s := by
  cases fuel with
  | zero => rfl
  | succ fuel => rw [run, run, solid]

theorem gives_many_later {o : Outcome} (solid : layout.skip s = s)
    (later : Gives layout (.more a) s o) : Gives layout (.many a) s o := by
  obtain ⟨n, later⟩ := later
  exact ⟨n, fun fuel le => (many_is_more fuel solid).trans (later fuel le)⟩

theorem word_read (k : Keyword) (word : List Char) (c : Char) (s : List Char)
    (same : word.map Char.toLower = k.text.toList) (ends : CharSet.identifier.has c = false) :
    Gives .free (.kw k) (word ++ c :: s)
      (.matched (c :: s) [.node (.keyword k) (word ++ c :: s) (c :: s) []]) :=
  keyword_read k word (c :: s) same (ends_cons _ c s ends)

end Parts

/-! ### The parts of a tree -/

section Trees

variable (r k : Rule) (s rest : List Char) (tree : Tree) (trees : List Tree)

@[simp] theorem node_rule : (Tree.node r s rest trees).rule = r := rfl

@[simp] theorem node_children : (Tree.node r s rest trees).children = trees := rfl

@[simp] theorem all_nil : (Tree.node r s rest []).all k = [] := rfl

@[simp] theorem all_cons : (Tree.node r s rest (tree :: trees)).all k
    = if tree.rule = k then tree :: (Tree.node r s rest trees).all k
      else (Tree.node r s rest trees).all k := by
  by_cases same : tree.rule = k <;> simp [Tree.all, same]

@[simp] theorem all_append (more : List Tree) : (Tree.node r s rest (trees ++ more)).all k
    = (Tree.node r s rest trees).all k ++ (Tree.node r s rest more).all k := List.filter_append ..

@[simp] theorem first_nil : (Tree.node r s rest []).first? k = none := rfl

@[simp] theorem first_cons : (Tree.node r s rest (tree :: trees)).first? k
    = if tree.rule = k then some tree else (Tree.node r s rest trees).first? k := by
  by_cases same : tree.rule = k <;> simp [Tree.first?, same]

@[simp] theorem has_nil : (Tree.node r s rest []).has k = false := rfl

@[simp] theorem has_cons : (Tree.node r s rest (tree :: trees)).has k
    = (decide (tree.rule = k) || (Tree.node r s rest trees).has k) := rfl

@[simp] theorem has_append (more : List Tree) : (Tree.node r s rest (trees ++ more)).has k
    = ((Tree.node r s rest trees).has k || (Tree.node r s rest more).has k) := List.any_append

@[simp] theorem keep_free : Layout.free.keep tree = [tree] := rfl

theorem all_of_rule (rules : ∀ tree ∈ trees, tree.rule = k) :
    (Tree.node r s rest trees).all k = trees :=
  List.filter_eq_self.mpr fun tree member => decide_eq_true (rules tree member)

theorem has_not (rules : ∀ tree ∈ trees, tree.rule ≠ k) :
    (Tree.node r s rest trees).has k = false :=
  List.any_eq_false.mpr fun tree member same => rules tree member (of_decide_eq_true same)

theorem all_of_other (rules : ∀ tree ∈ trees, tree.rule ≠ k) :
    (Tree.node r s rest trees).all k = [] :=
  List.filter_eq_nil_iff.mpr fun tree member same => rules tree member (of_decide_eq_true same)

end Trees

/-! ### Sequences -/

def Solid (text : List Char) : Prop := ∃ c s, text = c :: s ∧ isSolid c = true

theorem solid_skip (text rest : List Char) (solid : Solid text) :
    skipLayout (text ++ rest) = text ++ rest := by
  obtain ⟨c, s, rfl, ink⟩ := solid
  exact skip_solid_char c _ ink

theorem solid_text (text : List Char) (solid : Solid text) : skipLayout text = text := by
  obtain ⟨c, s, rfl, ink⟩ := solid
  exact skip_solid_char c s ink

theorem front_solid (text : List Char) (c : Char) (head : text.head? = some c)
    (solid : isSolid c = true) : Solid text := by
  obtain ⟨s, rfl⟩ := List.head?_eq_some_iff.mp head
  exact ⟨c, s, rfl, solid⟩

theorem solid_front (text rest : List Char) (solid : Solid text) : Solid (text ++ rest) := by
  obtain ⟨c, s, rfl, ink⟩ := solid
  exact ⟨c, s ++ rest, rfl, ink⟩

theorem identifier_solid (c : Char) (inside : CharSet.identifier.has c = true) : isSolid c = true := by
  have blank : isSpace c = false := blank_not_in_identifier c inside
  have apart (d : Char) (outside : CharSet.identifier.has d = false) : c ≠ d := by
    rintro rfl
    exact Bool.eq_false_iff.mp outside inside
  simp only [isSolid, blank, apart '-' (by decide), apart '/' (by decide), ne_eq, not_false_eq_true,
    decide_true, Bool.not_false, Bool.and_self]

theorem keyword_solid (k : Keyword) (word s : List Char)
    (same : word.map Char.toLower = k.text.toList) : Solid (word ++ s) := by
  cases word with
  | nil =>
      have named : k.text.toList ≠ [] := by cases k <;> decide
      exact absurd same.symm named
  | cons c word =>
      have inside : CharSet.identifier.has c.toLower = true :=
        keyword_plain k _ (same ▸ List.mem_cons_self)
      exact ⟨c, word ++ s, rfl, identifier_solid c (lower_in_identifier c inside)⟩

theorem skip_gap (text : List Char) (solid : Solid text) : skipLayout (' ' :: text) = text :=
  (skip_blank ' ' text rfl).trans (solid_text text solid)

inductive PartsRead : List Expr → List Char → List Char → List Tree → Prop
  | last {e : Expr} {s rest : List Char} {trees : List Tree}
      (given : Gives .free e s (.matched rest trees)) : PartsRead [e] s rest trees
  | next {e : Expr} {es : List Expr} {s left mid rest : List Char} {trees more : List Tree}
      (given : Gives .free e s (.matched left trees)) (skipped : skipLayout left = mid)
      (later : PartsRead es mid rest more) : PartsRead (e :: es) s rest (trees ++ more)

theorem parts_given (es : List Expr) (e : Expr) (s rest : List Char) (trees : List Tree)
    (parts : PartsRead (e :: es) s rest trees) :
    Gives .free (es.foldl (· ++ ·) e) s (.matched rest trees) := by
  induction es generalizing e trees with
  | nil =>
      cases parts with
      | last given => exact given
      | next given skipped later => cases later
  | cons second es ih =>
      cases parts with
      | next given skipped later =>
        cases later with
        | last after => exact ih _ _ (.last (gives_next _ given skipped after))
        | next after left later =>
            have pair := PartsRead.next (gives_next _ given skipped after) left later
            rw [List.append_assoc] at pair
            exact ih _ _ pair

section Sequence

variable {es : List Expr} {s rest : List Char} {more : List Tree}

theorem parts_word (k : Keyword) (word : List Char) (same : word.map Char.toLower = k.text.toList)
    (solid : Solid s) (later : PartsRead es s rest more) :
    PartsRead (.kw k :: es) (word ++ ' ' :: s) rest
      (.node (.keyword k) (word ++ ' ' :: s) (' ' :: s) [] :: more) :=
  .next (word_read k word ' ' s same rfl) (skip_gap s solid) later

theorem parts_passed (e : Expr) (c : Char) (head : s.head? = some c) (solid : isSolid c = true)
    (passes : e.start c = .passed) (later : PartsRead es s rest more) :
    PartsRead (e :: es) s rest more := by
  obtain ⟨s, rfl⟩ := List.head?_eq_some_iff.mp head
  exact .next (gives_passed s solid e passes) (skip_solid_char c s solid) later

end Sequence

-- In front of the rest the rule reads the text as such a tree. What it leaves is the rest, up to
-- layout: an optional part that is missing at the end has layout skipped in front of it.
def ReadsAs (r : Rule) (text rest : List Char) (means : Tree → Prop) : Prop :=
  ∃ left tree, Gives .free (.rule r) (text ++ rest) (.matched left [tree]) ∧
    skipLayout left = skipLayout rest ∧ tree.rule = r ∧ means tree

theorem sequence_read (r : Rule) (e : Expr) (es : List Expr) (text rest left : List Char)
    (trees : List Tree) (means : Tree → Prop) (free : r.layout = .free)
    (body : r.body = es.foldl (· ++ ·) e) (parts : PartsRead (e :: es) (text ++ rest) left trees)
    (leaves : skipLayout left = skipLayout rest)
    (meant : means (.node r (text ++ rest) left trees)) : ReadsAs r text rest means := by
  have whole := parts_given es e _ _ _ parts
  have inside : r.layoutIn .free = .free := by rw [Rule.layoutIn, free]
  rw [← body, ← inside] at whole
  exact ⟨left, _, gives_rule r whole, leaves, rfl, meant⟩

end SchemaDrift.Grammar
