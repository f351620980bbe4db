import SchemaDrift.Proofs.Grammar.TypeAhead
/-!
Defaults in front of the end of an item. A term closes where it is read. The last one ends with the
text, or in front of a word that no default goes on with.
-/

set_option autoImplicit false

namespace SchemaDrift.Grammar

theorem uncommented_free (quoted : Bool) (s : List Char) (bare : uncommented s = true) :
    commentFree quoted s = true := by
  fun_induction commentFree quoted s with
  | case1 => rfl
  | case2 _ s ih => exact ih (uncommented_suffix _ s bare (List.suffix_append [_, _] s))
  | case3 s ih => exact ih (uncommented_suffix _ s bare (List.suffix_append [_, _] s))
  | case4 s _ ih => exact ih (uncommented_suffix _ s bare (List.suffix_cons _ s))
  | case5 _ s _ _ _ ih => exact ih (uncommented_suffix _ s bare (List.suffix_cons _ s))
  | case6 c s ih =>
      obtain ⟨here, later⟩ := Bool.and_eq_true_iff.mp bare
      exact Bool.and_eq_true_iff.mpr ⟨here, ih later⟩

theorem opened_by {layout : Layout} {c : Char} {a b : Expr} {s left : List Char} {trees : List Tree}
    (given : Gives layout (.char c ++ a ++ b) s (.matched left trees)) : ∃ t, s = c :: t := by
  obtain ⟨_, _, _, opened, -⟩ := given_seq given
  obtain ⟨t, _, _, first, -⟩ := given_seq opened
  exact ⟨t, given_char first⟩

theorem literal_opens {layout : Layout} {s left : List Char} {trees : List Tree}
    (given : Gives layout (.rule .stringLit) s (.matched left trees)) : ∃ t, s = '\'' :: t := by
  obtain ⟨_, inside, -⟩ := given_rule given
  exact opened_by inside

section Closing

variable (tail : List Char) (item : EndsItem tail)

include item in
theorem skip_visible (s : List Char) (bare : uncommented s = true) (visible : skipLayout s ≠ []) :
    skipLayout (s ++ tail) = skipLayout s ++ tail :=
  ahead_inside tail _ _ (skip_ahead tail item s _ bare (.inside s)) visible

theorem run_closes (a : Expr) (choice : a.isChoice = true) (r : Rule) (token : r.layout = .token)
    (body : r.body = .some (.except a)) (s left : List Char) (trees : List Tree)
    (bare : uncommented s = true) (ink : ∀ c, s.head? = some c → isSpace c = false)
    (stops : left = [] → ∀ c, tail.head? = some c → a.meets c = true)
    (given : Gives .free (.rule r) s (.matched left trees)) :
    Closes tail (.rule r) s left trees ∧ ∃ c, s.head? = some c ∧ a.meets c = false := by
  have suffix := given_suffix given
  have layout : r.layoutIn .free = .token := by rw [Rule.layoutIn, token]
  obtain ⟨children, inside, rfl⟩ := given_rule given
  rw [layout, body] at inside
  obtain ⟨fuel, met⟩ := inside
  obtain ⟨t, rfl, text⟩ := run_met a choice fuel s left children (met fuel (Nat.le_refl fuel))
    (fun c head _ => ink c head) (uncommented_free false s bare)
  cases gives_unique _ _ _ _ _ ⟨fuel, met⟩ (run_given a choice t left text)
  obtain ⟨c, w, rfl, -⟩ := text.start
  refine ⟨⟨_, gives_rule r ?_, .cons (.node _ _ _ _ _ _ _ (List.forall_mem_nil _)
    (fun _ => .inl (text_ahead r _ left tail suffix [] [])) .nil) .nil⟩,
    c, rfl, text.inside c List.mem_cons_self⟩
  rw [layout, body, List.append_assoc]
  refine run_given a choice _ _ ⟨text.start, text.inside, fun d head => ?_, text.bare⟩
  cases left with
  | nil => exact stops rfl d head
  | cons e left => exact text.ends d head

include item

/-! ### Groups -/

theorem group_item_closes (s left : List Char) (trees : List Tree) (bare : uncommented s = true)
    (ink : ∀ c, s.head? = some c → isSpace c = false) (visible : left ≠ [])
    (groups : ∀ found, Gives .free (.rule .parenGroup) s (.matched left found) →
      Closes tail (.rule .parenGroup) s left found)
    (given : Gives .free groupItem s (.matched left trees)) : Closes tail groupItem s left trees := by
  rcases given_alt given with first | ⟨-, text⟩
  · rcases given_alt first with group | ⟨-, literal⟩
    · obtain ⟨found, after, alike⟩ := groups trees group
      exact ⟨found, gives_left (gives_left after), alike⟩
    · obtain ⟨found, after, alike⟩ := literal_closes tail item s left trees literal
      obtain ⟨t, rfl⟩ := literal_opens literal
      exact ⟨found, gives_left (gives_right (no_group _ (by simp)) after), alike⟩
  · obtain ⟨⟨found, after, alike⟩, c, head, inside⟩ := run_closes tail parenthesis rfl .parenText rfl
      rfl s left trees bare ink (fun nothing => absurd nothing visible) text
    have other (d : Char) (meets : parenthesis.meets d = true) : (s ++ tail).head? ≠ some d := by
      obtain ⟨t, rfl⟩ := List.head?_eq_some_iff.mp head
      rintro ⟨⟩
      exact Bool.eq_false_iff.mp inside meets
    exact ⟨found, gives_right (gives_right (no_group _ (other '(' rfl)) (no_literal _ (other '\'' rfl)))
      after, alike⟩

theorem group_items_close (s mid left : List Char) (trees : List Tree)
    (items : Items .free groupItem s mid trees) (bare : uncommented s = true)
    (closes : skipLayout mid = ')' :: left)
    (groups : ∀ t next found, t <:+ s → Gives .free (.rule .parenGroup) t (.matched next found) →
      Closes tail (.rule .parenGroup) t next found) :
    ∃ found, Gives .free (.more groupItem) (s ++ tail) (.matched (mid ++ tail) found) ∧
      List.Forall₂ Tree.Corresponds trees found := by
  induction items with
  | done s stop =>
      have after := skip_visible tail item s bare (by simp [closes])
      refine ⟨[], gives_no_later ?_, .nil⟩
      rw [show Layout.free.skip (s ++ tail) = ')' :: (left ++ tail) from after.trans (by rw [closes]; rfl)]
      exact group_item_end _
  | item s next mid found more first later ih =>
      obtain ⟨-, -, -, ink, -⟩ := comment_free_parts s (uncommented_free false s bare)
      have skipped := skip_layout_suffix s
      have skip_bare := uncommented_suffix s _ bare skipped
      have within := given_suffix first
      have left_over : mid <:+ next := given_suffix (gives_items _ _ _ _ _ later)
      have visible (t : List Char) (inside : mid <:+ t) : t ≠ [] := by
        rintro rfl
        rw [List.suffix_nil.mp inside, skip_nothing] at closes
        cases closes
      obtain ⟨one, after, alike⟩ := group_item_closes tail item _ next found skip_bare ink
        (visible next left_over) (fun found => groups _ next found skipped) first
      rw [← skip_visible tail item s bare (visible _ (left_over.trans within))] at after
      obtain ⟨others, rest, same⟩ := ih (uncommented_suffix _ next skip_bare within) closes
        fun t last found inside => groups t last found (inside.trans (within.trans skipped))
      exact ⟨one ++ others, gives_later others after rest, List.rel_append alike same⟩

theorem group_closes (n : Nat) (s left : List Char) (trees : List Tree) (short : s.length ≤ n)
    (bare : uncommented s = true) (given : Gives .free (.rule .parenGroup) s (.matched left trees)) :
    Closes tail (.rule .parenGroup) s left trees := by
  -- The induction is on the length: a group in a group is shorter.
  induction n generalizing s left trees with
  | zero =>
      obtain ⟨_, inside, -⟩ := given_rule given
      obtain ⟨t, rfl⟩ := opened_by inside
      cases short
  | succ n ih =>
      have suffix := given_suffix given
      obtain ⟨children, inside, rfl⟩ := given_rule given
      have rules := given_rules inside
      obtain ⟨mid, opened, _, opens, close, rfl⟩ := given_seq inside
      obtain ⟨t, _, inner, first, inner_given, rfl⟩ := given_seq opens
      obtain rfl := given_char first
      cases gives_unique _ _ _ _ _ first (gives_char '(')
      cases gives_unique _ _ _ _ _ close (by rw [given_char close]; exact gives_char ')')
      have closes : skipLayout mid = ')' :: left := given_char close
      have inside_bare := uncommented_suffix _ t bare (List.suffix_cons _ t)
      have items := given_many _ _ _ _ _ (free_skip_again t) inner_given
      have within : mid <:+ skipLayout t := given_suffix (gives_items _ _ _ _ _ items)
      have skipped := skip_layout_suffix t
      obtain ⟨found, again, alike⟩ := group_items_close tail item _ mid left inner items
        (uncommented_suffix t _ inside_bare skipped) closes fun u next found inside group =>
          ih u next found ((inside.trans skipped).length_le.trans (Nat.le_of_succ_le_succ short))
            (uncommented_suffix t u inside_bare (inside.trans skipped)) group
      have visible : skipLayout t ≠ [] := by
        intro nothing
        rw [nothing] at within
        rw [List.suffix_nil.mp within, skip_nothing] at closes
        cases closes
      have mid_bare := uncommented_suffix t mid inside_bare (within.trans skipped)
      have leaves : skipLayout (mid ++ tail) = ')' :: (left ++ tail) := by
        rw [skip_visible tail item mid mid_bare (by simp [closes]), closes]
        rfl
      obtain ⟨w, rfl⟩ : left <:+ t := (List.suffix_cons ')' left).trans
        (closes ▸ (skip_layout_suffix mid).trans (within.trans skipped))
      rw [← skip_visible tail item _ inside_bare visible, List.append_assoc] at again
      have whole := group_closed w (left ++ tail) (mid ++ tail) found again leaves
      have alike : List.Forall₂ Tree.Corresponds ([] ++ inner ++ []) found := by simpa using alike
      rw [Closes, List.cons_append, List.append_assoc]
      refine ⟨_, whole, .cons (.node _ _ _ _ _ _ _ rules (fun _ => .inl ?_) alike) .nil⟩
      rw [← List.append_assoc]
      exact text_ahead .parenGroup _ left tail suffix _ _

/-! ### Terms -/

theorem term_closes (s left : List Char) (trees : List Tree) (bare : uncommented s = true)
    (ink : ∀ c, s.head? = some c → isSpace c = false)
    (given : Gives .free defaultTerm s (.matched left trees)) :
    Closes tail defaultTerm s left trees := by
  rcases given_alt given with first | ⟨-, token⟩
  · rcases given_alt first with literal | ⟨-, group⟩
    · obtain ⟨found, after, alike⟩ := literal_closes tail item s left trees literal
      exact ⟨found, gives_left (gives_left after), alike⟩
    · obtain ⟨found, after, alike⟩ :=
        group_closes tail item s.length s left trees (Nat.le_refl _) bare group
      obtain ⟨_, inside, -⟩ := given_rule group
      obtain ⟨t, rfl⟩ := opened_by inside
      exact ⟨found, gives_left (gives_right (no_literal _ (by simp)) after), alike⟩
  · have stops (c : Char) (head : tail.head? = some c) : tokenEnd.meets c = true := by
      obtain ⟨d, first, among⟩ := item_end_char tail item
      obtain rfl := Option.some.inj (first.symm.trans head)
      simp only [List.mem_cons, List.not_mem_nil, or_false] at among
      rcases among with rfl | rfl | rfl | rfl <;> rfl
    obtain ⟨⟨found, after, alike⟩, c, head, inside⟩ := run_closes tail tokenEnd rfl .exprToken rfl rfl
      s left trees bare ink (fun _ => stops) token
    have other (d : Char) (meets : tokenEnd.meets d = true) : (s ++ tail).head? ≠ some d := by
      obtain ⟨t, rfl⟩ := List.head?_eq_some_iff.mp head
      rintro ⟨⟩
      exact Bool.eq_false_iff.mp inside meets
    exact ⟨found, gives_right (gives_right (no_literal _ (other '\'' rfl)) (no_group _ (other '(' rfl)))
      after, alike⟩

end Closing

/-! ### Defaults -/

section Defaults

variable (rest : List Char) (ends : EndsItem rest)

include ends in
theorem no_term_ahead (left u : List Char) (bare : uncommented left = true) (onward : Onward left)
    (solid : skipLayout u = u) (ahead : Ahead rest (skipLayout left) u)
    (stop : Gives .free laterTerm (skipLayout left) .failed) : Gives .free laterTerm u .failed := by
  have skip_bare := uncommented_suffix left _ bare (skip_layout_suffix left)
  cases first : skipLayout left with
  | nil =>
      rw [first] at ahead
      obtain ⟨c, t, member, rfl⟩ := ahead_end rest ends u solid ahead
      exact no_term c t member
  | cons c w =>
      rw [first] at stop ahead skip_bare
      rcases given_no_seq stop with word | ⟨mid, _, word, term⟩
      · exact gives_seq_failed ((steady_given rest ends 0 (.notAt (.rule .stopWord)) (by decide) _ u
          skip_bare ahead).1 word)
      · obtain ⟨-, rfl, -⟩ := given_not word
        rw [show Layout.free.skip (c :: w) = c :: w from first ▸ free_skip_again left] at term
        obtain ⟨-, token⟩ := given_no_alt term
        obtain ⟨_, -, -, ink, -⟩ := comment_free_parts left (uncommented_free false left bare)
        have inside : tokenEnd.meets c = false := by
          have blank := ink c (by rw [first]; rfl)
          have other := onward c (by rw [first]; rfl)
          simp only [List.mem_cons, List.not_mem_nil, or_false, not_or] at other
          change (isSpace c || decide (c = ',') || decide (c = '(') || decide (c = ')')
            || decide (c = '\'') || decide (c = ';')) = false
          simp [blank, other]
        have parts : w.takeWhile (!tokenEnd.meets ·) ++ w.dropWhile (!tokenEnd.meets ·) = w :=
          List.takeWhile_append_dropWhile
        have others := characters_given tokenEnd rfl (w.takeWhile (!tokenEnd.meets ·))
          (w.dropWhile (!tokenEnd.meets ·)) (fun d member => by simpa using List.mem_takeWhile_imp member)
          fun d head => by
            have last := List.head?_dropWhile_not (!tokenEnd.meets ·) w
            rw [head] at last
            simpa using last
        rw [parts] at others
        cases gives_unique _ _ _ _ _ token (gives_rule .exprToken
          (gives_seq [] (except_given tokenEnd rfl c w inside) others))

include ends

theorem term_goes_on (s u left : List Char) (trees : List Tree) (bare : uncommented s = true)
    (solid : skipLayout s = s) (ahead : Ahead rest s u)
    (given : Gives .free defaultTerm s (.matched left trees)) : GoesOn rest defaultTerm u left trees := by
  obtain ⟨_, -, -, ink, -⟩ := comment_free_parts s (uncommented_free false s bare)
  rw [solid] at ink
  exact closes_goes_on rest ends s u left trees ahead _ given
    fun tail item => term_closes tail item s left trees bare ink given

theorem terms_go_on (s u left : List Char) (trees : List Tree) (bare : uncommented s = true)
    (solid : skipLayout s = s) (steady : skipLayout u = u) (ahead : Ahead rest s u)
    (onward : Onward left) (given : Gives .free (.many laterTerm) s (.matched left trees)) :
    GoesOn rest (.many laterTerm) u left trees := by
  have left_bare := uncommented_suffix s left bare (given_suffix given)
  refine many_goes_on rest ends (fun _ => True) _ s left trees solid given (fun _ _ => trivial)
    (fun s u mid found _ bare ahead _ _ given => ?_)
    (fun u solid ahead stop => no_term_ahead rest ends left u left_bare onward solid ahead stop)
    u bare steady ahead
  exact seq_goes_on rest ends s u mid found _ _ bare given
    (fun t first _ given _ => steady_goes_on rest ends s u t first ahead bare 0 _ (by decide) given)
    fun s u last bare ahead solid _ given => term_goes_on rest ends s u mid last bare solid ahead given

theorem default_goes_on (s u left : List Char) (trees : List Tree) (bare : uncommented s = true)
    (solid : skipLayout s = s) (ahead : Ahead rest s u) (onward : Onward left)
    (given : Gives .free (.rule .defaultExpr) s (.matched left trees)) :
    GoesOn rest (.rule .defaultExpr) u left trees := by
  have suffix := given_suffix given
  have visible : s ≠ [] := by
    rintro rfl
    cases gives_unique _ _ _ _ _ given (gives_end .defaultExpr rfl)
  obtain ⟨children, body, rfl⟩ := given_rule given
  have rules := given_rules body
  obtain rfl := ahead_inside rest s u ahead visible
  obtain ⟨there, found, after, between, alike⟩ := seq_goes_on rest ends s (s ++ rest) left children _ _
    bare body (fun mid found _ given _ => term_goes_on rest ends s _ mid found bare solid ahead given)
    fun s u last bare ahead solid steady given =>
      terms_go_on rest ends s u left last bare solid steady ahead onward given
  refine ⟨there, _, gives_rule .defaultExpr after, between,
    .cons (.node _ _ _ _ _ _ _ rules (fun _ => ?_) alike) .nil⟩
  cases between with
  | inside => exact .inl (text_ahead .defaultExpr s left rest suffix _ _)
  | past =>
      obtain ⟨b, blank, parts⟩ := (item_ends_default rest ends).layout
      refine .inr ⟨rfl, b, [], blank, List.forall_mem_nil _, ?_⟩
      have alone := tree_text .defaultExpr s [] children
      have behind := tree_text .defaultExpr (s ++ b) (skipLayout rest) found
      rw [List.append_assoc, ← parts] at behind
      rw [List.append_nil] at alone
      rw [alone, behind, List.append_nil]

end Defaults

end SchemaDrift.Grammar
