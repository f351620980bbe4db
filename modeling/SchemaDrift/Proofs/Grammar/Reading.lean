import SchemaDrift.Proofs.Grammar.Literal
/-!
What a default expression is read as: string literals, comments and characters that are no quotes.
Its literals are those of its tree, in their order.
-/

set_option autoImplicit false

namespace SchemaDrift.Grammar

/-! ### All parts of a tree -/

mutual

def Tree.nodes : Tree → List Tree
  | .node r start rest children => .node r start rest children :: nodesOf children

def nodesOf : List Tree → List Tree
  | [] => []
  | tree :: trees => tree.nodes ++ nodesOf trees

end

theorem nodes_of_flat (trees : List Tree) : nodesOf trees = trees.flatMap Tree.nodes := by
  induction trees with
  | nil => rfl
  | cons tree trees ih => rw [nodesOf, ih, List.flatMap_cons]

def Tree.literals (tree : Tree) : List (List Char) :=
  (tree.nodes.filter (·.rule = .stringLit)).map Tree.text

def literalsOf (trees : List Tree) : List (List Char) := trees.flatMap Tree.literals

theorem literals_of_append (trees more : List Tree) :
    literalsOf (trees ++ more) = literalsOf trees ++ literalsOf more := List.flatMap_append

theorem literals_inside (r : Rule) (start rest : List Char) (children : List Tree)
    (other : r ≠ .stringLit) : (Tree.node r start rest children).literals = literalsOf children := by
  rw [Tree.literals, Tree.nodes, List.filter_cons_of_neg (by simp [Tree.rule, other]),
    nodes_of_flat, literalsOf, List.filter_flatMap, List.map_flatMap]
  rfl

theorem tree_text (r : Rule) (text rest : List Char) (children : List Tree) :
    (Tree.node r (text ++ rest) rest children).text = text := by
  rw [Tree.text, List.length_append, Nat.add_sub_cancel, List.take_left]

theorem literals_of_other (layout : Layout) (r : Rule) (start rest : List Char)
    (children : List Tree) (kept : layout ≠ .token) (other : r ≠ .stringLit) :
    literalsOf (layout.keep (.node r start rest children)) = literalsOf children := by
  rw [Layout.keep, if_neg kept, literalsOf, List.flatMap_singleton,
    literals_inside r start rest children other]

theorem literals_of_literal (layout : Layout) (l rest : List Char) (kept : layout ≠ .token) :
    literalsOf (layout.keep (.node .stringLit (l ++ rest) rest [])) = [l] := by
  rw [Layout.keep, if_neg kept, literalsOf, List.flatMap_singleton]
  exact congrArg (fun text => [text]) (tree_text .stringLit l rest [])

-- Every part is what its rule reads, at a place where trees are kept.
inductive Tree.Matched : Tree → Prop
  | node (fuel : Nat) (layout : Layout) (r : Rule) (start rest : List Char) (children : List Tree)
      (kept : layout ≠ .token)
      (met : run fuel (r.layoutIn layout) r.body start = .matched rest children)
      (below : ∀ tree ∈ children, tree.Matched) : Matched (.node r start rest children)

theorem run_matched (fuel : Nat) (layout : Layout) (e : Expr) (s : List Char) :
    (run fuel layout e s).Holds Tree.Matched e.rules :=
  run_holds Tree.Matched (fun fuel layout r s rest children kept met below =>
    .node fuel layout r s rest children kept met fun tree member => (below tree member).1)
    fuel layout e s

mutual

theorem nodes_matched : ∀ tree : Tree, tree.Matched → ∀ part ∈ tree.nodes, part.Matched
  | .node r start rest children, matched, part, member => by
    rcases List.mem_cons.mp member with rfl | inside
    · exact matched
    · cases matched with
      | node _ _ _ _ _ _ _ _ below => exact nodes_of_matched children below part inside

theorem nodes_of_matched : ∀ trees : List Tree, (∀ tree ∈ trees, tree.Matched) →
    ∀ part ∈ nodesOf trees, part.Matched
  | tree :: trees, matched, part, member =>
    (List.mem_append.mp member).elim
      (nodes_matched tree (matched tree List.mem_cons_self) part)
      (nodes_of_matched trees (fun t later => matched t (List.mem_cons_of_mem _ later)) part)

end

theorem parse_matched (r : Rule) (s : List Char) (tree : Tree) (read : parse? r s = some tree) :
    tree.Matched := by
  unfold parse? at read
  have held := run_matched (fuelFor s) .free (.rule r) s
  split at read
  case h_2 => cases read
  case h_1 rest trees met =>
    rw [met] at held
    exact (held tree (List.mem_of_head? read)).1

/-! ### Reading -/

inductive Reads : List Char → List (List Char) → List Char → Prop
  | done (s : List Char) : Reads s [] s
  | char (c : Char) (s rest : List Char) (ls : List (List Char)) (other : c ≠ '\'')
      (later : Reads s ls rest) : Reads (c :: s) ls rest
  | literal (l s rest : List Char) (ls : List (List Char)) (whole : StringLiteral l)
      (apart : s.head? ≠ some '\'') (later : Reads s ls rest) : Reads (l ++ s) (l :: ls) rest
  | comment (s t rest : List Char) (ls : List (List Char)) (passed : afterComment s = some t)
      (later : Reads t ls rest) : Reads s ls rest

theorem reads_trans (s mid rest : List Char) (ls more : List (List Char)) (first : Reads s ls mid)
    (second : Reads mid more rest) : Reads s (ls ++ more) rest := by
  induction first with
  | done s => exact second
  | char c s _ _ other _ ih => exact .char c s rest _ other (ih second)
  | literal l s _ _ whole apart _ ih => exact .literal l s rest _ whole apart (ih second)
  | comment s t _ _ passed _ ih => exact .comment s t rest _ passed (ih second)

theorem reads_plain (text rest : List Char) (plain : '\'' ∉ text) : Reads (text ++ rest) [] rest := by
  induction text with
  | nil => exact .done rest
  | cons c text ih =>
      rw [List.mem_cons, not_or] at plain
      exact .char c _ rest [] (Ne.symm plain.1) (ih plain.2)

theorem reads_spaces (s : List Char) : Reads s [] (skipSpaces s) := by
  have split : s.takeWhile isSpace ++ skipSpaces s = s := List.takeWhile_append_dropWhile
  have plain : '\'' ∉ s.takeWhile isSpace := fun member => by
    cases List.mem_takeWhile_imp member
  simpa only [split] using reads_plain _ (skipSpaces s) plain

theorem reads_skip (layout : Layout) (s : List Char) : Reads s [] (layout.skip s) := by
  cases layout with
  | tight | token => exact .done s
  | free =>
      show Reads s [] (skipLayout s)
      fun_induction skipLayout s with
      | case1 s rest found ih =>
          exact reads_trans _ _ _ [] [] (reads_spaces s) (.comment _ rest _ [] found ih)
      | case2 s bare => exact reads_spaces s

/-! ### What the rules of a default expression read -/

def Expr.meets (c : Char) : Expr → Bool
  | one set => set.has c
  | alt a b => a.meets c || b.meets c
  | _ => false

theorem meets_matches (fuel : Nat) (layout : Layout) (e : Expr) (c : Char) (s : List Char)
    (meets : e.meets c = true) : run fuel layout e (c :: s) ≠ .failed := by
  induction e generalizing fuel with
  | one set =>
      cases fuel with
      | zero => simp [run]
      | succ fuel =>
          have inside : set.has c = true := meets
          simp [run, inside]
  | alt a b first second =>
      cases fuel with
      | zero => simp [run]
      | succ fuel =>
          rw [run]
          rcases Bool.or_eq_true_iff.mp meets with left | right
          · have ahead := first fuel left
            cases found : run fuel layout a (c :: s) with
            | failed => exact absurd found ahead
            | matched | exhausted => simp [Outcome.orElse]
          · cases run fuel layout a (c :: s) with
            | failed => exact second fuel right
            | matched | exhausted => simp [Outcome.orElse]
  | _ => cases meets

theorem except_reads (fuel : Nat) (a : Expr) (s rest : List Char) (trees : List Tree)
    (quote : a.meets '\'' = true) (met : run fuel .token (.except a) s = .matched rest trees) :
    ∃ c, s = c :: rest ∧ c ≠ '\'' := by
  rcases fuel with _ | _ | fuel
  · cases met
  · cases met
  · obtain ⟨mid, found, absent, next⟩ := and_then_matched _ _ _ _ met
    obtain ⟨more, one, -⟩ := prepend_matched _ _ _ _ next
    rw [run] at absent
    cases tried : run fuel .token a s with
    | matched | exhausted =>
        rw [tried] at absent
        cases absent
    | failed =>
        rw [tried] at absent
        cases absent
        cases s with
        | nil => cases one
        | cons c s =>
            cases (one : Outcome.matched s [] = _)
            refine ⟨c, rfl, ?_⟩
            rintro rfl
            exact meets_matches fuel .token a _ _ quote tried

theorem characters_read (fuel : Nat) (a : Expr) (s rest : List Char) (trees : List Tree)
    (quote : a.meets '\'' = true) (met : run fuel .token (.many (.except a)) s = .matched rest trees) :
    Reads s [] rest := by
  induction fuel generalizing s trees with
  | zero => cases met
  | succ fuel ih =>
      rcases or_else_matched _ _ _ _ met with one | none
      · obtain ⟨mid, found, first, next⟩ := and_then_matched _ _ _ _ one
        obtain ⟨more, later, -⟩ := prepend_matched _ _ _ _ next
        obtain ⟨c, rfl, other⟩ := except_reads fuel a s mid found quote first
        rw [more_in_token] at later
        exact .char c mid rest [] other (ih mid more later)
      · cases none
        exact .done _

theorem word_reads (fuel : Nat) (a : Expr) (s rest : List Char) (trees : List Tree)
    (quote : a.meets '\'' = true) (met : run fuel .token (.some (.except a)) s = .matched rest trees) :
    Reads s (literalsOf trees) rest := by
  have held := run_matched fuel .token (.some (.except a)) s
  rw [met] at held
  obtain rfl : trees = [] :=
    List.eq_nil_iff_forall_not_mem.mpr fun tree member => List.not_mem_nil (held tree member).2
  cases fuel with
  | zero => cases met
  | succ fuel =>
      obtain ⟨mid, found, first, next⟩ := and_then_matched _ _ _ _ met
      obtain ⟨more, later, -⟩ := prepend_matched _ _ _ _ next
      obtain ⟨c, rfl, other⟩ := except_reads fuel a s mid found quote first
      exact .char c mid rest [] other (characters_read fuel a mid rest more quote later)

-- An expression that reads no quotes but with the rules of a default expression.
def Expr.quoteless : Expr → Bool
  | empty | finish | notAt _ => true
  | one set => !set.has '\''
  | word _ => false
  | seq a b | alt a b => a.quoteless && b.quoteless
  | opt a | many a | more a => a.quoteless
  | rule r => [Rule.stringLit, .parenGroup, .parenText, .exprToken].contains r

theorem run_reads (fuel : Nat) (layout : Layout) (e : Expr) (s rest : List Char) (trees : List Tree)
    (kept : layout ≠ .token) (quoteless : e.quoteless = true)
    (met : run fuel layout e s = .matched rest trees) : Reads s (literalsOf trees) rest := by
  induction fuel generalizing layout e s rest trees with
  | zero => cases met
  | succ fuel ih =>
      -- First an item and then the others, with what may stand between.
      have then_ (a b : Expr) (t : List Char) (first : a.quoteless = true) (second : b.quoteless = true)
          (gap : List Char → List Char) (passed : ∀ mid, Reads mid [] (gap mid))
          (both : ((run fuel layout a t).andThen fun mid found =>
            (run fuel layout b (gap mid)).prepend found) = .matched rest trees) :
          Reads t (literalsOf trees) rest := by
        obtain ⟨mid, found, one, next⟩ := and_then_matched _ _ _ _ both
        obtain ⟨more, later, rfl⟩ := prepend_matched _ _ _ _ next
        rw [literals_of_append]
        exact reads_trans _ _ _ _ _ (ih layout a t mid found kept first one)
          (reads_trans _ _ _ [] _ (passed mid) (ih layout b _ rest more kept second later))
      cases e with
      | empty =>
          cases met
          exact .done _
      | finish =>
          rw [run] at met
          split at met <;> cases met
          exact .done _
      | one set =>
          cases s with
          | nil => cases met
          | cons c s =>
              rw [run] at met
              split at met
              case isFalse => cases met
              case isTrue inside =>
                cases met
                refine .char c _ _ [] ?_ (.done _)
                rintro rfl
                simp [Expr.quoteless, inside] at quoteless
      | word => cases quoteless
      | seq a b =>
          obtain ⟨first, second⟩ := Bool.and_eq_true_iff.mp quoteless
          exact then_ a b s first second layout.skip (reads_skip layout) met
      | alt a b =>
          obtain ⟨first, second⟩ := Bool.and_eq_true_iff.mp quoteless
          rcases or_else_matched _ _ _ _ met with left | right
          · exact ih layout a s rest trees kept first left
          · exact ih layout b s rest trees kept second right
      | opt a =>
          rcases or_else_matched _ _ _ _ met with there | none
          · exact ih layout a s rest trees kept quoteless there
          · cases none
            exact .done _
      | many a =>
          rcases or_else_matched _ _ _ _ met with there | none
          · exact then_ a (.more a) s quoteless quoteless id (fun mid => .done mid) there
          · cases none
            exact .done _
      | more a =>
          rcases or_else_matched _ _ _ _ met with there | none
          · exact reads_trans _ _ _ [] _ (reads_skip layout s)
              (then_ a (.more a) _ quoteless quoteless id (fun mid => .done mid) there)
          · cases none
            exact .done _
      | notAt a =>
          rw [run] at met
          split at met <;> cases met
          exact .done _
      | rule r =>
          have inside : r ∈ [Rule.stringLit, .parenGroup, .parenText, .exprToken] :=
            List.contains_iff_mem.mp quoteless
          by_cases literal : r = .stringLit
          · subst literal
            obtain ⟨found, rfl⟩ := string_lit_read _ layout s rest trees met
            obtain ⟨l, rfl, whole, apart⟩ := (after_literal_iff s rest).mp found
            rw [literals_of_literal layout l rest kept]
            exact .literal l rest rest [] whole apart (.done rest)
          · obtain ⟨mid, found, body, same⟩ := and_then_matched _ _ _ _ met
            cases same
            rw [literals_of_other layout r s rest found kept literal]
            simp only [List.mem_cons, literal, false_or, List.not_mem_nil, or_false] at inside
            rcases inside with rfl | rfl | rfl
            · exact ih layout _ s rest found kept rfl body
            · exact word_reads fuel _ s rest found rfl body
            · exact word_reads fuel _ s rest found rfl body

theorem reads_front (s rest : List Char) (ls : List (List Char)) (reads : Reads s ls rest) :
    ∃ text, s = text ++ rest := by
  induction reads with
  | done s => exact ⟨[], rfl⟩
  | char c _ _ _ _ _ ih =>
      obtain ⟨text, rfl⟩ := ih
      exact ⟨c :: text, rfl⟩
  | literal l _ _ _ _ _ _ ih =>
      obtain ⟨text, rfl⟩ := ih
      exact ⟨l ++ text, (List.append_assoc ..).symm⟩
  | comment s t _ _ passed _ ih =>
      obtain ⟨c, front, rfl, -⟩ := after_comment_front s t passed
      obtain ⟨text, rfl⟩ := ih
      exact ⟨c :: (front ++ text), by simp⟩

theorem default_reads (tree : Tree) (matched : tree.Matched) (kind : tree.rule = .defaultExpr) :
    ∃ rest, Reads (tree.text ++ rest) tree.literals rest := by
  cases matched with
  | node fuel layout r start rest children kept met below =>
      obtain rfl : r = .defaultExpr := kind
      have reads := run_reads fuel layout _ start rest children kept rfl met
      obtain ⟨text, rfl⟩ := reads_front start rest _ reads
      rw [tree_text, literals_inside _ _ _ _ (by decide)]
      exact ⟨rest, reads⟩

/-! ### Whole texts -/

def accepted? (fuel : Nat) (r : Rule) (s : List Char) : Option Tree :=
  match run fuel .free (.rule r) s with
  | .matched [] [tree] => some tree
  | _ => none

def Accepts (r : Rule) (s : List Char) (tree : Tree) : Prop := ∃ fuel, accepted? fuel r s = some tree

theorem accepted_tree (r : Rule) (s : List Char) (tree : Tree) (accepted : Accepts r s tree) :
    tree.Matched ∧ tree.rule = r ∧ tree.text = s := by
  obtain ⟨fuel, found⟩ := accepted
  unfold accepted? at found
  split at found
  case h_2 => cases found
  case h_1 tree' met =>
    cases found
    have held := run_matched fuel .free (.rule r) s
    rw [met] at held
    obtain ⟨matched, rule⟩ := held tree (List.mem_singleton.mpr rfl)
    refine ⟨matched, List.mem_singleton.mp rule, ?_⟩
    cases fuel with
    | zero => cases met
    | succ fuel =>
        obtain ⟨mid, children, -, same⟩ := and_then_matched _ _ _ _ met
        cases same
        exact List.take_length

/-! ### Texts with all quotes in literals -/

inductive Parts : List Char → List (List Char) → Prop
  | done : Parts [] []
  | char (c : Char) (s : List Char) (ls : List (List Char)) (other : c ≠ '\'')
      (later : Parts s ls) : Parts (c :: s) ls
  | literal (l s : List Char) (ls : List (List Char)) (whole : StringLiteral l)
      (apart : s.head? ≠ some '\'') (later : Parts s ls) : Parts (l ++ s) (l :: ls)

theorem parts_plain (text s : List Char) (ls : List (List Char)) (plain : '\'' ∉ text)
    (parts : Parts s ls) : Parts (text ++ s) ls := by
  induction text with
  | nil => exact parts
  | cons c text ih =>
      rw [List.mem_cons, not_or] at plain
      exact .char c _ ls (Ne.symm plain.1) (ih plain.2)

theorem parts_tail (c : Char) (s : List Char) (ls : List (List Char)) (other : c ≠ '\'')
    (parts : Parts (c :: s) ls) : Parts s ls := by
  generalize same : c :: s = t at parts
  cases parts with
  | done => cases same
  | char d t ls _ later =>
      cases same
      exact later
  | literal l t ls whole =>
      obtain ⟨body, rfl, -⟩ := whole
      exact absurd (List.cons.inj same).1 other

theorem parts_after (front s : List Char) (ls : List (List Char)) (plain : '\'' ∉ front)
    (parts : Parts (front ++ s) ls) : Parts s ls := by
  induction front with
  | nil => exact parts
  | cons c front ih =>
      rw [List.mem_cons, not_or] at plain
      exact ih plain.2 (parts_tail c _ ls (Ne.symm plain.1) parts)

theorem parts_before (s back : List Char) (ls : List (List Char)) (plain : '\'' ∉ back)
    (parts : Parts (s ++ back) ls) : Parts s ls := by
  generalize same : s ++ back = t at parts
  induction parts generalizing s with
  | done =>
      rw [(List.append_eq_nil_iff.mp same).1]
      exact .done
  | char c t ls other later ih =>
      cases s with
      | nil =>
          obtain rfl : back = c :: t := same
          refine parts_after (c :: t) [] ls plain ?_
          rw [List.append_nil]
          exact .char c t ls other later
      | cons d s =>
          obtain ⟨rfl, rfl⟩ := List.cons.inj same
          exact .char d s ls other (ih s rfl)
  | literal l t ls whole apart later ih =>
      obtain ⟨u, rfl, rfl⟩ := literal_before l t s back whole plain same.symm
      exact .literal l u ls whole (apart_front _ _ apart) (ih u rfl)

-- No comment holds a quote when the text has no more quotes than its literals.
theorem parts_of_reads (s rest : List Char) (ls : List (List Char)) (reads : Reads s ls rest) :
    ∃ text, s = text ++ rest ∧ ls.flatten.count '\'' ≤ text.count '\'' ∧
      (text.count '\'' = ls.flatten.count '\'' → Parts text ls) := by
  induction reads with
  | done s => exact ⟨[], rfl, Nat.le_refl _, fun _ => .done⟩
  | char c _ _ ls other _ ih =>
      obtain ⟨text, rfl, fewer, parts⟩ := ih
      refine ⟨c :: text, rfl, ?_, fun same => .char c text ls other (parts ?_)⟩
      · exact fewer.trans (List.count_le_count_cons)
      · rwa [List.count_cons_of_ne other] at same
  | literal l _ rest ls whole apart _ ih =>
      obtain ⟨text, rfl, fewer, parts⟩ := ih
      refine ⟨l ++ text, (List.append_assoc ..).symm, ?_,
        fun same => .literal l text ls whole (apart_front _ _ apart) (parts ?_)⟩
      · rw [List.flatten_cons, List.count_append, List.count_append]
        omega
      · rw [List.flatten_cons, List.count_append, List.count_append] at same
        omega
  | comment s t rest ls passed _ ih =>
      obtain ⟨c, front, rfl, -⟩ := after_comment_front s t passed
      obtain ⟨text, rfl, fewer, parts⟩ := ih
      refine ⟨(c :: front) ++ text, by simp, ?_, fun same => parts_plain _ _ _ ?_ (parts ?_)⟩
      · rw [List.count_append]
        omega
      · rw [List.count_append] at same
        exact List.count_eq_zero.mp (by omega)
      · rw [List.count_append] at same
        omega

theorem default_parts (tree : Tree) (matched : tree.Matched) (kind : tree.rule = .defaultExpr)
    (quotes : tree.literals.flatten.count '\'' = tree.text.count '\'') :
    Parts tree.text tree.literals := by
  obtain ⟨rest, reads⟩ := default_reads tree matched kind
  obtain ⟨text, same, -, parts⟩ := parts_of_reads _ rest _ reads
  rw [List.append_cancel_right same] at quotes ⊢
  exact parts quotes.symm

theorem literals_of_parts (s : List Char) (ls : List (List Char)) (parts : Parts s ls) :
    literals s = ls := by
  induction parts with
  | done => rw [literals]
  | char c s ls other _ ih =>
      have none : afterLiteral? (c :: s) = none :=
        afterLiteral?.eq_2 _ fun t same => other (List.cons.inj same).1
      rw [literals, none]
      exact ih
  | literal l s ls whole apart _ ih =>
      have found : afterLiteral? (l ++ s) = some s := (after_literal_iff _ s).mpr ⟨l, rfl, whole, apart⟩
      obtain ⟨body, rfl, -⟩ := whole
      rw [List.cons_append] at found ⊢
      rw [literals, found]
      have front : ('\'' :: (body ++ s)).take ((body ++ s).length + 1 - s.length) = '\'' :: body := by
        rw [List.length_append, Nat.add_right_comm, Nat.add_sub_cancel, List.take_succ_cons,
          List.take_left]
      exact congrArg₂ List.cons front ih

end SchemaDrift.Grammar
