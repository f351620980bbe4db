import SchemaDrift.Proofs.Grammar.DefaultAhead
/-!
Names and defaults in front of the end of an item. A default ends alone where the next clause starts,
or with the text; in front of the rest it ends at the same place, up to white space.
-/

set_option autoImplicit false

namespace SchemaDrift.Grammar

/-! ### Names -/

def quotedItem (q : Char) : Expr :=
  (Expr.char q ++ Expr.char q) ||| Expr.except (.char q)

section Quoted

variable (q : Char) (s left tail : List Char) (trees : List Tree) (apart : tail.head? ≠ some q)

include apart

theorem quoted_items_before (items : Items .token (quotedItem q) s (q :: left) trees) :
    Items .token (quotedItem q) (s ++ tail) (q :: (left ++ tail)) trees := by
  generalize whole : q :: left = last at items
  induction items with
  | done s stop =>
      subst whole
      obtain ⟨pair, -⟩ := given_no_alt stop
      refine .done _ (gives_right ?_ (gives_seq_failed (gives_no_not (gives_char q))))
      refine gives_seq_stuck (gives_char q) (gives_other_char q fun head => ?_)
      cases left with
      | nil => exact apart head
      | cons c left =>
          cases head
          cases gives_unique _ _ _ _ _ pair (gives_seq [] (gives_char q) (gives_char q))
  | item s mid last found more first later ih =>
      refine .item _ (mid ++ tail) _ found more ?_ (ih whole)
      rcases given_alt first with pair | ⟨single, other⟩
      · obtain ⟨t, _, _, one, two, rfl⟩ := given_seq pair
        obtain rfl := given_char one
        obtain rfl := given_char two
        cases gives_unique _ _ _ _ _ one (gives_char q)
        cases gives_unique _ _ _ _ _ two (gives_char q)
        exact gives_left (gives_seq [] (gives_char q) (gives_char q))
      · obtain ⟨t, _, _, absent, one, rfl⟩ := given_seq other
        obtain ⟨none, rfl, rfl⟩ := given_not absent
        obtain ⟨c, rfl, inside⟩ := given_one one
        cases gives_unique _ _ _ _ _ one (gives_one .all c inside)
        have differs : ∀ w : List Char, (c :: w).head? ≠ some q := by
          rintro w ⟨⟩
          cases gives_unique _ _ _ _ _ none (gives_char q)
        exact gives_right (gives_seq_failed (gives_other_char q (differs _)))
          (gives_seq [] (gives_not (gives_other_char q (differs _))) (gives_one .all c inside))

theorem between_before (outer inner : Rule) (tight : outer.layout = .tight)
    (token : inner.layout = .token) (body : outer.body = between q inner)
    (within : inner.body = quoted q)
    (given : Gives .tight (.rule outer) s (.matched left trees)) :
    ∃ found, Gives .tight (.rule outer) (s ++ tail) (.matched (left ++ tail) found) ∧
      List.Forall₂ Tree.Corresponds trees found := by
  have suffix := given_suffix given
  obtain ⟨children, whole, rfl⟩ := given_rule given
  have rules := given_rules whole
  have outside : outer.layoutIn .tight = .tight := by rw [Rule.layoutIn, tight]
  have inside : inner.layoutIn .tight = .token := by rw [Rule.layoutIn, token]
  rw [outside, body] at whole
  obtain ⟨mid, front, _, opened, close, rfl⟩ := given_seq whole
  obtain ⟨t, _, name, open_, named, rfl⟩ := given_seq opened
  obtain rfl := given_char open_
  cases gives_unique _ _ _ _ _ open_ (gives_char q)
  have closed : mid = q :: left := given_char close
  subst closed
  cases gives_unique _ _ _ _ _ close (gives_char q)
  have name_suffix := given_suffix named
  obtain ⟨kids, text, rfl⟩ := given_rule named
  rw [inside, within] at text
  obtain rfl : kids = [] := List.eq_nil_iff_forall_not_mem.mpr fun tree member =>
    List.not_mem_nil (given_rules text tree member)
  have items := quoted_items_before q t left tail [] apart (given_many _ _ _ _ _ rfl text)
  have after := gives_many_later rfl (gives_items _ _ _ _ _ items)
  rw [show Expr.many (quotedItem q) = inner.body from within.symm, ← inside] at after
  have both := gives_seq [] (gives_seq _ (gives_char q) (gives_rule inner after)) (gives_char q)
  refine ⟨_, gives_rule outer (by rw [outside, body]; exact both), .cons (.node outer _ _ _ _ _ _ rules
    (fun _ => .inl (text_ahead outer _ left tail suffix _ _)) ?_) .nil⟩
  exact .cons (.node inner _ _ _ _ _ _ (List.forall_mem_nil _)
    (fun _ => .inl (text_ahead inner t (q :: left) tail name_suffix [] [])) .nil) .nil

end Quoted

theorem identifier_closes (tail : List Char) (item : EndsItem tail) (s left : List Char)
    (trees : List Tree) (given : Gives .free (.rule .identifier) s (.matched left trees)) :
    Closes tail (.rule .identifier) s left trees := by
  have suffix := given_suffix given
  obtain ⟨children, body, rfl⟩ := given_rule given
  have rules := given_rules body
  have other (q : Char) (member : q ∈ ['"', '\x60']) : tail.head? ≠ some q := by
    obtain ⟨c, head, among⟩ := item_end_char tail item
    rw [head]
    rintro ⟨⟩
    simp only [List.mem_cons, List.not_mem_nil, or_false] at member among
    rcases member with rfl | rfl <;> simp at among
  have after : ∃ found, Gives .tight Rule.identifier.body (s ++ tail) (.matched (left ++ tail) found) ∧
      List.Forall₂ Tree.Corresponds children found := by
    rcases given_alt body with marked | ⟨-, bare⟩
    · rcases given_alt marked with quoted | ⟨-, backtick⟩
      · obtain ⟨found, after, alike⟩ := between_before '"' s left tail children (other '"' (by decide))
          .quotedIdentifier .quotedInner rfl rfl rfl rfl quoted
        exact ⟨found, gives_left (gives_left after), alike⟩
      · obtain ⟨found, after, alike⟩ := between_before '\x60' s left tail children
          (other '\x60' (by decide)) .backtickIdentifier .backtickInner rfl rfl rfl rfl backtick
        obtain ⟨_, inside, -⟩ := given_rule backtick
        obtain ⟨t, rfl⟩ := opened_by inside
        exact ⟨found, gives_left (gives_right (gives_refused _ rfl _ rfl) after), alike⟩
    · obtain ⟨kids, word, rfl⟩ := given_rule bare
      obtain rfl : kids = [] := List.eq_nil_iff_forall_not_mem.mpr fun tree member =>
        List.not_mem_nil (given_rules word tree member)
      have read : Gives .tight (.rule .bareIdentifier) _ _ := gives_rule .bareIdentifier
        (wordy_given _ rfl s tail (ends_item_apart tail item) _ word)
      obtain ⟨w, _, _, first, -⟩ := given_seq word
      obtain ⟨c, rfl, letter⟩ := given_one first
      have unquoted (q : Char) (outside : CharSet.identifierStart.has q = false) :
          (c :: (w ++ tail)).head? ≠ some q := by
        rintro ⟨⟩
        exact Bool.eq_false_iff.mp outside letter
      refine ⟨_, gives_right (gives_right ?_ ?_) read, .cons (.node .bareIdentifier _ _ _ _ _ _
        (List.forall_mem_nil _) (fun _ => .inl (text_ahead .bareIdentifier _ left tail suffix [] []))
        .nil) .nil⟩
      · exact gives_no_rule .quotedIdentifier (gives_seq_failed (gives_seq_failed
          (gives_other_char '"' (unquoted '"' rfl))))
      · exact gives_no_rule .backtickIdentifier (gives_seq_failed (gives_seq_failed
          (gives_other_char '\x60' (unquoted '\x60' rfl))))
  obtain ⟨found, after, alike⟩ := after
  exact ⟨_, gives_rule .identifier after, .cons (.node _ _ _ _ _ _ _ rules
    (fun _ => .inl (text_ahead .identifier s left tail suffix _ _)) alike) .nil⟩

/-! ### Keywords that clauses start with -/

theorem other_keyword {layout : Layout} (k other : Keyword) (s left : List Char) (trees : List Tree)
    (given : Gives layout (.kw k) s (.matched left trees)) (differs : k.text ≠ other.text) :
    Gives layout (.kw other) s .failed := by
  obtain ⟨word, rfl, letters, ends⟩ := keyword_given k s left trees given
  refine keyword_refused other word left (fun c member => lower_in_identifier c ?_) ends ?_
  · exact keyword_plain k _ (letters ▸ List.mem_map_of_mem member)
  · rw [letters]
    exact fun same => differs (String.toList_inj.mp same)

def Expr.leader? : Expr → Option Keyword
  | seq a _ => a.leader?
  | rule (.keyword k) => Option.some k
  | _ => none

def Expr.avoids (k : Keyword) : Expr → Bool
  | alt a b => a.avoids k && b.avoids k
  | rule r => decide (r.layout = .free) && r.body.leader?.any fun other => k.text ≠ other.text
  | _ => false

def Expr.picksBy (k : Keyword) (r : Rule) : Expr → Bool
  | rule q => q = r
  | alt a b => a.picksBy k r || (a.avoids k && b.picksBy k r)
  | _ => false

theorem leader_given (e : Expr) (k : Keyword) (leads : e.leader? = some k) (s left : List Char)
    (trees : List Tree) (given : Gives .free e s (.matched left trees)) :
    ∃ mid found, Gives .free (.kw k) s (.matched mid found) := by
  induction e generalizing left trees with
  | seq a b first _ =>
      obtain ⟨mid, found, _, front, -, -⟩ := given_seq given
      exact first leads mid found front
  | rule r =>
      cases r <;> cases leads
      exact ⟨left, trees, given⟩
  | empty | finish | one | word | alt | opt | many | more | notAt => cases leads

theorem leader_refused (e : Expr) (k : Keyword) (leads : e.leader? = some k) (s : List Char)
    (refused : Gives .free (.kw k) s .failed) : Gives .free e s .failed := by
  induction e with
  | seq a b first _ => exact gives_seq_failed (first leads)
  | rule r =>
      cases r <;> cases leads
      exact refused
  | empty | finish | one | word | alt | opt | many | more | notAt => cases leads

section Choice

variable (k : Keyword) (s left : List Char) (trees : List Tree)

section Word

variable (mid : List Char) (found : List Tree) (word : Gives .free (.kw k) s (.matched mid found))

include word

theorem avoided (e : Expr) (avoids : e.avoids k = true) : Gives .free e s .failed := by
  induction e with
  | alt a b first second =>
      obtain ⟨left, right⟩ := Bool.and_eq_true_iff.mp avoids
      exact gives_right (first left) (second right)
  | rule r =>
      obtain ⟨free, other⟩ := Bool.and_eq_true_iff.mp avoids
      obtain ⟨led, leads, differs⟩ := (Option.any_eq_true _ _).mp other
      have layout : r.layoutIn .free = .free := by rw [Rule.layoutIn, of_decide_eq_true free]
      refine gives_no_rule r ?_
      rw [layout]
      exact leader_refused r.body led leads s
        (other_keyword k led s mid found word (of_decide_eq_true differs))
  | empty | finish | one | word | seq | opt | many | more | notAt => cases avoids

theorem picked_by (e : Expr) (r : Rule) (picks : e.picksBy k r = true)
    (given : Gives .free (.rule r) s (.matched left trees)) :
    Gives .free e s (.matched left trees) := by
  induction e with
  | alt a b first second =>
      rcases Bool.or_eq_true_iff.mp picks with here | there
      · exact gives_left (first here)
      · obtain ⟨avoids, there⟩ := Bool.and_eq_true_iff.mp there
        exact gives_right (avoided k s mid found word a avoids) (second there)
  | rule q =>
      obtain rfl : q = r := of_decide_eq_true picks
      exact given
  | empty | finish | one | word | seq | opt | many | more | notAt => cases picks

end Word

def Expr.offersRules : Expr → Bool
  | rule _ => true
  | alt a b => a.offersRules && b.offersRules
  | _ => false

theorem offer_given (e : Expr) (offers : e.offersRules = true)
    (given : Gives .free e s (.matched left trees)) :
    ∃ r, Gives .free (.rule r) s (.matched left trees) := by
  induction e with
  | alt a b first second =>
      obtain ⟨one, two⟩ := Bool.and_eq_true_iff.mp offers
      rcases given_alt given with here | ⟨-, there⟩
      · exact first one here
      · exact second two there
  | rule r => exact ⟨r, given⟩
  | empty | finish | one | word | seq | opt | many | more | notAt => cases offers

end Choice

/-! ### Clauses -/

def Tree.describes (clause : Tree) : Bool :=
  match clause.rule with
  | .notNull | .nullClause | .defaultClause | .columnConstraintName | .autoIncrement => true
  | .identityClause => !clause.has .parenGroup
  | _ => false

def Tree.Descriptive (tree : Tree) : Prop := ∀ clause ∈ tree.children, clause.describes = true

theorem keyword_steady (k : Keyword) : (Expr.kw k).isSteady (Rule.steadyWithin 0) = true := by
  cases k <;> rfl

section Clauses

variable (rest : List Char) (ends : EndsItem rest) (s u left : List Char) (trees : List Tree)

theorem onward_end (nothing : skipLayout left = []) : Onward left := by
  intro c head
  rw [nothing] at head
  cases head

theorem onward_before (e : Expr) (refuses : e.refusedBy ['(', '\'', '<', ',', ')', ';'] = true)
    (given : Gives .free e (skipLayout left) (.matched s trees)) : Onward left := by
  intro c head member
  have solid : isSolid c = true := by
    simp only [List.mem_cons, List.not_mem_nil, or_false] at member
    rcases member with rfl | rfl | rfl | rfl | rfl | rfl <;> rfl
  cases gives_unique _ _ _ _ _ given
    (refused_front _ e c head solid (refused_by _ e refuses c member))

include ends

variable (ahead : Ahead rest s u) (bare : uncommented s = true) (onward : Onward left)

include ahead bare onward

omit onward in
theorem identity_goes_on (onward : Onward left)
    (given : Gives .free (.rule .identityClause) s (.matched left trees))
    (plain : ∀ clause ∈ trees, clause.has .parenGroup = false) :
    GoesOn rest (.rule .identityClause) u left trees := by
  refine rule_goes_on rest s u left trees .identityClause rfl rfl given fun kids same body => ?_
  subst same
  have absent := plain _ List.mem_cons_self
  obtain ⟨mid, found, later, front, back, rfl⟩ := given_seq body
  have mid_bare := uncommented_suffix s mid bare (given_suffix front)
  rcases given_opt back with group | ⟨-, rfl, rfl⟩
  · obtain ⟨_, -, rfl⟩ := given_rule group
    simp at absent
  · obtain ⟨there, others, after, between, alike⟩ :=
      steady_goes_on rest ends s u mid found ahead bare 0 _ (by decide) front
    have skipped := skip_ahead rest ends mid there mid_bare between
    have closed : (skipLayout mid).head? ≠ some '(' := fun head =>
      onward '(' ((congrArg List.head? (skip_again mid)).trans head) (by decide)
    have open_ := char_ahead rest ends _ _ skipped '(' (by decide) closed
    have none : Gives .free (.opt (.rule .parenGroup)) (skipLayout there) _ :=
      gives_no_opt (no_group _ open_)
    exact ⟨_, _, gives_seq [] after none, skipped, List.rel_append alike .nil⟩

theorem description_goes_on (r : Rule) (given : Gives .free (.rule r) s (.matched left trees))
    (describes : ∀ clause ∈ trees, clause.describes = true) :
    (∃ k, r.layout = .free ∧ r.body.leader? = some k ∧ columnClauses.picksBy k r = true) ∧
      GoesOn rest (.rule r) u left trees := by
  have steady (steady : (Expr.rule r).isSteady (Rule.steadyWithin 1) = true) :=
    steady_goes_on rest ends s u left trees ahead bare 1 (.rule r) steady given
  obtain ⟨kids, -, rfl⟩ := given_rule given
  have known := describes _ List.mem_cons_self
  unfold Tree.describes at known
  split at known
  case h_1 same =>
    obtain rfl : r = .notNull := same
    exact ⟨⟨.not, rfl, rfl, rfl⟩, steady (by decide)⟩
  case h_2 same =>
    obtain rfl : r = .nullClause := same
    exact ⟨⟨.null, rfl, rfl, rfl⟩, steady (by decide)⟩
  case h_3 same =>
    obtain rfl : r = .defaultClause := same
    refine ⟨⟨.default, rfl, rfl, rfl⟩, rule_goes_on rest s u left _ _ rfl rfl given fun kids _ body => ?_⟩
    exact seq_goes_on rest ends s u left kids _ _ bare body
      (fun t first _ given _ => steady_goes_on rest ends s u t first ahead bare 0 _ (by decide) given)
      fun s u last bare ahead solid _ given =>
        default_goes_on rest ends s u left last bare solid ahead onward given
  case h_4 same =>
    obtain rfl : r = .columnConstraintName := same
    refine ⟨⟨.constraint, rfl, rfl, rfl⟩, rule_goes_on rest s u left _ _ rfl rfl given
      fun kids _ body => ?_⟩
    exact seq_goes_on rest ends s u left kids _ _ bare body
      (fun t first _ given _ => steady_goes_on rest ends s u t first ahead bare 0 _ (by decide) given)
      fun s u last bare ahead _ _ given => closes_goes_on rest ends s u left last ahead _ given
        fun tail item => identifier_closes tail item s left last given
  case h_5 same =>
    obtain rfl : r = .autoIncrement := same
    exact ⟨⟨.autoIncrement, rfl, rfl, rfl⟩, steady (by decide)⟩
  case h_6 same =>
    obtain rfl : r = .identityClause := same
    exact ⟨⟨.generated, rfl, rfl, rfl⟩, identity_goes_on rest ends s u left _ ahead bare onward given
      (List.forall_mem_singleton.mpr ((Bool.not_eq_true' _).mp known))⟩
  case h_7 => cases known

theorem clause_goes_on (given : Gives .free (.rule .columnClause) s (.matched left trees))
    (descriptive : ∀ tree ∈ trees, tree.Descriptive) :
    GoesOn rest (.rule .columnClause) u left trees := by
  refine rule_goes_on rest s u left trees .columnClause rfl rfl given fun kids same body => ?_
  subst same
  obtain ⟨r, chosen⟩ := offer_given s left kids columnClauses rfl body
  obtain ⟨⟨k, free, leads, picks⟩, there, found, after, goes⟩ := description_goes_on rest ends s u left
    kids ahead bare onward r chosen (descriptive _ List.mem_cons_self)
  obtain ⟨_, inside, -⟩ := given_rule chosen
  rw [Rule.layoutIn, free] at inside
  obtain ⟨mid, first, word⟩ := leader_given r.body k leads s left _ inside
  obtain ⟨place, again, word, -, -⟩ :=
    steady_goes_on rest ends s u mid first ahead bare 0 (.kw k) (keyword_steady k) word
  exact ⟨there, found, picked_by k u there found place again word columnClauses r picks after, goes⟩

/-! ### What follows the name of a column -/

omit ahead bare onward in
theorem clauses_go_on (mid there : List Char) (clauses : List Tree) (bare : uncommented mid = true)
    (solid : skipLayout mid = mid) (steady : skipLayout there = there) (ahead : Ahead rest mid there)
    (nothing : skipLayout left = []) (descriptive : ∀ tree ∈ clauses, tree.Descriptive)
    (given : Gives .free (.many (.rule .columnClause)) mid (.matched left clauses)) :
    GoesOn rest (.many (.rule .columnClause)) there left clauses := by
  refine many_goes_on rest ends Tree.Descriptive _ mid left clauses solid given descriptive
    (fun s u next found more bare ahead later fits given => ?_) (fun u steady ahead _ => ?_) there
    bare steady ahead
  · refine clause_goes_on rest ends s u next found ahead bare ?_ given fits
    cases later with
    | done => exact onward_end _ nothing
    | item _ _ _ _ _ first _ => exact onward_before _ _ _ (.rule .columnClause) rfl first
  · rw [nothing] at ahead
    obtain ⟨c, t, member, rfl⟩ := ahead_end rest ends u steady ahead
    exact gives_refused t (item_end_solid c member) _ (refused_by [',', ')', ';'] _ rfl c member)

omit ends ahead bare onward in
theorem fragment_parts (given : Gives .free (.rule .columnFragment) s (.matched left trees)) :
    ∃ mid last type clauses final, trees = [.node .columnFragment s left (type :: clauses ++ final)] ∧
      Gives .free (.rule .dataType) (skipLayout s) (.matched mid [type]) ∧
      Gives .free (.many (.rule .columnClause)) (skipLayout mid) (.matched last clauses) ∧
      skipLayout last = [] ∧ ∀ tree ∈ final, tree.rule = .endOfInput := by
  obtain ⟨children, inside, rfl⟩ := given_rule given
  have inside : Gives .free Rule.columnFragment.body s (.matched left children) := inside
  obtain ⟨last, _, final, started, done, rfl⟩ := given_seq inside
  obtain ⟨_, _, _, empty, defined, rfl⟩ := given_seq started
  cases gives_unique _ _ _ _ _ empty gives_empty
  obtain ⟨mid, _, clauses, typed, listed, rfl⟩ := given_seq defined
  obtain ⟨kids, -, rfl⟩ := given_rule typed
  obtain ⟨_, finished, rfl⟩ := given_rule done
  refine ⟨mid, last, _, clauses, _, rfl, typed, listed, ?_, List.forall_mem_singleton.mpr rfl⟩
  obtain ⟨n, finished⟩ := finished
  have finished := finished (n + 1) (Nat.le_succ n)
  rw [show Rule.endOfInput.body = .finish from rfl, run] at finished
  split at finished
  case isTrue nothing => exact nothing
  case isFalse => cases finished

omit ahead onward in
-- A whole definition is read in front of the rest as it is read alone.
theorem definition_goes_on (mid last : List Char) (type : Tree) (clauses : List Tree)
    (descriptive : ∀ tree ∈ clauses, tree.Descriptive) (nothing : skipLayout last = [])
    (typed : Gives .free (.rule .dataType) (skipLayout s) (.matched mid [type]))
    (listed : Gives .free (.many (.rule .columnClause)) (skipLayout mid) (.matched last clauses)) :
    ∃ there place again others,
      Gives .free (.rule .dataType) (skipLayout (s ++ rest)) (.matched there [again]) ∧
      Gives .free (.many (.rule .columnClause)) (skipLayout there) (.matched place others) ∧
      skipLayout place = skipLayout rest ∧ type.Corresponds again ∧
      List.Forall₂ Tree.Corresponds clauses others := by
  have onward : Onward mid := by
    cases given_many _ _ _ _ _ (free_skip_again mid) listed with
    | done => exact onward_end mid ((skip_again mid).symm.trans nothing)
    | item _ _ _ _ _ first _ =>
        rw [show Layout.free.skip (skipLayout mid) = skipLayout mid from skip_again mid] at first
        exact onward_before _ _ _ (.rule .columnClause) rfl first
  have skipped := skip_layout_suffix s
  have skip_bare := uncommented_suffix s _ bare skipped
  have mid_bare := uncommented_suffix _ mid skip_bare (given_suffix typed)
  obtain ⟨there, again, type_given, between, one⟩ := data_type_goes_on rest ends _ _ mid [type]
    (skip_ahead rest ends s _ bare (.inside s)) skip_bare onward typed
  obtain ⟨place, others, clauses_given, beyond, alike⟩ := clauses_go_on rest ends last _ _ clauses
    (uncommented_suffix mid _ mid_bare (skip_layout_suffix mid)) (skip_again mid) (skip_again there)
    (skip_ahead rest ends mid there mid_bare between) nothing descriptive listed
  have last_bare := uncommented_suffix _ last
    (uncommented_suffix mid _ mid_bare (skip_layout_suffix mid)) (given_suffix listed)
  cases one with
  | cons first none =>
      cases none
      refine ⟨there, place, _, others, type_given, clauses_given, ?_, first, alike⟩
      have final := skip_ahead rest ends last place last_bare beyond
      rw [nothing] at final
      have solid := skip_again place
      generalize skipLayout place = v at final solid
      cases final with
      | inside => exact solid.symm
      | past => rfl

end Clauses

end SchemaDrift.Grammar
