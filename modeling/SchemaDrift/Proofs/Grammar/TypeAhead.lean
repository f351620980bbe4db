import SchemaDrift.Proofs.Grammar.Ahead
/-!
Names and types in front of the end of an item. A literal, a quoted name or arguments between
parentheses close before that end, or what is read by itself is no whole definition.
-/

set_option autoImplicit false

namespace SchemaDrift.Grammar

def GoesOn (rest : List Char) (e : Expr) (u left : List Char) (trees : List Tree) : Prop :=
  ∃ there found, Gives .free e u (.matched there found) ∧ Ahead rest left there ∧
    List.Forall₂ Tree.Corresponds trees found

def Closes (tail : List Char) (e : Expr) (s left : List Char) (trees : List Tree) : Prop :=
  ∃ found, Gives .free e (s ++ tail) (.matched (left ++ tail) found) ∧
    List.Forall₂ Tree.Corresponds trees found

-- Behind the layout opens no parenthesis, literal or bracket of a type, and nothing ends there.
def Onward (left : List Char) : Prop :=
  ∀ c, (skipLayout left).head? = some c → c ∉ ['(', '\'', '<', ',', ')', ';']

theorem passed_given {c : Char} (w left : List Char) (trees : List Tree) (solid : isSolid c = true)
    (e : Expr) (passes : e.start c = .passed) (given : Gives .free e (c :: w) (.matched left trees)) :
    left = c :: w := by
  cases gives_unique _ _ _ _ _ given (gives_passed w solid e passes)
  rfl

theorem node_corresponds (r : Rule) (layout : Layout) (s u left there : List Char)
    (children others : List Tree) (given : Gives layout r.body s (.matched left children))
    (forgets : r.keepsText = false) (alike : List.Forall₂ Tree.Corresponds children others) :
    (Tree.node r s left children).Corresponds (.node r u there others) := by
  refine .node r _ _ _ _ _ _ (given_rules given) (fun keeps => ?_) alike
  rw [forgets] at keeps
  cases keeps

section Ahead

variable (rest : List Char) (ends : EndsItem rest) (s u left : List Char) (trees : List Tree)

theorem rule_goes_on (r : Rule) (free : r.layout = .free) (forgets : r.keepsText = false)
    (given : Gives .free (.rule r) s (.matched left trees))
    (body : ∀ children, trees = [.node r s left children] →
      Gives .free r.body s (.matched left children) → GoesOn rest r.body u left children) :
    GoesOn rest (.rule r) u left trees := by
  have layout : r.layoutIn .free = .free := by rw [Rule.layoutIn, free]
  obtain ⟨children, inside, rfl⟩ := given_rule given
  rw [layout] at inside
  obtain ⟨there, others, after, between, alike⟩ := body children rfl inside
  rw [← layout] at after
  exact ⟨there, _, gives_rule r after, between,
    .cons (node_corresponds r .free _ _ _ _ _ _ inside forgets alike) .nil⟩

include ends

theorem seq_goes_on (a b : Expr) (bare : uncommented s = true)
    (given : Gives .free (a ++ b) s (.matched left trees))
    (first : ∀ mid found later, Gives .free a s (.matched mid found) →
      Gives .free b (skipLayout mid) (.matched left later) → GoesOn rest a u mid found)
    (second : ∀ mid there later, uncommented mid = true → Ahead rest mid there →
      skipLayout mid = mid → skipLayout there = there →
      Gives .free b mid (.matched left later) → GoesOn rest b there left later) :
    GoesOn rest (a ++ b) u left trees := by
  obtain ⟨mid, found, later, front, back, rfl⟩ := given_seq given
  obtain ⟨there, others, given, between, alike⟩ := first mid found later front back
  have mid_bare := uncommented_suffix s mid bare (given_suffix front)
  obtain ⟨place, more, after, beyond, same⟩ := second _ _ later
    (uncommented_suffix mid _ mid_bare (skip_layout_suffix mid))
    (skip_ahead rest ends mid there mid_bare between) (skip_again mid) (skip_again there) back
  exact ⟨place, others ++ more, gives_seq more given after, beyond, List.rel_append alike same⟩

variable (ahead : Ahead rest s u)

include ahead

theorem steady_goes_on (bare : uncommented s = true) (n : Nat) (e : Expr)
    (steady : e.isSteady (Rule.steadyWithin n) = true)
    (given : Gives .free e s (.matched left trees)) : GoesOn rest e u left trees :=
  (steady_given rest ends n e steady s u bare ahead).2 left trees given

theorem char_ahead (c : Char) (other : c ∉ [',', ')', ';', '\n']) (outside : s.head? ≠ some c) :
    u.head? ≠ some c := fun head =>
  (tail_head rest ends s u ahead c head).elim outside fun past => other past.2

theorem read_char_goes_on (c : Char) (given : Gives .free (.char c) s (.matched left trees)) :
    GoesOn rest (.char c) u left trees := by
  obtain rfl := given_char given
  obtain ⟨tail, rfl, -, places⟩ := ahead_tail rest ends _ u ahead
  cases gives_unique _ _ _ _ _ given (gives_char c)
  exact ⟨left ++ tail, [], gives_char c, places left (List.suffix_cons c left), .nil⟩

theorem closes_goes_on (e : Expr) (given : Gives .free e s (.matched left trees))
    (closes : ∀ tail, EndsItem tail → Closes tail e s left trees) : GoesOn rest e u left trees := by
  obtain ⟨tail, rfl, item, places⟩ := ahead_tail rest ends s u ahead
  obtain ⟨found, after, alike⟩ := closes tail item
  exact ⟨left ++ tail, found, after, places left (given_suffix given), alike⟩

end Ahead

/-! ### Literals -/

theorem literal_closes (tail : List Char) (item : EndsItem tail) (s left : List Char)
    (trees : List Tree) (given : Gives .free (.rule .stringLit) s (.matched left trees)) :
    Closes tail (.rule .stringLit) s left trees := by
  obtain ⟨fuel, given⟩ := given
  obtain ⟨found, rfl⟩ := string_lit_read _ _ _ _ _ (given fuel (Nat.le_refl fuel))
  obtain ⟨l, rfl, whole, apart⟩ := (after_literal_iff _ _).mp found
  have other := char_ahead tail item left _ (.inside left) '\'' (by decide) apart
  have text : (Tree.node .stringLit (l ++ left) left []).text
      = (Tree.node .stringLit (l ++ (left ++ tail)) (left ++ tail) []).text := by
    rw [tree_text, tree_text]
  rw [Closes, List.append_assoc]
  exact ⟨_, literal_given l _ whole other,
    .cons (.node _ _ _ _ _ _ _ (List.forall_mem_nil _) (fun _ => .inl text) .nil) .nil⟩

/-! ### Type names -/

theorem blanks_given (s : List Char) (space : s.head?.any isSpace = true) :
    Gives .token blanks s (.matched (skipSpaces s) []) := by
  cases s with
  | nil => cases space
  | cons c s =>
      have inside : ∀ d ∈ s.takeWhile isSpace, CharSet.blank.has d = true := fun d member =>
        List.mem_takeWhile_imp member
      have ends : CharSet.blank.Ends (skipSpaces s) := fun d head => by
        have first := List.head?_dropWhile_not isSpace s
        rw [show s.dropWhile isSpace = skipSpaces s from rfl, head] at first
        exact first
      have others := span_read .blank _ _ inside ends
      rw [show s.takeWhile isSpace ++ skipSpaces s = s from List.takeWhile_append_dropWhile] at others
      rw [show skipSpaces (c :: s) = skipSpaces s from List.dropWhile_cons_of_pos space]
      exact gives_seq [] (gives_one .blank c space) others

theorem no_blanks (s : List Char) (ink : s.head?.any isSpace = false) :
    Gives .token blanks s .failed := by
  refine gives_seq_failed (gives_no_one .blank fun c head => ?_)
  rw [head] at ink
  exact ink

theorem wordy_given (e : Expr) (wordy : e.isWordy = true) (s tail : List Char)
    (ends : CharSet.identifier.Ends tail) (o : Outcome) (given : Gives .token e s o) :
    Gives .token e (s ++ tail) (o.extend tail) := by
  obtain ⟨n, given⟩ := given
  exact ⟨n, fun fuel le => by rw [wordy_before fuel e s tail wordy ends, given fuel le]⟩

theorem spaces_before (s tail : List Char) : skipSpaces (s ++ tail) =
    if skipSpaces s = [] then skipSpaces tail else skipSpaces s ++ tail := by
  rw [skipSpaces, List.dropWhile_append, show s.dropWhile isSpace = skipSpaces s from rfl]
  cases skipSpaces s <;> rfl

theorem spaces_end (tail : List Char) (item : EndsItem tail) : EndsItem (skipSpaces tail) := by
  obtain ⟨c, t, member, same⟩ := item
  have solid : skipSpaces (c :: t) = c :: t := by
    refine List.dropWhile_cons_of_neg ?_
    simp only [List.mem_cons, List.not_mem_nil, or_false] at member
    rcases member with rfl | rfl | rfl <;> decide
  have skipped : skipSpaces tail = c :: t := by
    rcases same with rfl | rfl
    · exact solid
    · exact (List.dropWhile_cons_of_pos rfl).trans solid
  exact skipped ▸ ends_item_cons c t member

theorem word_given {layout : Layout} (lower s left : List Char) (trees : List Tree)
    (given : Gives layout (.word lower) s (.matched left trees)) :
    dropWord? lower s = some left ∧ trees = [] := by
  cases dropped : dropWord? lower s with
  | none => cases gives_unique _ _ _ _ _ given (gives_no_word lower dropped)
  | some t =>
      cases gives_unique _ _ _ _ _ given (gives_word lower dropped)
      exact ⟨rfl, rfl⟩

theorem keyword_given {layout : Layout} (k : Keyword) (s left : List Char) (trees : List Tree)
    (given : Gives layout (.kw k) s (.matched left trees)) : ∃ word, s = word ++ left ∧
      word.map Char.toLower = k.text.toList ∧ CharSet.identifier.Ends left := by
  obtain ⟨_, body, -⟩ := given_rule given
  obtain ⟨_, _, _, word, apart, -⟩ := given_seq body
  obtain ⟨outside, rfl, -⟩ := given_not apart
  obtain ⟨dropped, -⟩ := word_given _ _ _ _ word
  obtain ⟨front, back, rfl, same, letters⟩ := drop_word_within _ s [] left (keyword_plain k)
    (by rintro c ⟨⟩) (by rwa [List.append_nil])
  rw [List.append_nil] at same
  subst same
  refine ⟨front, rfl, letters, fun c head => ?_⟩
  obtain ⟨w, rfl⟩ := List.head?_eq_some_iff.mp head
  refine Bool.eq_false_iff.mpr fun inside => ?_
  cases gives_unique _ _ _ _ _ outside (gives_one .identifier c inside)

section TwoWords

variable (v w : String) (first : (Expr.word v.toList).isWordy = true)
  (second : (Expr.wholeWord w).isWordy = true) (some : w.toList ≠ [])
  (s tail : List Char) (item : EndsItem tail)

include second item in
theorem second_word_missing (missing : Gives .token (.wholeWord w) (skipSpaces s) .failed) :
    Gives .token (.wholeWord w) (skipSpaces (s ++ tail)) .failed := by
  rw [spaces_before]
  split
  case isFalse => exact wordy_given _ second _ tail (ends_item_apart tail item) _ missing
  case isTrue nothing =>
    rw [nothing] at missing
    exact wordy_given _ second [] _ (ends_item_apart _ (spaces_end tail item)) _ missing

include some in
theorem no_word_at_end : Gives .token (.wholeWord w) [] .failed := by
  obtain ⟨a, lower, same⟩ := List.exists_cons_of_ne_nil some
  refine gives_seq_failed (gives_no_word _ ?_)
  rw [same]
  rfl

include first second some item in
theorem two_words_given (left : List Char) (trees : List Tree)
    (given : Gives .token (.word v.toList ++ blanks ++ .wholeWord w) s (.matched left trees)) :
    trees = [] ∧ Gives .token (.word v.toList ++ blanks ++ .wholeWord w) (s ++ tail)
      (.matched (left ++ tail) []) := by
  have apart := ends_item_apart tail item
  obtain ⟨mid, found, later, front, back, rfl⟩ := given_seq given
  obtain ⟨t, one, two, word, gap, rfl⟩ := given_seq front
  obtain ⟨-, rfl⟩ := word_given _ _ _ _ word
  cases space : t.head?.any isSpace with
  | false => cases gives_unique _ _ _ _ _ gap (no_blanks t space)
  | true =>
      cases gives_unique _ _ _ _ _ gap (blanks_given t space)
      have visible : skipSpaces t ≠ [] := by
        intro nothing
        rw [show Layout.token.skip (skipSpaces t) = [] from nothing] at back
        cases gives_unique _ _ _ _ _ back (no_word_at_end w some)
      obtain rfl : later = [] := List.eq_nil_iff_forall_not_mem.mpr fun tree member =>
        List.not_mem_nil (given_rules back tree member)
      obtain ⟨c, t, rfl⟩ : ∃ c r, t = c :: r := by
        cases t with
        | nil => cases space
        | cons c t => exact ⟨c, t, rfl⟩
      have gap := blanks_given (c :: t ++ tail) space
      rw [spaces_before, if_neg visible] at gap
      exact ⟨rfl, gives_seq [] (gives_seq [] (wordy_given _ first s tail apart _ word) gap)
        (wordy_given _ second _ tail apart _ back)⟩

include first second some item in
theorem two_words_missing
    (missing : Gives .token (.word v.toList ++ blanks ++ .wholeWord w) s .failed) :
    Gives .token (.word v.toList ++ blanks ++ .wholeWord w) (s ++ tail) .failed := by
  have apart := ends_item_apart tail item
  -- Behind white space it is the second word that is missing, wherever the first text ends.
  have behind (t : List Char) (word : Gives .token (.word v.toList) (s ++ tail) (.matched (t ++ tail) []))
      (space : (t ++ tail).head?.any isSpace = true)
      (back : Gives .token (.wholeWord w) (skipSpaces t) .failed) :
      Gives .token (.word v.toList ++ blanks ++ .wholeWord w) (s ++ tail) .failed :=
    gives_seq_stuck (gives_seq [] word (blanks_given _ space))
      (second_word_missing w second t tail item back)
  rcases given_no_seq missing with front | ⟨mid, found, front, back⟩
  · rcases given_no_seq front with word | ⟨t, one, word, gap⟩
    · exact gives_seq_failed (gives_seq_failed (wordy_given _ first s tail apart _ word))
    · obtain ⟨-, rfl⟩ := word_given _ _ _ _ word
      have here := wordy_given _ first s tail apart _ word
      cases space : (t ++ tail).head?.any isSpace with
      | false => exact gives_seq_failed (gives_seq_stuck here (no_blanks _ space))
      | true =>
          cases t with
          | nil => exact behind [] here space (no_word_at_end w some)
          | cons c t => cases gives_unique _ _ _ _ _ gap (blanks_given (c :: t) space)
  · obtain ⟨t, one, two, word, gap, rfl⟩ := given_seq front
    obtain ⟨-, rfl⟩ := word_given _ _ _ _ word
    have here := wordy_given _ first s tail apart _ word
    cases space : t.head?.any isSpace with
    | false => cases gives_unique _ _ _ _ _ gap (no_blanks t space)
    | true =>
        cases gives_unique _ _ _ _ _ gap (blanks_given t space)
        cases t with
        | nil => cases space
        | cons c t => exact behind (c :: t) here space back

end TwoWords

theorem type_name_closes (tail : List Char) (item : EndsItem tail) (s left : List Char)
    (trees : List Tree) (given : Gives .free (.rule .typeName) s (.matched left trees)) :
    Closes tail (.rule .typeName) s left trees := by
  have suffix := given_suffix given
  obtain ⟨children, body, rfl⟩ := given_rule given
  have apart := ends_item_apart tail item
  have none : children = [] := List.eq_nil_iff_forall_not_mem.mpr fun tree member =>
    List.not_mem_nil (given_rules body tree member)
  subst none
  have after : Gives .token Rule.typeName.body (s ++ tail) (.matched (left ++ tail) []) := by
    rcases given_alt body with words | ⟨missing, bare⟩
    · rcases given_alt words with double | ⟨single, varying⟩
      · exact gives_left (gives_left
          (two_words_given "double" "precision" rfl rfl (by decide) s tail item _ _ double).2)
      · exact gives_left (gives_right
          (two_words_missing "double" "precision" rfl rfl (by decide) s tail item single)
          (two_words_given "character" "varying" rfl rfl (by decide) s tail item _ _ varying).2)
    · obtain ⟨single, constant⟩ := given_no_alt missing
      exact gives_right (gives_right
        (two_words_missing "double" "precision" rfl rfl (by decide) s tail item single)
        (two_words_missing "character" "varying" rfl rfl (by decide) s tail item constant))
        (wordy_given _ rfl s tail apart _ bare)
  exact ⟨_, gives_rule .typeName after, .cons (.node _ _ _ _ _ _ _ (List.forall_mem_nil _)
    (fun _ => .inl (text_ahead .typeName s left tail suffix [] [])) .nil) .nil⟩

section Types

variable (rest : List Char) (ends : EndsItem rest) (s u left : List Char) (trees : List Tree)
  (ahead : Ahead rest s u)

include ends ahead

omit ends in
theorem ahead_inside (visible : s ≠ []) : u = s ++ rest := by
  cases ahead with
  | inside => rfl
  | past => exact absurd rfl visible

variable (bare : uncommented s = true)

include bare

theorem type_arg_goes_on (visible : left ≠ [])
    (given : Gives .free (.rule .typeArg) s (.matched left trees)) :
    GoesOn rest (.rule .typeArg) u left trees := by
  have suffix := given_suffix given
  obtain ⟨children, body, rfl⟩ := given_rule given
  have outside : s ≠ [] := by
    rintro rfl
    exact visible (List.suffix_nil.mp suffix)
  have after : GoesOn rest Rule.typeArg.body u left children := by
    rcases given_alt body with simple | ⟨other, literal⟩
    · obtain ⟨there, found, given, rest⟩ :=
        steady_goes_on rest ends s u left children ahead bare 0 _ rfl simple
      exact ⟨there, found, gives_left given, rest⟩
    · obtain ⟨there, found, given, after⟩ := closes_goes_on rest ends s u left children ahead _
        literal fun tail item => literal_closes tail item s left children literal
      exact ⟨there, found, gives_right
        ((steady_given rest ends 0 _ rfl s u bare ahead).1 other) given, after⟩
  obtain rfl := ahead_inside rest s u ahead outside
  obtain ⟨there, found, after, between, alike⟩ := after
  obtain rfl := ahead_inside rest left there between visible
  exact ⟨left ++ rest, _, gives_rule .typeArg after, between,
    .cons (.node _ _ _ _ _ _ _ (given_rules body)
      (fun _ => .inl (text_ahead .typeArg s left rest suffix _ _)) alike) .nil⟩

end Types

section Items

variable (rest : List Char) (ends : EndsItem rest)

include ends

theorem items_go_on (P : Tree → Prop) (a : Expr) (s left : List Char) (trees : List Tree)
    (items : Items .free a s left trees) (fits : ∀ tree ∈ trees, P tree)
    (each : ∀ s u mid found more, uncommented s = true → Ahead rest s u →
      Items .free a mid left more → (∀ tree ∈ found, P tree) →
      Gives .free a s (.matched mid found) → GoesOn rest a u mid found)
    (stops : ∀ u, skipLayout u = u → Ahead rest (skipLayout left) u →
      Gives .free a (skipLayout left) .failed → Gives .free a u .failed)
    (u : List Char) (bare : uncommented s = true)
    (ahead : Ahead rest s u) : GoesOn rest (.more a) u left trees := by
  induction items generalizing u with
  | done s stop =>
      have skipped := skip_ahead rest ends s u bare ahead
      exact ⟨u, [], gives_no_later (stops _ (skip_again u) skipped stop), ahead, .nil⟩
  | item s mid left found more first later ih =>
      have skip_bare := uncommented_suffix s _ bare (skip_layout_suffix s)
      have mid_bare := uncommented_suffix _ mid skip_bare (given_suffix first)
      obtain ⟨here, others⟩ := List.forall_mem_append.mp fits
      obtain ⟨there, found, after, between, alike⟩ :=
        each _ _ mid _ more skip_bare (skip_ahead rest ends s u bare ahead) later here first
      obtain ⟨place, last, beyond, final, same⟩ := ih others each stops there mid_bare between
      exact ⟨place, found ++ last, gives_later last after beyond, final, List.rel_append alike same⟩

theorem many_goes_on (P : Tree → Prop) (a : Expr) (s left : List Char) (trees : List Tree)
    (solid : skipLayout s = s) (given : Gives .free (.many a) s (.matched left trees))
    (fits : ∀ tree ∈ trees, P tree)
    (each : ∀ s u mid found more, uncommented s = true → Ahead rest s u →
      Items .free a mid left more → (∀ tree ∈ found, P tree) →
      Gives .free a s (.matched mid found) → GoesOn rest a u mid found)
    (stops : ∀ u, skipLayout u = u → Ahead rest (skipLayout left) u →
      Gives .free a (skipLayout left) .failed → Gives .free a u .failed)
    (u : List Char) (bare : uncommented s = true) (steady : skipLayout u = u)
    (ahead : Ahead rest s u) : GoesOn rest (.many a) u left trees := by
  obtain ⟨there, found, after, between, alike⟩ := items_go_on rest ends P a s left trees
    (given_many _ _ _ _ _ solid given) fits each stops u bare ahead
  exact ⟨there, found, gives_many_later steady after, between, alike⟩

end Items

section Types

variable (rest : List Char) (ends : EndsItem rest) (s u left : List Char) (trees : List Tree)
  (ahead : Ahead rest s u) (bare : uncommented s = true)

include ends ahead bare

theorem type_args_go_on (given : Gives .free (.rule .typeArgs) s (.matched left trees)) :
    GoesOn rest (.rule .typeArgs) u left trees := by
  refine rule_goes_on rest s u left trees .typeArgs rfl rfl given fun children _ body => ?_
  refine seq_goes_on rest ends s u left children _ _ bare body (fun mid found last opened close => ?_)
    fun mid there last _ ahead _ _ given =>
      read_char_goes_on rest ends mid there left last ahead ')' given
  -- The parenthesis behind the arguments shows where they end.
  have closed := given_char close
  have visible (t : List Char) (within : mid <:+ t) : t ≠ [] := by
    rintro rfl
    rw [List.suffix_nil.mp within, skip_nothing] at closed
    cases closed
  have stops (u : List Char) (ahead : Ahead rest (skipLayout mid) u) : u.head? ≠ some ',' := by
    rw [closed] at ahead
    rw [ahead_inside rest _ u ahead (List.cons_ne_nil _ _)]
    rintro ⟨⟩
  have arg (s u t : List Char) (found : List Tree) (bare : uncommented s = true)
      (ahead : Ahead rest s u) (within : mid <:+ t)
      (given : Gives .free (.rule .typeArg) s (.matched t found)) :=
    type_arg_goes_on rest ends s u t found ahead bare (visible t within) given
  refine seq_goes_on rest ends s u mid found _ _ bare opened
    (fun t first _ given _ => read_char_goes_on rest ends s u t first ahead '(' given)
    fun s u _ bare ahead _ _ given => ?_
  refine seq_goes_on rest ends s u mid _ _ _ bare given (fun t first more given later =>
      arg s u t first bare ahead ((given_suffix later).trans (skip_layout_suffix t)) given)
    fun s u _ bare ahead solid steady given => ?_
  refine many_goes_on rest ends (fun _ => True) _ s mid _ solid given (fun _ _ => trivial)
    (fun s u t found more bare ahead later _ given => ?_)
    (fun u _ ahead _ => gives_seq_failed (gives_other_char ',' (stops u ahead))) u bare steady ahead
  have within : mid <:+ t := given_suffix (gives_items _ _ _ _ _ later)
  exact seq_goes_on rest ends s u t found _ _ bare given
    (fun t first _ given _ => read_char_goes_on rest ends s u t first ahead ',' given)
    fun s u last bare ahead _ _ given => arg s u t last bare ahead within given

omit ends ahead bare in
theorem bracket_left (c : Char) (w two three four : List Char) (one other more : List Tree)
    (opens : c ∈ ['(', '<']) (here : skipLayout two = c :: w)
    (zone : Gives .free (.opt (.rule .timeZone)) (skipLayout two) (.matched three one))
    (sign : Gives .free (.opt (.kw .unsigned)) (skipLayout three) (.matched four other))
    (suffixes : Gives .free (.many (.rule .arraySuffix)) (skipLayout four) (.matched left more)) :
    ¬Onward left := by
  have solid : isSolid c = true := by
    simp only [List.mem_cons, List.not_mem_nil, or_false] at opens
    rcases opens with rfl | rfl <;> rfl
  have passes (e : Expr) (all : ['(', '<'].all (fun c => decide (e.start c = .passed)) = true) :
      e.start c = .passed := of_decide_eq_true (List.all_eq_true.mp all c opens)
  have next := skip_solid_char c w solid
  rw [here] at zone
  obtain rfl := passed_given w three _ solid _ (passes _ (by decide)) zone
  rw [next] at sign
  obtain rfl := passed_given w four _ solid _ (passes _ (by decide)) sign
  rw [next] at suffixes
  obtain rfl := passed_given w left _ solid _ (passes _ (by decide)) suffixes
  intro onward
  refine onward c (by rw [next]; rfl) ?_
  simp only [List.mem_cons, List.not_mem_nil, or_false] at opens ⊢
  tauto

-- Where the arguments are missing and a parenthesis opens, nothing of the type is read behind it.
theorem scalar_type_goes_on (onward : Onward left)
    (given : Gives .free (.rule .scalarType) s (.matched left trees)) :
    GoesOn rest (.rule .scalarType) u left trees := by
  refine rule_goes_on rest s u left trees .scalarType rfl rfl given fun children _ body => ?_
  refine seq_goes_on rest ends s u left children _ _ bare body (fun four found last given suffixes => ?_)
    fun s u last bare ahead _ _ given =>
      steady_goes_on rest ends s u left last ahead bare 2 _ (by decide) given
  refine seq_goes_on rest ends s u four found _ _ bare given (fun three found last given sign => ?_)
    fun s u last bare ahead _ _ given =>
      steady_goes_on rest ends s u four last ahead bare 0 _ (by decide) given
  refine seq_goes_on rest ends s u three found _ _ bare given (fun two found last given zone => ?_)
    fun s u last bare ahead _ _ given =>
      steady_goes_on rest ends s u three last ahead bare 1 _ (by decide) given
  refine seq_goes_on rest ends s u two found _ _ bare given
    (fun one name args given _ => closes_goes_on rest ends s u one name ahead _ given
      fun tail item => type_name_closes tail item s one name given)
    fun s u args bare ahead solid _ given => ?_
  rcases given_opt given with there | ⟨missing, rfl, rfl⟩
  · obtain ⟨place, found, after, rest⟩ := type_args_go_on rest ends s u two args ahead bare there
    exact ⟨place, found, gives_opt after, rest⟩
  · have closed : two.head? ≠ some '(' := by
      intro head
      obtain ⟨w, rfl⟩ := List.head?_eq_some_iff.mp head
      exact bracket_left left '(' w _ three four _ _ _ (by decide) solid zone sign suffixes onward
    have absent : Gives .free (.rule .typeArgs) u .failed :=
      gives_no_rule .typeArgs (gives_seq_failed (gives_seq_failed
        (gives_other_char '(' (char_ahead rest ends two u ahead '(' (by decide) closed))))
    exact ⟨u, [], gives_no_opt absent, ahead, .nil⟩

theorem array_type_goes_on (given : Gives .free (.rule .arrayType) s (.matched left trees)) :
    GoesOn rest (.rule .arrayType) u left trees := by
  refine rule_goes_on rest s u left trees .arrayType rfl rfl given fun children _ body => ?_
  refine seq_goes_on rest ends s u left children _ _ bare body (fun mid found last opened close => ?_)
    fun s u last bare ahead _ _ given =>
      steady_goes_on rest ends s u left last ahead bare 0 _ (by decide) given
  have onward : Onward mid := by
    intro c head
    rw [given_char close] at head
    cases head
    decide
  refine seq_goes_on rest ends s u mid found _ _ bare opened (fun t first _ given _ => ?_)
    fun s u last bare ahead _ _ given =>
      scalar_type_goes_on rest ends s u mid last ahead bare onward given
  exact steady_goes_on rest ends s u t first ahead bare 0 (.kw .array ++ .char '<') (by decide) given

omit ends ahead bare in
theorem array_name_given (given : Gives .free (.kw .array) s (.matched left trees)) :
    ∃ name, Gives .free (.rule .typeName) s (.matched left name) := by
  obtain ⟨front, rfl, letters, after⟩ := keyword_given .array s left trees given
  obtain ⟨c, w, rfl⟩ := List.exists_cons_of_ne_nil (l := front) (by rintro rfl; cases letters)
  obtain ⟨first, others⟩ := List.cons.inj letters
  have start : CharSet.identifierStart.has c = true := by
    by_cases upper : c.isUpper = true
    · simp [CharSet.has, Char.isAlpha, upper]
    · rw [Char.toLower_eq_of_not_isUpper (by simpa using upper)] at first
      rw [first]
      rfl
  have inside (d : Char) (member : d ∈ w) : CharSet.identifier.has d = true :=
    lower_in_identifier d (keyword_plain .array _ (List.mem_cons_of_mem _
      (others ▸ List.mem_map_of_mem member)))
  have other (a : Char) (lower : List Char) (differs : 'a' ≠ a) :
      Gives .token (.word (a :: lower) ++ blanks) (c :: w ++ left) .failed := by
    refine gives_seq_failed (gives_no_word _ (if_neg ?_))
    rw [first]
    exact differs
  exact ⟨_, gives_rule .typeName (gives_right (gives_right
    (gives_seq_failed (other _ _ (by decide))) (gives_seq_failed (other _ _ (by decide))))
    (gives_seq [] (gives_one .identifierStart c start) (span_read .identifier w left inside after)))⟩

theorem data_type_goes_on (onward : Onward left)
    (given : Gives .free (.rule .dataType) s (.matched left trees)) :
    GoesOn rest (.rule .dataType) u left trees := by
  refine rule_goes_on rest s u left trees .dataType rfl rfl given fun children _ body => ?_
  rcases given_alt body with array | ⟨missing, scalar⟩
  · obtain ⟨there, found, after, rest⟩ := array_type_goes_on rest ends s u left children ahead bare array
    exact ⟨there, found, gives_left after, rest⟩
  · obtain ⟨there, found, after, between⟩ :=
      scalar_type_goes_on rest ends s u left children ahead bare onward scalar
    refine ⟨there, found, gives_right (gives_no_rule .arrayType ?_) after, between⟩
    -- Had a bracket opened behind the word, it would be left where the type ends.
    have unopened (t : List Char) (trees : List Tree) :
        ¬Gives .free (.kw .array ++ .char '<') s (.matched t trees) := by
      intro opened
      obtain ⟨mid, _, _, word, bracket, -⟩ := given_seq opened
      obtain ⟨name, named⟩ := array_name_given s mid _ word
      obtain ⟨_, body, -⟩ := given_rule scalar
      obtain ⟨four, _, _, body, suffixes, -⟩ := given_seq body
      obtain ⟨three, _, _, body, sign, -⟩ := given_seq body
      obtain ⟨two, _, _, body, zone, -⟩ := given_seq body
      obtain ⟨one, _, _, body, args, -⟩ := given_seq body
      cases gives_unique _ _ _ _ _ body named
      have head : skipLayout mid = '<' :: t := given_char bracket
      have args : Gives .free (.opt (.rule .typeArgs)) (skipLayout mid) (.matched two _) := args
      rw [head] at args
      obtain rfl := passed_given t two _ rfl _ rfl args
      exact bracket_left left '<' t _ three four _ _ _ (by decide) (skip_solid_char '<' t rfl) zone sign
        suffixes onward
    rcases given_no_seq (given_no_rule missing) with front | ⟨_, _, front, _⟩
    · rcases given_no_seq front with front | ⟨_, _, front, _⟩
      · exact gives_seq_failed (gives_seq_failed
          ((steady_given rest ends 0 _ (by decide) s u bare ahead).1 front))
      · exact absurd front (unopened _ _)
    · obtain ⟨_, _, _, front, _⟩ := given_seq front
      exact absurd front (unopened _ _)

end Types

end SchemaDrift.Grammar
