import SchemaDrift.Ddl.Type
import SchemaDrift.Proofs.Expression.Default
import SchemaDrift.Proofs.Grammar.Listing
/-!
A native type without modifiers is read back as it is written: its name, its arguments and its
array brackets, at the end of a text and in front of the rest of a column.
-/

set_option autoImplicit false

namespace SchemaDrift

open Grammar

/-! ### Punctuation -/

def typeMarks : List Char := ['(', ')', ',', '<', '>', '[', ']', ';']

def Marked (s : List Char) : Prop := ∀ c, s.head? = some c → c ∈ typeMarks

theorem marked_nil : Marked [] := fun c head => by cases head

theorem marked_cons (c : Char) (s : List Char) (mark : c ∈ typeMarks) : Marked (c :: s) := by
  rintro d ⟨⟩
  exact mark

theorem mark_apart (c : Char) (mark : c ∈ typeMarks) :
    CharSet.identifier.has c = false ∧ CharSet.blank.has c = false ∧ c ≠ '-' ∧ c ≠ '/' := by
  simp only [typeMarks, List.mem_cons, List.not_mem_nil, or_false] at mark
  rcases mark with rfl | rfl | rfl | rfl | rfl | rfl | rfl | rfl <;> decide

theorem marked_ends (s : List Char) (marked : Marked s) : CharSet.identifier.Ends s :=
  fun c head => (mark_apart c (marked c head)).1

theorem marked_blank (s : List Char) (marked : Marked s) : CharSet.blank.Ends s :=
  fun c head => (mark_apart c (marked c head)).2.1

theorem skip_marked (s : List Char) (marked : Marked s) : skipLayout s = s :=
  skip_solid s (marked_blank s marked) (fun head => (mark_apart _ (marked _ head)).2.2.1 rfl)
    (fun head => (mark_apart _ (marked _ head)).2.2.2 rfl)

-- What follows a type: a mark, or behind white space one of the letters that the rest of a column
-- starts with.
def columnLetters : List Char := ['N', 'D', 'A']

def EndsType (rest : List Char) : Prop :=
  rest = [] ∨ ∃ b c s, Blank b ∧ rest = b ++ c :: s ∧ (c ∈ typeMarks ∨ b ≠ [] ∧ c ∈ columnLetters)

theorem ends_type_marked (rest : List Char) (marked : Marked rest) : EndsType rest := by
  cases rest with
  | nil => exact .inl rfl
  | cons c s => exact .inr ⟨[], c, s, List.forall_mem_nil _, rfl, .inl (marked c rfl)⟩

theorem mark_solid (c : Char) (mark : c ∈ typeMarks) : isSolid c = true := by
  obtain ⟨-, blank, dash, slash⟩ := mark_apart c mark
  simp only [isSolid, show isSpace c = false from blank, dash, slash, ne_eq, not_false_eq_true,
    decide_true, Bool.not_false, Bool.and_self]

theorem letter_solid (c : Char) (letter : c ∈ columnLetters) : isSolid c = true := by
  simp only [columnLetters, List.mem_cons, List.not_mem_nil, or_false] at letter
  rcases letter with rfl | rfl | rfl <;> rfl

theorem ends_type_apart (rest : List Char) (ends : EndsType rest) : CharSet.identifier.Ends rest := by
  rcases ends with rfl | ⟨b, c, s, blank, rfl, next⟩
  · intro c head
    cases head
  · cases b with
    | nil =>
        have mark := next.resolve_right fun letter => letter.1 rfl
        exact ends_cons _ c s (mark_apart c mark).1
    | cons d b =>
        refine ends_cons _ d _ (Bool.eq_false_iff.mpr fun inside => ?_)
        have space := blank d List.mem_cons_self
        rw [show isSpace d = false from blank_not_in_identifier d inside] at space
        cases space

theorem skip_type_end (rest : List Char) (ends : EndsType rest) :
    skipLayout rest = [] ∨
      ∃ c s, skipLayout rest = c :: s ∧ isSolid c = true ∧ c ∈ typeMarks ++ columnLetters := by
  rcases ends with rfl | ⟨b, c, s, blank, rfl, next⟩
  · exact .inl (skip_marked [] marked_nil)
  · right
    have solid : isSolid c = true :=
      next.elim (mark_solid c) fun letter => letter_solid c letter.2
    refine ⟨c, s, (skip_blanks b _ blank).trans (skip_solid_char c s solid), solid, ?_⟩
    exact List.mem_append.mpr (next.imp_right And.right)

theorem rule_absent (r : Rule) (rest : List Char) (ends : EndsType rest) (reads : r.reads = true)
    (refused : (Expr.rule r).refusedBy (typeMarks ++ columnLetters) = true) :
    Gives .free (.rule r) (skipLayout rest) .failed := by
  rcases skip_type_end rest ends with nothing | ⟨c, s, start, solid, inside⟩
  · rw [nothing]
    exact gives_end r reads
  · rw [start]
    exact gives_refused s solid _ (refused_by _ _ refused c inside)

/-! ### Names -/

def isTypeWord (name : String) : Bool :=
  match name.toList with
  | [] => false
  | c :: s =>
    CharSet.identifierStart.has c && s.all CharSet.identifier.has
      && decide ((c :: s).map Char.toLower ≠ Keyword.array.text.toList)
      && decide (Text.upperWords (c :: s) = name)

def isTypeName (name : String) : Bool := decide (name = "DOUBLE PRECISION") || isTypeWord name

theorem type_word_parts (name : String) (word : isTypeWord name = true) :
    ∃ c s, name.toList = c :: s ∧ CharSet.identifierStart.has c = true ∧
      (∀ d ∈ c :: s, CharSet.identifier.has d = true) ∧
      (c :: s).map Char.toLower ≠ Keyword.array.text.toList ∧ Text.upperWords (c :: s) = name := by
  rw [isTypeWord] at word
  split at word
  case h_1 => cases word
  case h_2 c s chars =>
    simp only [Bool.and_eq_true, decide_eq_true_eq, List.all_eq_true] at word
    obtain ⟨⟨⟨start, inside⟩, other⟩, upper⟩ := word
    exact ⟨c, s, chars, start,
      List.forall_mem_cons.mpr ⟨start_in_identifier c start, inside⟩, other, upper⟩

theorem two_words_refused (lower second : String) (name rest : List Char)
    (plain : ∀ c ∈ lower.toList, CharSet.identifier.has c = true)
    (inside : ∀ c ∈ name, CharSet.identifier.has c = true) (ends : EndsType rest)
    (other : (Expr.wholeWord second).refusedBy (typeMarks ++ columnLetters) = true) :
    Gives .token (.word lower.toList ++ blanks ++ .wholeWord second) (name ++ rest) .failed := by
  -- The names of two words are tried first: no word has a space in it, and what follows a type is not
  -- the second word.
  have apart := ends_type_apart rest ends
  cases dropped : dropWord? lower.toList (name ++ rest) with
  | none => exact gives_seq_failed (gives_seq_failed (gives_no_word _ dropped))
  | some left =>
      obtain ⟨front, back, rfl, rfl, -⟩ := drop_word_within _ _ _ _ plain apart dropped
      have stuck (solid : CharSet.blank.Ends (back ++ rest)) :
          Gives .token (.word lower.toList ++ blanks ++ .wholeWord second) (front ++ back ++ rest)
            .failed :=
        gives_seq_failed (gives_seq_stuck (gives_word _ dropped)
          (gives_seq_failed (gives_no_one .blank solid)))
      cases back with
      | cons c back =>
          exact stuck (ends_cons _ c _ (blank_not_in_identifier c (inside c (by simp))))
      | nil =>
          rcases ends with rfl | ⟨b, c, s, blank, rfl, next⟩
          · exact stuck fun c head => by cases head
          · have solid : isSolid c = true :=
              next.elim (mark_solid c) fun letter => letter_solid c letter.2
            have ink : CharSet.blank.Ends (c :: s) := ends_cons _ c s (by
              simp only [isSolid, Bool.and_eq_true, Bool.not_eq_true'] at solid
              exact solid.1.1)
            cases b with
            | nil => exact stuck ink
            | cons d b =>
                obtain ⟨first, others⟩ := List.forall_mem_cons.mp blank
                have spaces : Gives .token blanks (d :: b ++ c :: s) (.matched (c :: s) []) :=
                  gives_seq [] (gives_one .blank d first) (span_read .blank b _ others ink)
                have listed := List.mem_append.mpr (next.imp_right And.right)
                exact gives_seq_stuck (gives_seq [] (gives_word _ dropped) spaces)
                  (gives_refused s solid _ (refused_by _ _ other c listed))

theorem type_name_read {layout : Layout} (name : String) (rest : List Char)
    (named : isTypeName name = true) (ends : EndsType rest) :
    Gives layout (.rule .typeName) (name.toList ++ rest)
      (.matched rest (layout.keep (.node .typeName (name.toList ++ rest) rest []))) := by
  have apart := ends_type_apart rest ends
  refine gives_rule .typeName ?_
  rcases Bool.or_eq_true_iff.mp named with double | word
  · obtain rfl := of_decide_eq_true double
    have precision := whole_word_read "precision" "PRECISION".toList rest rfl apart
    have blank : Gives .token blanks (' ' :: ("PRECISION".toList ++ rest))
        (.matched ("PRECISION".toList ++ rest) []) :=
      gives_seq [] (gives_one .blank ' ' rfl)
        (gives_none (gives_no_one .blank (ends_cons .blank 'P' _ (by decide))))
    have double : Gives .token _ _ _ := gives_word "double".toList
      (drop_own_word "DOUBLE".toList (' ' :: ("PRECISION".toList ++ rest)))
    exact gives_left (gives_left (gives_seq [] (gives_seq [] double blank) precision))
  · obtain ⟨c, s, chars, start, inside, -, -⟩ := type_word_parts name word
    rw [chars]
    have others := fun d member => inside d (List.mem_cons_of_mem c member)
    refine gives_right (gives_right ?_ ?_) ?_
    · exact two_words_refused "double" "precision" (c :: s) rest (List.all_eq_true.mp rfl) inside ends
        rfl
    · exact two_words_refused "character" "varying" (c :: s) rest (List.all_eq_true.mp rfl) inside
        ends rfl
    · have tail := span_read .identifier s rest others apart
      exact gives_seq [] (gives_one .identifierStart c start) tail

theorem type_name_upper (name : String) (rest : List Char) (named : isTypeName name = true) :
    Ddl.upperText (.node .typeName (name.toList ++ rest) rest []) = name := by
  rw [Ddl.upperText, tree_text]
  rcases Bool.or_eq_true_iff.mp named with double | word
  · obtain rfl := of_decide_eq_true double
    decide
  · obtain ⟨c, s, chars, -, -, -, upper⟩ := type_word_parts name word
    rw [chars, upper]

theorem type_name_start (name : String) (named : isTypeName name = true) :
    ∃ c s, name.toList = c :: s ∧ CharSet.identifier.has c = true := by
  rcases Bool.or_eq_true_iff.mp named with double | word
  · obtain rfl := of_decide_eq_true double
    exact ⟨'D', "OUBLE PRECISION".toList, by decide, by decide⟩
  · obtain ⟨c, s, chars, start, -⟩ := type_word_parts name word
    exact ⟨c, s, chars, start_in_identifier c start⟩

theorem array_refused {layout : Layout} (name : String) (rest : List Char)
    (named : isTypeName name = true) (ends : EndsType rest) :
    Gives layout (.kw .array) (name.toList ++ rest) .failed := by
  rcases Bool.or_eq_true_iff.mp named with double | word
  · obtain rfl := of_decide_eq_true double
    exact gives_no_rule (.keyword .array) (gives_seq_failed (gives_no_word _ rfl))
  · obtain ⟨c, s, chars, -, inside, other, -⟩ := type_word_parts name word
    rw [chars]
    exact keyword_refused .array (c :: s) rest inside (ends_type_apart rest ends) other

/-! ### Arguments -/

-- Numbers have 32 bits, and other arguments than numbers and `MAX` are not written.
def TypeArg.Plain : TypeArg → Prop
  | number n => n < UInt32.size
  | max => True
  | text _ => False

instance : (arg : TypeArg) → Decidable arg.Plain
  | .number n => inferInstanceAs (Decidable (n < UInt32.size))
  | .max => inferInstanceAs (Decidable True)
  | .text _ => inferInstanceAs (Decidable False)

theorem decimal_value_digits (n : Nat) : Ddl.decimalValue (Nat.toDigits 10 n) = n :=
  Nat.ofDigitChars_ten_toDigits

theorem digits_are_digits (n : Nat) : ∀ c ∈ Nat.toDigits 10 n, c.isDigit = true :=
  fun _ member => Nat.isDigit_of_mem_toDigits (by decide) (by decide) member

theorem trim_digits (n : Nat) : Text.trim (Nat.toDigits 10 n) = Nat.toDigits 10 n := by
  have ink : ∀ c ∈ Nat.toDigits 10 n, Text.isBlank c = false := fun c member =>
    (Default.number_char_solid c (.inr (.inr (.inr (digits_are_digits n c member))))).1
  exact Default.trim_fixed _ (fun c head => ink c (List.mem_of_head? head))
    (fun c last => ink c (List.mem_of_getLast? last))

theorem arg_text (n : Nat) : (TypeArg.number n).sql.toList = Nat.toDigits 10 n := by
  rw [TypeArg.sql, Nat.toString_eq_ofList_toDigits, String.toList_ofList]

theorem arg_start (arg : TypeArg) (plain : arg.Plain) :
    ∃ c s, arg.sql.toList = c :: s ∧ CharSet.identifier.has c = true := by
  cases arg with
  | number n =>
      rw [arg_text]
      cases digits : Nat.toDigits 10 n with
      | nil => exact absurd digits Nat.toDigits_ne_nil
      | cons c s =>
          have digit := digits_are_digits n c (by simp [digits])
          exact ⟨c, s, rfl, digit_in_identifier c digit⟩
  | max => exact ⟨'M', ['A', 'X'], rfl, by decide⟩
  | text s => cases plain

def ReadsArg (dialect : Dialect) (tree : Tree) (arg : TypeArg) : Prop :=
  Ddl.typeArg dialect tree = .ok arg

theorem type_arg_read (dialect : Dialect) (arg : TypeArg) (rest : List Char) (plain : arg.Plain)
    (ends : CharSet.identifier.Ends rest) :
    ReadsAs .typeArg arg.sql.toList rest fun tree => ReadsArg dialect tree arg := by
  cases arg with
  | text s => cases plain
  | max =>
      have letter : CharSet.digit.Ends ("MAX".toList ++ rest) := ends_cons _ 'M' _ (by decide)
      have absent : Gives .free _ _ _ := gives_no_rule .number (gives_seq_failed
        (gives_no_one .digit letter))
      exact ⟨rest, _, gives_rule .typeArg (gives_left (gives_right absent
        (keyword_read .max "MAX".toList rest rfl ends))), rfl, rfl, rfl⟩
  | number n =>
      rw [arg_text]
      cases digits : Nat.toDigits 10 n with
      | nil => exact absurd digits Nat.toDigits_ne_nil
      | cons c s =>
          have all := digits_are_digits n
          rw [digits] at all
          have stop := ends_mono .digit .identifier digit_in_identifier rest ends
          have number : Gives .free _ _ _ := number_read c s rest all stop
          refine ⟨rest, _, gives_rule .typeArg (gives_left (gives_left number)), rfl, rfl, ?_⟩
          have bound : n < UInt32.size := plain
          show (if Ddl.decimalValue (Text.trim (Tree.text _)) < UInt32.size then _ else _) = _
          rw [tree_text, ← digits, trim_digits, decimal_value_digits, if_pos bound]

theorem type_arg_item (dialect : Dialect) (arg : TypeArg) (plain : arg.Plain) :
    ReadsItem .typeArg (fun arg => arg.sql.toList) (fun arg tree => ReadsArg dialect tree arg) arg := by
  obtain ⟨c, s, chars, inside⟩ := arg_start arg plain
  exact ⟨⟨c, s, chars, identifier_solid c inside⟩,
    fun rest ends => type_arg_read dialect arg rest plain (ends_item_apart rest ends)⟩

def laterArg (arg : TypeArg) : List Char := ',' :: ' ' :: arg.sql.toList

def argsText : List TypeArg → List Char
  | [] => []
  | arg :: args => '(' :: (arg.sql.toList ++ (args.flatMap laterArg ++ [')']))

theorem args_read (dialect : Dialect) (args : List TypeArg) (rest : List Char)
    (plain : ∀ arg ∈ args, arg.Plain) (closed : rest.head? ≠ some '(') :
    ∃ trees, Gives .free (.opt (.rule .typeArgs)) (argsText args ++ rest) (.matched rest trees) ∧
      (∀ tree ∈ trees, tree.rule = .typeArgs) ∧
      (trees.flatMap Tree.children).mapM (Ddl.typeArg dialect) = .ok args := by
  cases args with
  | nil =>
      have absent : Gives .free (.rule .typeArgs) rest .failed :=
        gives_no_rule .typeArgs (gives_seq_failed (gives_seq_failed (gives_other_char '(' closed)))
      exact ⟨[], gives_no_opt absent, List.forall_mem_nil _, rfl⟩
  | cons arg args =>
      obtain ⟨trees, given, reads⟩ := parens_list_read .typeArg (fun arg => arg.sql.toList)
        (fun arg tree => ReadsArg dialect tree arg) [' '] (by simp [Blank, isSpace])
        (.commaList (.rule .typeArg)) arg args
        (fun i member => type_arg_item dialect i (plain i member)) rest fun _ _ _ list => list
      have text : argsText (arg :: args) ++ rest
          = '(' :: (arg.sql.toList ++ (args.flatMap laterArg ++ ')' :: rest)) := by
        simp [argsText]
      rw [text]
      refine ⟨_, gives_opt (gives_rule .typeArgs given), List.forall_mem_singleton.mpr rfl, ?_⟩
      rw [map_m_ok]
      show List.Forall₂ _ (trees ++ []) _
      rw [List.append_nil]
      exact reads.imp fun _ _ read => read.2

/-! ### Array brackets -/

def brackets (depth : Nat) : List Char := (List.replicate depth ['[', ']']).flatten

theorem brackets_skip (depth : Nat) (rest : List Char) :
    skipLayout (brackets (depth + 1) ++ rest) = brackets (depth + 1) ++ rest :=
  skip_solid_char '[' _ rfl

theorem later_brackets_read (depth : Nat) (rest : List Char)
    (closed : (skipLayout rest).head? ≠ some '[') :
    ∃ trees, Gives .free (.more (.rule .arraySuffix)) (brackets depth ++ rest)
        (.matched rest trees) ∧
      (∀ tree ∈ trees, tree.rule = .arraySuffix) ∧ trees.length = depth := by
  induction depth with
  | zero =>
      have absent : Gives .free (.rule .arraySuffix) (skipLayout rest) .failed :=
        gives_no_rule .arraySuffix (gives_seq_failed (gives_seq_failed (gives_other_char '[' closed)))
      exact ⟨[], gives_no_later absent, List.forall_mem_nil _, rfl⟩
  | succ depth ih =>
      obtain ⟨trees, later, rules, length⟩ := ih
      have shut : skipLayout (']' :: (brackets depth ++ rest)) = ']' :: (brackets depth ++ rest) :=
        skip_solid_char ']' _ rfl
      have empty : Gives .free (.opt (.rule .number)) (']' :: (brackets depth ++ rest)) _ :=
        gives_no_opt (gives_no_rule .number (gives_seq_failed
          (gives_no_one .digit (ends_cons _ ']' _ (by decide)))))
      have opened := gives_seq_solid [] shut (gives_char '[') empty
      have pair := gives_seq_solid [] shut opened (gives_char ']')
      have first : Gives .free _ _ _ := gives_rule .arraySuffix pair
      have start : Layout.free.skip (brackets (depth + 1) ++ rest) = '[' :: ']' :: (brackets depth ++ rest) :=
        brackets_skip depth rest
      rw [← start] at first
      refine ⟨_, gives_later trees first later, ?_, ?_⟩
      · exact List.forall_mem_cons.mpr ⟨rfl, rules⟩
      · exact congrArg Nat.succ length

theorem brackets_read (depth : Nat) (rest : List Char)
    (closed : (skipLayout rest).head? ≠ some '[') :
    ∃ left trees, (left = rest ∨ left = skipLayout rest) ∧
      Gives .free (.many (.rule .arraySuffix)) (skipLayout (brackets depth ++ rest))
        (.matched left trees) ∧
      (∀ tree ∈ trees, tree.rule = .arraySuffix) ∧ trees.length = depth := by
  cases depth with
  | zero =>
      have absent : Gives .free (.rule .arraySuffix) (skipLayout rest) .failed :=
        gives_no_rule .arraySuffix (gives_seq_failed (gives_seq_failed (gives_other_char '[' closed)))
      exact ⟨_, [], .inr rfl, gives_none absent, List.forall_mem_nil _, rfl⟩
  | succ depth =>
      obtain ⟨trees, later, rules, length⟩ := later_brackets_read (depth + 1) rest closed
      have solid : Layout.free.skip (brackets (depth + 1) ++ rest) = brackets (depth + 1) ++ rest :=
        brackets_skip depth rest
      rw [brackets_skip]
      exact ⟨rest, trees, .inl rfl, gives_many_later solid later, rules, length⟩

/-! ### Types -/

structure NativeType.Plain (spelled : NativeType) : Prop where
  name : isTypeName spelled.name = true
  args : ∀ arg ∈ spelled.args, arg.Plain
  timeZone : spelled.timeZone = none
  signed : spelled.unsigned = false

theorem intercalated (arg : TypeArg) (args : List TypeArg) :
    (", ".intercalate ((arg :: args).map TypeArg.sql)).toList
      = arg.sql.toList ++ args.flatMap laterArg :=
  intercalate_items TypeArg.sql ", " [' '] rfl arg args

theorem scalar_sql_text (spelled : NativeType) (plain : spelled.Plain) :
    spelled.scalarSql.toList = spelled.name.toList ++ argsText spelled.args := by
  rw [NativeType.scalarSql, plain.timeZone, plain.signed]
  cases written : spelled.args with
  | nil => simp [argsText]
  | cons arg args =>
      show (spelled.name ++ ("(" ++ ", ".intercalate ((arg :: args).map TypeArg.sql) ++ ")") ++ ""
        ++ "").toList = _
      simp only [String.toList_append, intercalated]
      simp [argsText]

theorem scalar_solid (spelled : NativeType) (plain : spelled.Plain) :
    Solid spelled.scalarSql.toList := by
  obtain ⟨c, s, chars, inside⟩ := type_name_start spelled.name plain.name
  rw [scalar_sql_text spelled plain, chars]
  exact ⟨c, _, rfl, identifier_solid c inside⟩

theorem sql_text (spelled : NativeType) :
    spelled.sql.toList = spelled.scalarSql.toList ++ brackets spelled.arrayDepth := by
  have joined (depth : Nat) :
      (String.join (List.replicate depth "[]")).toList = brackets depth := by
    rw [String.toList_join, List.flatMap_def, List.map_replicate]
    rfl
  rw [NativeType.sql, String.toList_append, joined]

-- The rule reads the whole text in front of the rest, with the layout there perhaps, and the dialect
-- the type from its tree.
def ReadsType (dialect : Dialect) (rule : Rule)
    (lower : Dialect → Tree → Except SchemaError NativeType) (text rest : List Char)
    (spelled : NativeType) : Prop :=
  ∃ left children, (left = rest ∨ left = skipLayout rest) ∧
    Gives .free (.rule rule) (text ++ rest) (.matched left [.node rule (text ++ rest) left children]) ∧
    lower dialect (.node rule (text ++ rest) left children) = .ok spelled

theorem scalar_type_parts (dialect : Dialect) (tree name : Tree) (args suffixes : List Tree)
    (list : List TypeArg) (parts : tree.children = name :: (args ++ suffixes))
    (named : name.rule = .typeName) (arg_rules : ∀ arg ∈ args, arg.rule = .typeArgs)
    (suffix_rules : ∀ suffix ∈ suffixes, suffix.rule = .arraySuffix)
    (reads : (args.flatMap Tree.children).mapM (Ddl.typeArg dialect) = .ok list) :
    Ddl.scalarType dialect tree =
      .ok { name := Ddl.upperText name, args := list, arrayDepth := suffixes.length } := by
  have other (r : Rule) (arg : Rule.typeArgs ≠ r) (suffix : Rule.arraySuffix ≠ r) (part : Tree)
      (member : part ∈ args ++ suffixes) : ¬decide (part.rule = r) = true := by
    rcases List.mem_append.mp member with first | second
    · simpa [arg_rules part first] using arg
    · simpa [suffix_rules part second] using suffix
  have all_args : tree.all .typeArgs = args := by
    rw [Tree.all, parts, List.filter_cons_of_neg (by simp [named]), List.filter_append,
      List.filter_eq_self.mpr fun arg member => decide_eq_true (arg_rules arg member),
      List.filter_eq_nil_iff.mpr fun suffix member => by simp [suffix_rules suffix member],
      List.append_nil]
  have all_suffixes : tree.all .arraySuffix = suffixes := by
    rw [Tree.all, parts, List.filter_cons_of_neg (by simp [named]), List.filter_append,
      List.filter_eq_nil_iff.mpr fun arg member => by simp [arg_rules arg member],
      List.filter_eq_self.mpr fun suffix member => decide_eq_true (suffix_rules suffix member),
      List.nil_append]
  have first_name : tree.first? .typeName = some name := by
    rw [Tree.first?, parts, List.find?_cons_of_pos (by simp [named])]
  have no_zone : tree.first? .timeZone = none := by
    rw [Tree.first?, parts, List.find?_cons_of_neg (by simp [named]), List.find?_eq_none]
    exact other .timeZone (by decide) (by decide)
  have no_sign : tree.has (.keyword .unsigned) = false := by
    rw [Tree.has, parts, List.any_cons, List.any_eq_false.mpr (other _ (by decide) (by decide))]
    simp [named]
  rw [Ddl.scalarType, all_args, all_suffixes, first_name, no_zone, no_sign, reads]
  rfl

theorem brackets_type_end (depth : Nat) (rest : List Char) (ends : EndsType rest) :
    EndsType (brackets depth ++ rest) := by
  cases depth with
  | zero => exact ends
  | succ depth => exact ends_type_marked _ (marked_cons '[' _ (by decide))

theorem args_type_end (args : List TypeArg) (rest : List Char) (ends : EndsType rest) :
    EndsType (argsText args ++ rest) := by
  cases args with
  | nil => exact ends
  | cons arg args => exact ends_type_marked _ (marked_cons '(' _ (by decide))

theorem args_skipped (dialect : Dialect) (args : List TypeArg) (rest : List Char)
    (plain : ∀ arg ∈ args, arg.Plain) (closed : (skipLayout rest).head? ≠ some '(') :
    ∃ left trees, (left = rest ∨ left = skipLayout rest) ∧
      Gives .free (.opt (.rule .typeArgs)) (skipLayout (argsText args ++ rest))
        (.matched left trees) ∧
      (∀ tree ∈ trees, tree.rule = .typeArgs) ∧
      (trees.flatMap Tree.children).mapM (Ddl.typeArg dialect) = .ok args := by
  cases args with
  | nil =>
      obtain ⟨trees, given, rules, reads⟩ := args_read dialect [] (skipLayout rest) plain closed
      exact ⟨_, trees, .inr rfl, given, rules, reads⟩
  | cons arg args =>
      have open_ : rest.head? ≠ some '(' := by
        intro head
        obtain ⟨s, rfl⟩ := List.head?_eq_some_iff.mp head
        exact closed (congrArg List.head? (skip_solid_char '(' s rfl))
      obtain ⟨trees, given, rules, reads⟩ := args_read dialect (arg :: args) rest plain open_
      have solid : skipLayout (argsText (arg :: args) ++ rest) = argsText (arg :: args) ++ rest :=
        skip_solid_char '(' _ rfl
      rw [solid]
      exact ⟨rest, trees, .inl rfl, given, rules, reads⟩

theorem scalar_type_read (dialect : Dialect) (spelled : NativeType) (plain : spelled.Plain)
    (depth : Nat) (rest : List Char) (ends : EndsType rest)
    (call : (skipLayout rest).head? ≠ some '(') (array : (skipLayout rest).head? ≠ some '[') :
    ReadsType dialect .scalarType Ddl.scalarType (spelled.scalarSql.toList ++ brackets depth) rest
      { spelled with arrayDepth := depth } := by
  obtain ⟨left, suffixes, leaves, bracketed, suffix_rules, length⟩ := brackets_read depth rest array
  have after := brackets_type_end depth rest ends
  have closed : (skipLayout (brackets depth ++ rest)).head? ≠ some '(' := by
    cases depth with
    | zero => exact call
    | succ depth =>
        rw [brackets_skip]
        exact fun head => absurd (Option.some.inj head) (by decide)
  obtain ⟨mid, args, between, given, arg_rules, reads⟩ :=
    args_skipped dialect spelled.args _ plain.args closed
  have skipped : skipLayout mid = skipLayout (brackets depth ++ rest) := by
    rcases between with rfl | rfl
    · rfl
    · exact skip_again _
  have name : Gives .free _ _ _ :=
    type_name_read spelled.name _ plain.name (args_type_end spelled.args _ after)
  have no_zone := gives_no_opt (rule_absent .timeZone _ after rfl rfl)
  have no_sign := gives_no_opt (rule_absent (.keyword .unsigned) _ after rfl rfl)
  have called := gives_next args name rfl given
  have zoned := gives_next [] called skipped no_zone
  have signed := gives_next [] zoned (skip_again _) no_sign
  have whole := gives_next suffixes signed (skip_again _) bracketed
  rw [List.append_nil, List.append_nil] at whole
  have text : spelled.scalarSql.toList ++ brackets depth ++ rest
      = spelled.name.toList ++ (argsText spelled.args ++ (brackets depth ++ rest)) := by
    rw [scalar_sql_text spelled plain, List.append_assoc, List.append_assoc]
  rw [ReadsType, text]
  refine ⟨left, _, leaves, gives_rule .scalarType whole, ?_⟩
  refine (scalar_type_parts dialect _ (.node .typeName _ _ []) args suffixes spelled.args rfl rfl
    arg_rules suffix_rules reads).trans ?_
  rw [type_name_upper spelled.name _ plain.name, length, ← plain.timeZone, ← plain.signed]

theorem bracketed_type_read (dialect : Dialect) (spelled : NativeType) (plain : spelled.Plain)
    (rest : List Char) (ends : EndsType rest) (call : (skipLayout rest).head? ≠ some '(')
    (array : (skipLayout rest).head? ≠ some '[') :
    ReadsType dialect .dataType Ddl.nativeType spelled.sql.toList rest spelled := by
  obtain ⟨left, children, leaves, scalar, read⟩ :=
    scalar_type_read dialect spelled plain spelled.arrayDepth rest ends call array
  have after := args_type_end spelled.args _ (brackets_type_end spelled.arrayDepth rest ends)
  have refused : Gives .free _ _ _ := array_refused spelled.name _ plain.name after
  have absent : Gives .free _ _ _ := gives_no_rule .arrayType
    (gives_seq_failed (gives_seq_failed (gives_seq_failed refused)))
  rw [← List.append_assoc, ← List.append_assoc, ← scalar_sql_text spelled plain, ← sql_text]
    at absent
  rw [← sql_text] at scalar read
  exact ⟨left, _, leaves, gives_rule .dataType (gives_right absent scalar), read⟩

theorem array_of_scalar (spelled : NativeType) (depth : spelled.arrayDepth = 1) :
    NativeType.array { spelled with arrayDepth := 0 } = spelled := by
  cases spelled
  cases depth
  rfl

theorem angled_type_read (dialect : Dialect) (spelled : NativeType) (plain : spelled.Plain)
    (rest : List Char) (depth : spelled.arrayDepth = 1) :
    ReadsType dialect .dataType Ddl.nativeType ("ARRAY<" ++ spelled.scalarSql ++ ">").toList rest
      spelled := by
  have closing : Marked ('>' :: rest) := marked_cons '>' rest (by decide)
  have close : skipLayout ('>' :: rest) = '>' :: rest := skip_marked _ closing
  obtain ⟨left, children, leaves, scalar, read⟩ := scalar_type_read dialect spelled plain 0
    ('>' :: rest) (ends_type_marked _ closing) (by simp [close]) (by simp [close])
  obtain rfl : left = '>' :: rest := leaves.elim id fun skipped => skipped.trans close
  have bare : spelled.scalarSql.toList ++ brackets 0 = spelled.scalarSql.toList :=
    List.append_nil _
  rw [bare] at scalar read
  have opening : Marked ('<' :: (spelled.scalarSql.toList ++ '>' :: rest)) :=
    marked_cons '<' _ (by decide)
  have array : Gives .free _ _ _ := keyword_read .array "ARRAY".toList _ rfl (marked_ends _ opening)
  have opened := gives_seq_solid [] (skip_marked _ opening) array (gives_char '<')
  have filled := gives_seq_solid _ (solid_skip _ _ (scalar_solid spelled plain)) opened scalar
  have closed := gives_seq_solid [] close filled (gives_char '>')
  have whole : ("ARRAY<" ++ spelled.scalarSql ++ ">").toList ++ rest
      = "ARRAY".toList ++ '<' :: (spelled.scalarSql.toList ++ '>' :: rest) := by
    simp
  rw [ReadsType, whole]
  refine ⟨rest, _, .inl rfl, gives_rule .dataType (gives_left (gives_rule .arrayType closed)), ?_⟩
  show (Ddl.scalarType dialect _).map NativeType.array = .ok spelled
  rw [read]
  exact congrArg Except.ok (array_of_scalar spelled depth)

end SchemaDrift
