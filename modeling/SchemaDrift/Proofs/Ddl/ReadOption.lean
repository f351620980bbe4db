import SchemaDrift.Proofs.Ddl.PrintedTable
/-!
An option of a table that was read can be written: its key is one of the known names, in upper case
and with single spaces, and its value is a literal or a word.
-/

set_option autoImplicit false

namespace SchemaDrift

open Grammar

/-! ### Words -/

namespace Text

theorem identifier_visible (c : Char) (inside : CharSet.identifier.has c = true) :
    isBlank c = false := by
  have range : 0x24 ≤ c.toNat ∧ c.toNat ≤ 0x7A := by
    simp only [CharSet.has, Char.isAlphanum, Char.isAlpha, Char.isUpper, Char.isLower, Char.isDigit,
      Bool.or_eq_true, Bool.and_eq_true, decide_eq_true_eq, ge_iff_le, UInt32.le_iff_toNat_le] at inside
    rcases inside with (letter | rfl) | rfl
    · simp only [Char.toNat, show 'A'.val.toNat = 65 from rfl, show 'Z'.val.toNat = 90 from rfl,
        show 'a'.val.toNat = 97 from rfl, show 'z'.val.toNat = 122 from rfl,
        show '0'.val.toNat = 48 from rfl, show '9'.val.toNat = 57 from rfl] at letter ⊢
      omega
    · decide
    · decide
  simp only [isBlank, Bool.or_eq_false_iff, Bool.and_eq_false_iff, decide_eq_false_iff_not,
    beq_eq_false_iff_ne]
  omega

theorem words_word (w s : List Char) (inhabited : w ≠ []) (solid : ∀ c ∈ w, isBlank c = false)
    (ends : ∀ c, s.head? = some c → isBlank c = true) : words (w ++ s) = w :: words s := by
  induction w with
  | nil => exact absurd rfl inhabited
  | cons c w ih =>
      obtain ⟨first, others⟩ := List.forall_mem_cons.mp solid
      have visible : ¬isBlank c = true := Bool.eq_false_iff.mp first
      cases w with
      | nil =>
          cases s with
          | nil => simp [words, fields, visible]
          | cons d s => simp [words, fields, visible, ends d rfl]
      | cons d w =>
          have next : ¬isBlank d = true := Bool.eq_false_iff.mp (others d List.mem_cons_self)
          have rest := ih (List.cons_ne_nil d w) others
          simp only [words, List.cons_append] at rest ⊢
          rw [fields.eq_def]
          simp [visible, next, rest]

theorem words_blank (b s : List Char) (blank : ∀ c ∈ b, isBlank c = true) :
    words (b ++ s) = words s := by
  induction b with
  | nil => rfl
  | cons c b ih =>
      obtain ⟨first, others⟩ := List.forall_mem_cons.mp blank
      rw [← ih others, words, List.cons_append, fields.eq_def]
      simp [first, words]

end Text

inductive Phrase : List (List Char) → List Char → Prop
  | last (w : List Char) : Phrase [w.map Char.toLower] w
  | next (w b s : List Char) (lowers : List (List Char)) (gap : b ≠ []) (blank : Blank b)
      (later : Phrase lowers s) : Phrase (w.map Char.toLower :: lowers) (w ++ (b ++ s))

def isPlainWord (lower : List Char) : Bool := !lower.isEmpty && lower.all CharSet.identifier.has

theorem upper_of_lower (w : List Char) :
    Text.asciiUpper (w.map Char.toLower) = Text.asciiUpper w := by
  simp only [Text.asciiUpper, List.map_map, Function.comp_def, Char.toUpper_toLower_eq_toUpper]

theorem plain_word_solid (w : List Char) (plain : isPlainWord (w.map Char.toLower) = true) :
    w ≠ [] ∧ ∀ c ∈ w, Text.isBlank c = false := by
  simp only [isPlainWord, Bool.and_eq_true, Bool.not_eq_true', List.isEmpty_eq_false_iff, ne_eq,
    List.map_eq_nil_iff, List.all_eq_true] at plain
  exact ⟨plain.1, fun c member => Text.identifier_visible c
    (lower_in_identifier c (plain.2 _ (List.mem_map_of_mem member)))⟩

theorem phrase_words (lowers : List (List Char)) (t : List Char) (phrase : Phrase lowers t)
    (plain : ∀ lower ∈ lowers, isPlainWord lower = true) :
    (Text.words t).map Text.asciiUpper = lowers.map Text.asciiUpper := by
  induction phrase with
  | last w =>
      obtain ⟨inhabited, solid⟩ := plain_word_solid w (plain _ List.mem_cons_self)
      have single := Text.words_word w [] inhabited solid (by rintro c ⟨⟩)
      rw [List.append_nil] at single
      rw [single, List.map_cons, List.map_singleton, upper_of_lower]
      rfl
  | next w b s lowers gap blank _ ih =>
      obtain ⟨first, others⟩ := List.forall_mem_cons.mp plain
      obtain ⟨inhabited, solid⟩ := plain_word_solid w first
      have blanks : ∀ c ∈ b, Text.isBlank c = true := fun c member => space_blank c (blank c member)
      rw [Text.words_word w (b ++ s) inhabited solid, Text.words_blank b s blanks, List.map_cons,
        List.map_cons, ih others, upper_of_lower]
      intro c head
      obtain ⟨d, b, rfl⟩ := List.exists_cons_of_ne_nil gap
      cases head
      exact blanks c List.mem_cons_self

/-! ### What a rule without layout reads -/

namespace Grammar

def Expr.Spells : Expr → List Char → Prop
  | empty, t | finish, t | notAt _, t => t = []
  | one set, t => ∃ c, t = [c] ∧ set.has c = true
  | word lower, t => t.map Char.toLower = lower
  | seq a b, t => ∃ x y, t = x ++ y ∧ a.Spells x ∧ b.Spells y
  | alt a b, t => a.Spells t ∨ b.Spells t
  | opt a, t => t = [] ∨ a.Spells t
  | many a, t | more a, t => ∃ parts : List (List Char), t = parts.flatten ∧ ∀ p ∈ parts, a.Spells p
  | rule _, _ => True

theorem drop_word_lower (lower s rest : List Char) (dropped : dropWord? lower s = some rest) :
    ∃ t, s = t ++ rest ∧ t.map Char.toLower = lower := by
  induction lower generalizing s with
  | nil =>
      cases dropped
      exact ⟨[], rfl, rfl⟩
  | cons a lower ih =>
      cases s with
      | nil => cases dropped
      | cons c s =>
          rw [dropWord?] at dropped
          split at dropped
          case isFalse => cases dropped
          case isTrue same =>
            obtain ⟨t, rfl, lowered⟩ := ih s dropped
            exact ⟨c :: t, rfl, by rw [List.map_cons, same, lowered]⟩

theorem adjacent_inside (layout : Layout) (r : Rule) (adjacent : layout ≠ .free) :
    r.layoutIn layout ≠ .free := by
  unfold Rule.layoutIn
  split
  · exact adjacent
  · assumption

theorem adjacent_skip (layout : Layout) (adjacent : layout ≠ .free) (s : List Char) :
    layout.skip s = s := by
  cases layout with
  | free => exact absurd rfl adjacent
  | tight | token => rfl

theorem run_spells (fuel : Nat) (layout : Layout) (e : Expr) (s rest : List Char) (trees : List Tree)
    (adjacent : layout ≠ .free) (met : run fuel layout e s = .matched rest trees) :
    ∃ t, s = t ++ rest ∧ e.Spells t := by
  induction fuel generalizing layout e s rest trees with
  | zero => cases met
  | succ fuel ih =>
      -- First an item and then more of it.
      have items (a : Expr) (t : List Char)
          (both : ((run fuel layout a t).andThen fun mid found =>
            (run fuel layout (.more a) mid).prepend found) = .matched rest trees) :
          ∃ u, t = u ++ rest ∧ (Expr.many a).Spells u := by
        obtain ⟨mid, found, one, next⟩ := and_then_matched _ _ _ _ both
        obtain ⟨more, later, rfl⟩ := prepend_matched _ _ _ _ next
        obtain ⟨x, rfl, first⟩ := ih layout a t mid found adjacent one
        obtain ⟨y, rfl, parts, rfl, others⟩ := ih layout (.more a) mid rest more adjacent later
        refine ⟨x ++ parts.flatten, (List.append_assoc ..).symm, x :: parts, rfl, ?_⟩
        exact List.forall_mem_cons.mpr ⟨first, others⟩
      cases e with
      | empty =>
          cases met
          exact ⟨[], rfl, rfl⟩
      | finish =>
          rw [run] at met
          split at met <;> cases met
          exact ⟨[], rfl, rfl⟩
      | one set =>
          cases s with
          | nil => cases met
          | cons c s =>
              rw [run] at met
              split at met
              case isFalse => cases met
              case isTrue inside =>
                cases met
                exact ⟨[c], rfl, c, rfl, inside⟩
      | word lower =>
          rw [run] at met
          split at met
          case h_1 left dropped =>
            cases met
            exact drop_word_lower lower s _ dropped
          case h_2 => cases met
      | seq a b =>
          obtain ⟨mid, found, one, next⟩ := and_then_matched _ _ _ _ met
          obtain ⟨more, later, rfl⟩ := prepend_matched _ _ _ _ next
          rw [adjacent_skip layout adjacent] at later
          obtain ⟨x, rfl, first⟩ := ih layout a s mid found adjacent one
          obtain ⟨y, rfl, second⟩ := ih layout b mid rest more adjacent later
          exact ⟨x ++ y, (List.append_assoc ..).symm, x, y, rfl, first, second⟩
      | alt a b =>
          rcases or_else_matched _ _ _ _ met with left | right
          · obtain ⟨t, parts, spells⟩ := ih layout a s rest trees adjacent left
            exact ⟨t, parts, .inl spells⟩
          · obtain ⟨t, parts, spells⟩ := ih layout b s rest trees adjacent right
            exact ⟨t, parts, .inr spells⟩
      | opt a =>
          rcases or_else_matched _ _ _ _ met with there | none
          · obtain ⟨t, parts, spells⟩ := ih layout a s rest trees adjacent there
            exact ⟨t, parts, .inr spells⟩
          · cases none
            exact ⟨[], rfl, .inl rfl⟩
      | many a =>
          rcases or_else_matched _ _ _ _ met with there | none
          · exact items a s there
          · cases none
            exact ⟨[], rfl, [], rfl, List.forall_mem_nil _⟩
      | more a =>
          rcases or_else_matched _ _ _ _ met with there | none
          · rw [adjacent_skip layout adjacent] at there
            exact items a s there
          · cases none
            exact ⟨[], rfl, [], rfl, List.forall_mem_nil _⟩
      | notAt a =>
          rw [run] at met
          split at met <;> cases met
          exact ⟨[], rfl, rfl⟩
      | rule r =>
          obtain ⟨mid, found, body, same⟩ := and_then_matched _ _ _ _ met
          cases same
          obtain ⟨t, parts, _⟩ :=
            ih (r.layoutIn layout) r.body s _ found (adjacent_inside layout r adjacent) body
          exact ⟨t, parts, trivial⟩

end Grammar

/-! ### The parts of an option -/

def optionPhrases : List (List (List Char)) :=
  [["character", "set"], ["charset"], ["collate"], ["engine"], ["auto_increment"], ["comment"],
    ["row_format"]].map (List.map String.toList)

theorem blanks_spelled (b : List Char) (spells : blanks.Spells b) : b ≠ [] ∧ Blank b := by
  obtain ⟨x, _, rfl, ⟨c, rfl, first⟩, parts, rfl, others⟩ := spells
  refine ⟨List.cons_ne_nil c _, List.forall_mem_cons.mpr ⟨first, fun d member => ?_⟩⟩
  obtain ⟨part, listed, inside⟩ := List.mem_flatten.mp member
  obtain ⟨e, rfl, space⟩ := others part listed
  exact List.mem_singleton.mp inside ▸ space

theorem option_names_spelled (t : List Char) (spells : optionNames.Spells t) :
    ∃ lowers ∈ optionPhrases, Phrase lowers t := by
  have single (lower : String) (listed : [lower.toList] ∈ optionPhrases)
      (spelled : t.map Char.toLower = lower.toList) : ∃ lowers ∈ optionPhrases, Phrase lowers t :=
    ⟨_, listed, spelled ▸ .last t⟩
  rcases spells with (((((pair | word) | word) | word) | word) | word) | word
  · obtain ⟨_, last, rfl, ⟨first, b, rfl, character, gap⟩, set⟩ := pair
    obtain ⟨gap, blank⟩ := blanks_spelled b gap
    refine ⟨["character".toList, "set".toList], by decide, ?_⟩
    have phrase := Phrase.next first b last _ gap blank (.last last)
    rw [show first.map Char.toLower = "character".toList from character,
      show last.map Char.toLower = "set".toList from set] at phrase
    rwa [List.append_assoc]
  · exact single "charset" (by decide) word
  · exact single "collate" (by decide) word
  · exact single "engine" (by decide) word
  · exact single "auto_increment" (by decide) word
  · exact single "comment" (by decide) word
  · exact single "row_format" (by decide) word

theorem phrases_known : ∀ lowers ∈ optionPhrases ++ optionPhrases.map ("default".toList :: ·),
    (∀ lower ∈ lowers, isPlainWord lower = true) ∧
      " ".intercalate (lowers.map Text.asciiUpper) ∈ "AUTO_INCREMENT" :: optionKeys := by
  intro lowers listed
  simp only [optionPhrases, List.map_cons, List.map_nil, List.cons_append, List.nil_append,
    List.mem_cons, List.not_mem_nil, or_false] at listed
  rcases listed with rfl | rfl | rfl | rfl | rfl | rfl | rfl | rfl | rfl | rfl | rfl | rfl | rfl | rfl
  all_goals exact ⟨by decide +kernel, by decide +kernel⟩

theorem option_name_spelled (t : List Char) (spells : Rule.optionName.body.Spells t) :
    Text.upperWords t ∈ "AUTO_INCREMENT" :: optionKeys := by
  have phrased : ∃ lowers ∈ optionPhrases ++ optionPhrases.map ("default".toList :: ·),
      Phrase lowers t := by
    obtain ⟨_, _, rfl, ⟨front, name, rfl, first, named⟩, rfl⟩ := spells
    obtain ⟨lowers, listed, phrase⟩ := option_names_spelled name named
    rw [List.append_nil]
    rcases first with rfl | ⟨default, b, rfl, word, gap⟩
    · exact ⟨lowers, List.mem_append_left _ listed, phrase⟩
    · obtain ⟨gap, blank⟩ := blanks_spelled b gap
      refine ⟨"default".toList :: lowers, List.mem_append_right _ (List.mem_map_of_mem listed), ?_⟩
      have whole := Phrase.next default b name lowers gap blank phrase
      rw [show default.map Char.toLower = "default".toList from word] at whole
      rwa [List.append_assoc]
  obtain ⟨lowers, listed, phrase⟩ := phrased
  obtain ⟨plain, known⟩ := phrases_known lowers listed
  rw [Text.upperWords, phrase_words lowers t phrase plain]
  exact known

theorem option_value_read (fuel : Nat) (layout : Layout) (s rest : List Char)
    (trees : List Tree) (met : run fuel layout Rule.optionValue.body s = .matched rest trees) :
    ∃ value, s = value ++ rest ∧ OptionValue value := by
  cases fuel with
  | zero => cases met
  | succ fuel =>
      rcases or_else_matched _ _ _ _ met with literal | word
      · obtain ⟨found, -⟩ := string_lit_read _ _ _ _ _ literal
        obtain ⟨l, parts, whole, -⟩ := (after_literal_iff _ _).mp found
        exact ⟨l, parts, .inl whole⟩
      · cases fuel with
        | zero => cases word
        | succ fuel =>
            obtain ⟨_, _, body, same⟩ := and_then_matched _ _ _ _ word
            cases same
            obtain ⟨t, parts, _, _, rfl, ⟨c, rfl, first⟩, words, rfl, others⟩ :=
              run_spells _ _ _ _ _ _ (by decide : Layout.token ≠ .free) body
            refine ⟨_, parts, .inr ⟨List.cons_ne_nil c _, List.forall_mem_cons.mpr ⟨first, ?_⟩⟩⟩
            intro d member
            obtain ⟨part, listed, inside⟩ := List.mem_flatten.mp member
            obtain ⟨e, rfl, identifier⟩ := others part listed
            exact List.mem_singleton.mp inside ▸ identifier

theorem rule_met (fuel : Nat) (layout : Layout) (r : Rule) (s rest : List Char) (trees : List Tree)
    (kept : layout ≠ .token) (met : run fuel layout (.rule r) s = .matched rest trees) :
    ∃ fuel children, trees = [.node r s rest children] ∧
      run fuel (r.layoutIn layout) r.body s = .matched rest children := by
  cases fuel with
  | zero => cases met
  | succ fuel =>
      obtain ⟨_, children, body, same⟩ := and_then_matched _ _ _ _ met
      cases same
      exact ⟨fuel, children, if_neg kept, body⟩

theorem table_option_parts (tree : Tree) (matched : tree.Matched) (rule : tree.rule = .tableOption) :
    ∃ name value : Tree, tree.first? .optionName = some name ∧ tree.first? .optionValue = some value ∧
      Ddl.upperText name ∈ "AUTO_INCREMENT" :: optionKeys ∧ OptionValue value.text := by
  cases matched with
  | node fuel layout r start rest children kept met _ =>
      obtain rfl : r = .tableOption := rule
      rcases fuel with _ | _ | _ | fuel
      · cases met
      · cases met
      · cases met
      obtain ⟨_, front, both, next⟩ := and_then_matched _ _ _ _ met
      obtain ⟨back, second, rfl⟩ := prepend_matched _ _ _ _ next
      obtain ⟨mid, first, named, next⟩ := and_then_matched _ _ _ _ both
      obtain ⟨equals, sign, rfl⟩ := prepend_matched _ _ _ _ next
      obtain rfl : equals = [] := by
        have held := run_matched (fuel + 1) (Rule.tableOption.layoutIn layout) (.opt (.char '='))
          ((Rule.tableOption.layoutIn layout).skip mid)
        rw [sign] at held
        exact List.eq_nil_iff_forall_not_mem.mpr fun t member => List.not_mem_nil (held t member).2
      obtain ⟨_, inner, rfl, name⟩ := rule_met _ _ _ _ _ _ kept named
      obtain ⟨_, parts, rfl, value⟩ := rule_met _ _ _ _ _ _ kept second
      obtain ⟨t, rfl, spells⟩ := run_spells _ _ _ _ _ _ (by decide : Layout.token ≠ .free) name
      obtain ⟨v, same, legible⟩ := option_value_read _ _ _ _ _ value
      refine ⟨_, _, rfl, rfl, ?_, ?_⟩
      · rw [Ddl.upperText, tree_text]
        exact option_name_spelled t spells
      · rw [same, tree_text]
        exact legible

end SchemaDrift
