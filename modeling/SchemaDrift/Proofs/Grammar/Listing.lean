import SchemaDrift.Proofs.Grammar.Start
import SchemaDrift.Proofs.Result
/-!
Lists between parentheses: what reads each item in front of a comma or of the end reads all of them,
in their order.
-/

set_option autoImplicit false

namespace SchemaDrift.Grammar

def EndsItem (rest : List Char) : Prop :=
  ∃ c s, c ∈ [',', ')', ';'] ∧ (rest = c :: s ∨ rest = '\n' :: c :: s)

theorem item_end_solid (c : Char) (member : c ∈ [',', ')', ';']) : isSolid c = true := by
  simp only [List.mem_cons, List.not_mem_nil, or_false] at member
  rcases member with rfl | rfl | rfl <;> rfl

theorem ends_item_cons (c : Char) (s : List Char) (member : c ∈ [',', ')', ';']) :
    EndsItem (c :: s) := ⟨c, s, member, .inl rfl⟩

theorem ends_item_line (c : Char) (s : List Char) (member : c ∈ [',', ')', ';']) :
    EndsItem ('\n' :: c :: s) := ⟨c, s, member, .inr rfl⟩

theorem skip_item_end (rest : List Char) (ends : EndsItem rest) :
    ∃ c s, c ∈ [',', ')', ';'] ∧ skipLayout rest = c :: s := by
  obtain ⟨c, s, member, rfl | rfl⟩ := ends
  · exact ⟨c, s, member, skip_solid_char c s (item_end_solid c member)⟩
  · exact ⟨c, s, member, (skip_blank '\n' _ rfl).trans
      (skip_solid_char c s (item_end_solid c member))⟩

theorem item_end_char (rest : List Char) (ends : EndsItem rest) :
    ∃ c, rest.head? = some c ∧ c ∈ [',', ')', ';', '\n'] := by
  obtain ⟨c, s, member, rfl | rfl⟩ := ends
  · exact ⟨c, rfl, List.mem_append_left ['\n'] member⟩
  · exact ⟨'\n', rfl, by decide⟩

theorem ends_item_apart (rest : List Char) (ends : EndsItem rest) :
    CharSet.identifier.Ends rest := by
  obtain ⟨c, head, member⟩ := item_end_char rest ends
  intro d same
  obtain rfl := Option.some.inj (head.symm.trans same)
  simp only [List.mem_cons, List.not_mem_nil, or_false] at member
  rcases member with rfl | rfl | rfl | rfl <;> rfl

theorem parens_read (e : Expr) (text rest left : List Char) (trees : List Tree)
    (solid : Solid text) (given : Gives .free e text (.matched left trees))
    (leaves : skipLayout left = ')' :: rest) :
    Gives .free (.parens e) ('(' :: text) (.matched rest trees) := by
  have opened := gives_next trees (gives_char '(') (solid_text text solid) given
  have whole := gives_next [] opened leaves (gives_char ')')
  rwa [List.nil_append, List.append_nil] at whole

/-! ### Items between commas -/

section Items

variable {α : Type} (r : Rule) (text : α → List Char) (means : α → Tree → Prop)

def laterItems (sep : List Char) (items : List α) : List Char :=
  items.flatMap fun item => ',' :: (sep ++ text item)

def ReadsItem (item : α) : Prop :=
  Solid (text item) ∧ ∀ rest, EndsItem rest → ReadsAs r (text item) rest (means item)

variable (sep : List Char) (blank : Blank sep)

theorem later_items_end (items : List α) (rest : List Char) (ends : EndsItem rest) :
    EndsItem (laterItems text sep items ++ rest) := by
  cases items with
  | nil => exact ends
  | cons item items => exact ends_item_cons ',' _ (by decide)

include blank in
theorem later_items_read (items : List α) (reads : ∀ item ∈ items, ReadsItem r text means item)
    (rest left : List Char) (ends : EndsItem rest) (closed : (skipLayout rest).head? ≠ some ',')
    (leaves : skipLayout left = skipLayout (laterItems text sep items ++ rest)) :
    ∃ last trees, Gives .free (.more (.char ',' ++ .rule r)) left (.matched last trees) ∧
      skipLayout last = skipLayout rest ∧
      List.Forall₂ (fun tree item => tree.rule = r ∧ means item tree) trees items := by
  -- The induction is on the items; what an item leaves is skipped in front of the next comma.
  induction items generalizing left with
  | nil =>
      have absent : Gives .free (.char ',' ++ .rule r) (skipLayout left) .failed :=
        gives_seq_failed (gives_other_char ',' (leaves.symm ▸ closed))
      exact ⟨left, [], gives_no_later absent, leaves, .nil⟩
  | cons item items ih =>
      obtain ⟨first, others⟩ := List.forall_mem_cons.mp reads
      obtain ⟨solid, read⟩ := first
      obtain ⟨mid, tree, given, after, rule, meant⟩ :=
        read _ (later_items_end text sep items rest ends)
      obtain ⟨last, trees, later, leaves_rest, all⟩ := ih others mid after
      have start : skipLayout left
          = ',' :: (sep ++ (text item ++ (laterItems text sep items ++ rest))) := by
        rw [leaves, laterItems, List.flatMap_cons]
        simp only [List.cons_append, List.append_assoc]
        exact skip_solid_char ',' _ rfl
      have skipped := (skip_blanks sep
        (text item ++ (laterItems text sep items ++ rest)) blank).trans (solid_skip _ _ solid)
      have pair := gives_next [tree] (gives_char ',') skipped given
      rw [← start] at pair
      exact ⟨last, tree :: trees, gives_later trees pair later, leaves_rest, .cons ⟨rule, meant⟩ all⟩

include blank in
theorem items_given (item : α) (items : List α) (first : ReadsItem r text means item)
    (reads : ∀ item ∈ items, ReadsItem r text means item) (rest : List Char) (ends : EndsItem rest)
    (closed : (skipLayout rest).head? ≠ some ',') :
    ∃ mid last tree trees, Gives .free (.rule r)
        (text item ++ (laterItems text sep items ++ rest)) (.matched mid [tree]) ∧
      Gives .free (.many (.char ',' ++ .rule r)) (skipLayout mid) (.matched last trees) ∧
      skipLayout last = skipLayout rest ∧
      List.Forall₂ (fun tree item => tree.rule = r ∧ means item tree) (tree :: trees)
        (item :: items) := by
  have after := later_items_end text sep items rest ends
  obtain ⟨mid, tree, given, leaves, rule, meant⟩ := first.2 _ after
  obtain ⟨last, trees, later, leaves_rest, all⟩ := later_items_read r text means sep blank items reads
    rest (skipLayout mid) ends closed ((skip_again mid).trans leaves)
  exact ⟨mid, last, tree, trees, given, gives_many_later (free_skip_again mid) later, leaves_rest,
    .cons ⟨rule, meant⟩ all⟩

include blank in
theorem items_read (item : α) (items : List α) (first : ReadsItem r text means item)
    (reads : ∀ item ∈ items, ReadsItem r text means item) (rest : List Char) (ends : EndsItem rest)
    (closed : (skipLayout rest).head? ≠ some ',') :
    ∃ last trees, Gives .free (.commaList (.rule r))
        (text item ++ (laterItems text sep items ++ rest)) (.matched last trees) ∧
      skipLayout last = skipLayout rest ∧
      List.Forall₂ (fun tree item => tree.rule = r ∧ means item tree) trees (item :: items) := by
  obtain ⟨mid, last, tree, trees, given, later, leaves, all⟩ :=
    items_given r text means sep blank item items first reads rest ends closed
  exact ⟨last, tree :: trees, gives_next trees given rfl later, leaves, all⟩

include blank in
theorem parens_list_read (list : Expr) (item : α) (items : List α)
    (reads : ∀ i ∈ item :: items, ReadsItem r text means i) (rest : List Char)
    (within : ∀ s left trees, Gives .free (.commaList (.rule r)) s (.matched left trees) →
      Gives .free list s (.matched left trees)) :
    ∃ trees, Gives .free (.parens list)
        ('(' :: (text item ++ (laterItems text sep items ++ ')' :: rest))) (.matched rest trees) ∧
      List.Forall₂ (fun tree item => tree.rule = r ∧ means item tree) trees (item :: items) := by
  obtain ⟨first, others⟩ := List.forall_mem_cons.mp reads
  have close : skipLayout (')' :: rest) = ')' :: rest := skip_solid_char ')' rest rfl
  obtain ⟨last, trees, given, leaves, all⟩ := items_read r text means sep blank item items first
    others (')' :: rest) (ends_item_cons ')' rest (by decide)) (by simp [close])
  exact ⟨trees, parens_read list _ rest last trees (solid_front _ _ first.1) (within _ _ _ given)
    (leaves.trans close), all⟩

end Items

/-! ### Items behind spaces -/

section Rows

variable {α : Type} (r : Rule) (means : α → Tree → Prop) (rest : List Char)

inductive RowReads : List Char → List α → Prop
  | nil : RowReads [] []
  | cons (item : α) (items : List α) (text more : List Char) (solid : Solid text)
      (reads : ReadsAs r text (more ++ rest) (means item)) (later : RowReads more items) :
      RowReads (' ' :: (text ++ more)) (item :: items)

theorem row_read (absent : Gives .free (.rule r) (skipLayout rest) .failed) (text : List Char)
    (items : List α) (row : RowReads r means rest text items) (start : List Char)
    (leaves : skipLayout start = skipLayout (text ++ rest)) :
    ∃ left trees, Gives .free (.more (.rule r)) start (.matched left trees) ∧
      skipLayout left = skipLayout rest ∧
      List.Forall₂ (fun tree item => tree.rule = r ∧ means item tree) trees items := by
  induction row generalizing start with
  | nil =>
      rw [List.nil_append] at leaves
      rw [← leaves] at absent
      exact ⟨start, [], gives_no_later absent, leaves, .nil⟩
  | cons item items text more solid reads later ih =>
      obtain ⟨mid, tree, given, after, rule, meant⟩ := reads
      obtain ⟨left, trees, others, leaves_rest, all⟩ := ih mid after
      have begins : skipLayout start = text ++ (more ++ rest) := by
        rw [leaves, List.cons_append, List.append_assoc]
        exact skip_gap _ (solid_front _ _ solid)
      rw [← begins] at given
      exact ⟨left, tree :: trees, gives_later trees given others, leaves_rest, .cons ⟨rule, meant⟩ all⟩

theorem row_apart (text : List Char) (items : List α) (row : RowReads r means rest text items)
    (apart : CharSet.identifier.Ends rest) : CharSet.identifier.Ends (text ++ rest) := by
  cases row with
  | nil => exact apart
  | cons => exact ends_cons _ ' ' _ rfl

theorem absent_at_end (refused : (Expr.rule r).refusedBy [',', ')', ';'] = true)
    (ends : EndsItem rest) : Gives .free (.rule r) (skipLayout rest) .failed := by
  obtain ⟨c, s, member, next⟩ := skip_item_end rest ends
  rw [next]
  exact gives_refused s (item_end_solid c member) _ (refused_by _ _ refused c member)

end Rows

/-! ### The printed form -/

theorem intercalate_text {α : Type} (write : α → String) (sep : String) (item : α)
    (items : List α) :
    (sep.intercalate ((item :: items).map write)).toList
      = (write item).toList ++ items.flatMap fun i => sep.toList ++ (write i).toList := by
  rw [String.toList_intercalate]
  induction items generalizing item with
  | nil => simp
  | cons next items ih =>
      rw [List.map_cons, List.map_cons, List.map_cons, List.map_cons, List.intercalate_cons_cons,
        ← List.map_cons, ← List.map_cons, ih next]
      simp

theorem intercalate_items {α : Type} (write : α → String) (sep : String) (blanks : List Char)
    (comma : sep.toList = ',' :: blanks) (item : α) (items : List α) :
    (sep.intercalate ((item :: items).map write)).toList
      = (write item).toList ++ laterItems (fun i => (write i).toList) blanks items := by
  rw [intercalate_text, comma]
  rfl

end SchemaDrift.Grammar
