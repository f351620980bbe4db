import SchemaDrift.Ddl.Document
import SchemaDrift.Proofs.Grammar.Spared
/-!
Corresponding trees are read alike. What is read of a tree are the rules of its parts and the texts
of those whose text is kept.
-/

set_option autoImplicit false

namespace SchemaDrift

open Grammar (Rule Tree isSpace Blank)

theorem parse_ok (rule : Rule) (s : List Char) (tree : Tree) :
    Ddl.parse rule s = .ok tree ↔ Grammar.parse? rule s = some tree := by
  rw [Ddl.parse, map_error_ok, Grammar.parse]
  cases Grammar.parse? rule s <;> simp

/-! ### White space at the end of a default -/

theorem space_blank (c : Char) (space : isSpace c = true) : Text.isBlank c = true := by
  simp only [isSpace, Bool.or_eq_true, decide_eq_true_eq] at space
  rcases space with ((rfl | rfl) | rfl) | rfl <;> rfl

theorem trim_blanks (s b : List Char) (blank : Blank b) : Text.trim (s ++ b) = Text.trim s := by
  have blanks : ∀ c ∈ b, Text.isBlank c = true := fun c member => space_blank c (blank c member)
  have start : b.dropWhile Text.isBlank = [] := List.dropWhile_eq_nil_iff.mpr blanks
  have finish : b.reverse.dropWhile Text.isBlank = [] :=
    List.dropWhile_eq_nil_iff.mpr fun c member => blanks c (List.mem_reverse.mp member)
  have front : Text.trimStart (s ++ b) = [] ∧ Text.trimStart s = [] ∨
      Text.trimStart (s ++ b) = Text.trimStart s ++ b := by
    rw [Text.trimStart, Text.trimStart, List.dropWhile_append, start]
    cases s.dropWhile Text.isBlank with
    | nil => exact .inl ⟨rfl, rfl⟩
    | cons c t => exact .inr rfl
  rw [Text.trim, Text.trim]
  rcases front with ⟨whole, empty⟩ | parts
  · rw [whole, empty]
  · rw [parts, Text.trimEnd, Text.trimEnd, List.reverse_append, List.dropWhile_append, finish]
    rfl

theorem normalize_blanks (dialect : Dialect) (s b : List Char) (blank : Blank b) :
    dialect.normalizeDefault (s ++ b) = dialect.normalizeDefault s := by
  have same : Default.normalize (s ++ b) = Default.normalize s := by
    rw [Default.normalize, Default.normalize, Default.squeeze, Default.squeeze, trim_blanks s b blank]
  cases dialect <;> simp only [Dialect.normalizeDefault, same]

namespace Ddl

def Parts (rules : List Rule) : List Tree → List Tree → Prop :=
  List.Forall₂ fun a b => a.rule ∈ rules ∧ a.Corresponds b

theorem rule_same (a b : Tree) (alike : a.Corresponds b) : a.rule = b.rule := by
  cases alike
  rfl

theorem text_same (a b : Tree) (alike : a.Corresponds b)
    (keeps : (a.rule.keepsText && a.rule ≠ .defaultExpr) = true) : a.text = b.text := by
  obtain ⟨kept, other⟩ := Bool.and_eq_true_iff.mp keeps
  cases alike with
  | node _ _ _ _ _ _ _ _ text _ =>
      exact (text kept).resolve_right fun default => of_decide_eq_true other default.1

theorem parts_children (a b : Tree) (alike : a.Corresponds b) :
    Parts a.rule.body.rules a.children b.children := by
  cases alike with
  | node _ _ _ _ _ _ _ rules _ below => exact (List.forall₂_and_left _ _).mpr ⟨rules, below⟩

section Parts

variable (rules : List Rule) (l m : List Tree) (parts : Parts rules l m)

include parts

theorem parts_map {β : Type} (f : Tree → β)
    (same : ∀ a b, a.rule ∈ rules → a.Corresponds b → f a = f b) : l.map f = m.map f := by
  induction parts with
  | nil => rfl
  | cons first _ ih => rw [List.map_cons, List.map_cons, same _ _ first.1 first.2, ih]

theorem parts_map_m {ε β : Type} (f : Tree → Except ε β)
    (same : ∀ a b, a.rule ∈ rules → a.Corresponds b → f a = f b) : l.mapM f = m.mapM f := by
  induction parts with
  | nil => rfl
  | cons first _ ih => rw [List.mapM_cons, List.mapM_cons, same _ _ first.1 first.2, ih]

theorem parts_for_m {ε : Type} (f : Tree → Except ε Unit)
    (same : ∀ a b, a.rule ∈ rules → a.Corresponds b → f a = f b) : l.forM f = m.forM f := by
  induction parts with
  | nil => rfl
  | cons first _ ih => rw [List.forM, List.forM, same _ _ first.1 first.2, ih]

-- Only what is accepted is read alike: the errors may be at different positions.
theorem parts_fold_m {ε β : Type} (f g : β → Tree → Except ε β)
    (same : ∀ x a b y, a.rule ∈ rules → a.Corresponds b → f x a = .ok y → g x b = .ok y)
    (start result : β) (read : l.foldlM f start = .ok result) : m.foldlM g start = .ok result := by
  induction parts generalizing start with
  | nil => exact read
  | cons first _ ih =>
      rw [List.foldlM_cons] at read ⊢
      obtain ⟨next, head, rest⟩ := (bind_ok _ _ _).mp read
      exact (bind_ok _ _ _).mpr ⟨next, same start _ _ next first.1 first.2 head, ih next rest⟩

theorem parts_filter (p : Rule → Bool) :
    Parts rules (l.filter fun t => p t.rule) (m.filter fun t => p t.rule) :=
  List.rel_filter (fun a b alike => iff_of_eq (congrArg (p · = true) (rule_same a b alike.2))) parts

theorem parts_find (q : Tree → Bool) (agree : ∀ a b, a.Corresponds b → q a = q b) :
    (l.find? q = none ∧ m.find? q = none) ∨
      ∃ a b, l.find? q = some a ∧ m.find? q = some b ∧ q a = true ∧ a.Corresponds b := by
  induction parts with
  | nil => exact .inl ⟨rfl, rfl⟩
  | cons first _ ih =>
      rw [List.find?_cons, List.find?_cons, ← agree _ _ first.2]
      cases found : q _ with
      | true => exact .inr ⟨_, _, rfl, rfl, found, first.2⟩
      | false => exact ih

theorem parts_last : (l.getLast? = none ∧ m.getLast? = none) ∨
    ∃ a b, l.getLast? = some a ∧ m.getLast? = some b ∧ a.Corresponds b := by
  have turned : Parts rules l.reverse m.reverse := List.forall₂_reverse_iff.mpr parts
  rw [List.getLast?_eq_head?_reverse, List.getLast?_eq_head?_reverse]
  generalize l.reverse = front at turned ⊢
  generalize m.reverse = other at turned ⊢
  cases turned with
  | nil => exact .inl ⟨rfl, rfl⟩
  | cons first _ => exact .inr ⟨_, _, rfl, rfl, first.2⟩

theorem parts_any (p : Rule → Bool) :
    l.any (fun t => p t.rule) = m.any (fun t => p t.rule) := by
  have rules_same := parts_map rules l m parts Tree.rule fun a b _ alike => rule_same a b alike
  have mapped (l : List Tree) : l.any (fun t => p t.rule) = (l.map Tree.rule).any p :=
    List.any_map.symm
  rw [mapped, mapped, rules_same]

theorem parts_flat_map (inner : List Rule) (f : Tree → List Tree)
    (same : ∀ a b, a.rule ∈ rules → a.Corresponds b → Parts inner (f a) (f b)) :
    Parts inner (l.flatMap f) (m.flatMap f) :=
  List.rel_flatMap parts fun a b alike => same a b alike.1 alike.2

theorem parts_below : Parts (rules.flatMap fun r => r.body.rules) (l.flatMap Tree.children)
    (m.flatMap Tree.children) :=
  parts_flat_map rules l m parts _ _ fun a b among alike =>
    (parts_children a b alike).imp fun _ _ both =>
      ⟨List.mem_flatMap.mpr ⟨a.rule, among, both.1⟩, both.2⟩

theorem parts_take_while (p : Rule → Bool) :
    Parts rules (l.takeWhile fun t => p t.rule) (m.takeWhile fun t => p t.rule) := by
  induction parts with
  | nil => exact .nil
  | cons first _ ih =>
      rw [List.takeWhile_cons, List.takeWhile_cons, ← rule_same _ _ first.2]
      split
      · exact .cons first ih
      · exact .nil

theorem parts_drop_while (p : Rule → Bool) :
    Parts rules (l.dropWhile fun t => p t.rule) (m.dropWhile fun t => p t.rule) := by
  induction parts with
  | nil => exact .nil
  | cons first rest ih =>
      rw [List.dropWhile_cons, List.dropWhile_cons, ← rule_same _ _ first.2]
      split
      · exact ih
      · exact .cons first rest

theorem parts_find_map_m {ε β : Type} (p : Rule → Bool) (f : Tree → Except ε β)
    (same : ∀ a b, p a.rule = true → a.Corresponds b → f a = f b) :
    (l.find? fun t => p t.rule).mapM f = (m.find? fun t => p t.rule).mapM f := by
  rcases parts_find rules l m parts (p ·.rule) fun a b alike => congrArg p (rule_same a b alike) with
    ⟨one, two⟩ | ⟨a, b, one, two, rule, alike⟩
  · rw [one, two]
  · rw [one, two, Option.mapM_some, Option.mapM_some, same a b rule alike]

end Parts

section Trees

variable (a b : Tree) (alike : a.Corresponds b)

include alike

theorem parts_all (r : Rule) : Parts [r] (a.all r) (b.all r) := by
  have pairs := parts_filter _ _ _ (parts_children a b alike) (· = r)
  refine (List.forall₂_and_left _ _).mpr ⟨fun x member => ?_, pairs.imp fun x y both => both.2⟩
  simpa using (List.mem_filter.mp member).2

theorem has_same (r : Rule) : a.has r = b.has r :=
  parts_any _ _ _ (parts_children a b alike) (· = r)

theorem first_same (r : Rule) : (a.first? r = none ∧ b.first? r = none) ∨
    ∃ x y, a.first? r = some x ∧ b.first? r = some y ∧ x.rule = r ∧ x.Corresponds y := by
  rcases parts_find _ _ _ (parts_children a b alike) (·.rule = r) fun x y same =>
    by rw [rule_same x y same] with absent | found
  · exact .inl absent
  · obtain ⟨x, y, one, two, rule, alike⟩ := found
    exact .inr ⟨x, y, one, two, of_decide_eq_true rule, alike⟩

theorem first_map {β : Type} (r : Rule) (f : Tree → β)
    (same : ∀ x y, x.rule = r → x.Corresponds y → f x = f y) :
    (a.first? r).map f = (b.first? r).map f := by
  rcases first_same a b alike r with ⟨one, two⟩ | ⟨x, y, one, two, rule, alike⟩
  · rw [one, two]
  · rw [one, two, Option.map_some, Option.map_some, same x y rule alike]

end Trees

/-! ### Names and types -/

theorem name_part_same (a b : Tree) (rule : a.rule = .identifier) (alike : a.Corresponds b) :
    namePart a = namePart b := by
  have text := text_same a b alike (rule ▸ rfl)
  cases alike with
  | node r start rest otherStart otherRest children others rules _ below =>
      obtain rfl : r = .identifier := rule
      cases below with
      | nil => simp [namePart, Tree.children, text]
      | cons first more =>
          cases more with
          | cons => simp [namePart, Tree.children, text]
          | nil =>
              cases first with
              | node q _ _ _ _ _ _ inside _ within =>
                  have among : q ∈ [Rule.quotedIdentifier, .backtickIdentifier, .bareIdentifier] :=
                    rules _ List.mem_cons_self
                  simp only [List.mem_cons, List.not_mem_nil, or_false] at among
                  rcases among with rfl | rfl | rfl
                  case inr.inr => simp [namePart, Tree.children, text]
                  all_goals
                    cases within with
                    | nil => simp [namePart, Tree.children, text]
                    | cons inner _ =>
                        have quoted := List.mem_singleton.mp (inside _ List.mem_cons_self)
                        have same := text_same _ _ inner (quoted ▸ rfl)
                        simp [namePart, Tree.children, namePart.unquoted, same]

theorem identifier_same (dialect : Dialect) (a b : Tree) (rule : a.rule = .identifier)
    (alike : a.Corresponds b) : identifier dialect a = identifier dialect b :=
  congrArg dialect.fold (name_part_same a b rule alike)

theorem first_identifier_same (dialect : Dialect) (a b : Tree) (alike : a.Corresponds b) :
    (a.first? .identifier).map (identifier dialect) = (b.first? .identifier).map (identifier dialect) :=
  first_map a b alike _ _ (identifier_same dialect)

theorem identifiers_same (dialect : Dialect) (a b : Tree) (alike : a.Corresponds b) :
    identifiers dialect a = identifiers dialect b :=
  parts_map _ _ _ (parts_all a b alike .identifier) _ fun x y rule same =>
    identifier_same dialect x y (List.mem_singleton.mp rule) same

theorem qualified_same (dialect : Dialect) (a b : Tree) (alike : a.Corresponds b) :
    qualified dialect a = qualified dialect b :=
  congrArg dialect.resolve (parts_map _ _ _ (parts_all a b alike .identifier) _ fun x y rule same =>
    name_part_same x y (List.mem_singleton.mp rule) same)

theorem type_arg_same (dialect : Dialect) (a b : Tree) (rule : a.rule = .typeArg)
    (alike : a.Corresponds b) : typeArg dialect a = typeArg dialect b := by
  have text := text_same a b alike (rule ▸ rfl)
  cases alike with
  | node r start rest otherStart otherRest children others rules _ below =>
      cases below with
      | nil => simp [typeArg, Tree.children, text]
      | cons first more =>
          obtain rfl : r = .typeArg := rule
          cases first with
          | node q =>
              have among : q ∈ [Rule.number, .keyword .max, .stringLit] :=
                rules _ List.mem_cons_self
              simp only [List.mem_cons, List.not_mem_nil, or_false] at among
              rcases among with rfl | rfl | rfl <;> simp [typeArg, Tree.children, text]

theorem scalar_type_same (dialect : Dialect) (a b : Tree) (alike : a.Corresponds b) :
    scalarType dialect a = scalarType dialect b := by
  have args := parts_map_m _ _ _ (parts_below _ _ _ (parts_all a b alike .typeArgs)) (typeArg dialect)
    fun x y rule same => by
      have among : x.rule ∈ [Rule.typeArg, .typeArg] := rule
      exact type_arg_same dialect x y (by simpa using among) same
  have name := first_map a b alike .typeName upperText fun x y rule same =>
    congrArg Text.upperWords (text_same x y same (rule ▸ rfl))
  have zone := first_map a b alike .timeZone (·.has (.keyword .withWord)) fun x y _ same =>
    has_same x y same _
  have depth := (parts_all a b alike .arraySuffix).length_eq
  rw [scalarType, scalarType, args, name, zone, depth, has_same a b alike]

theorem native_type_same (dialect : Dialect) (a b : Tree) (alike : a.Corresponds b) :
    nativeType dialect a = nativeType dialect b := by
  unfold nativeType
  rcases first_same a b alike .arrayType with ⟨one, two⟩ | ⟨x, y, one, two, _, array⟩
  · rcases first_same a b alike .scalarType with ⟨three, four⟩ | ⟨x, y, three, four, _, scalar⟩
    · rw [one, two, three, four]
    · rw [one, two, three, four]
      exact scalar_type_same dialect x y scalar
  · rw [one, two]
    rcases first_same x y array .scalarType with ⟨three, four⟩ | ⟨v, w, three, four, _, scalar⟩
    · simp only [three, four]
    · simp only [three, four, scalar_type_same dialect v w scalar]

/-! ### Indexes -/

theorem descends_same (a b : Tree) (alike : a.Corresponds b) :
    (a.first? .sortOrder).any (·.has (.keyword .desc))
      = (b.first? .sortOrder).any (·.has (.keyword .desc)) := by
  rcases first_same a b alike .sortOrder with ⟨one, two⟩ | ⟨x, y, one, two, _, same⟩
  · rw [one, two]
  · rw [one, two, Option.any_some, Option.any_some, has_same x y same]

theorem index_column_same (dialect : Dialect) (a b : Tree) (alike : a.Corresponds b) :
    indexColumn dialect a = indexColumn dialect b := by
  rw [indexColumn, indexColumn, has_same a b alike, first_identifier_same dialect a b alike,
    descends_same a b alike]

theorem index_column_parts (a b : Tree) (alike : a.Corresponds b) :
    Parts [.indexColumn] ((a.all .indexColumnList).flatMap (·.all .indexColumn))
      ((b.all .indexColumnList).flatMap (·.all .indexColumn)) :=
  parts_flat_map _ _ _ (parts_all a b alike .indexColumnList) _ _ fun x y _ same =>
    parts_all x y same .indexColumn

theorem index_columns_same (dialect : Dialect) (a b : Tree) (alike : a.Corresponds b) :
    indexColumns dialect a = indexColumns dialect b := by
  exact parts_map_m _ _ _ (index_column_parts a b alike) _ fun x y _ same =>
    index_column_same dialect x y same

theorem key_column_same (dialect : Dialect) (a b : Tree) (alike : a.Corresponds b) :
    keyColumn dialect a = keyColumn dialect b := by
  rw [keyColumn, keyColumn, index_column_same dialect a b alike]

theorem key_columns_same (dialect : Dialect) (a b : Tree) (alike : a.Corresponds b) :
    keyColumns dialect a = keyColumns dialect b := by
  exact parts_map_m _ _ _ (index_column_parts a b alike) _ fun x y _ same =>
    key_column_same dialect x y same

theorem index_definition_read (dialect : Dialect) (a b : Tree) (alike : a.Corresponds b)
    (index : Index) (read : indexDefinition dialect a = .ok index) :
    indexDefinition dialect b = .ok index := by
  unfold indexDefinition at read ⊢
  rcases first_same a b alike .indexKind with ⟨one, two⟩ | ⟨x, y, one, two, _, _⟩
  · rw [one, index_columns_same dialect a b alike, first_identifier_same dialect a b alike] at read
    rw [two]
    exact read
  · rw [one] at read
    by_cases other : dialect ≠ .mysql
    · simp [other, bind, Except.bind] at read
    · simp [other, bind, Except.bind] at read

theorem using_clause_same (dialect : Dialect) (a b : Tree) (alike : a.Corresponds b) :
    usingClause dialect a = usingClause dialect b := by
  have method := first_map a b alike .identifier (fun t => Text.asciiLower t.text)
    fun x y rule same => congrArg Text.asciiLower (text_same x y same (rule ▸ rfl))
  rw [usingClause, usingClause, method]

theorem index_suffix_same (dialect : Dialect) (a b : Tree) (alike : a.Corresponds b) :
    indexSuffix dialect a = indexSuffix dialect b := by
  refine parts_for_m _ _ _ (parts_children a b alike) _ fun x y _ same => ?_
  rw [← rule_same x y same, using_clause_same dialect x y same]

theorem index_statement_same (dialect : Dialect) (a b : Tree) (alike : a.Corresponds b) :
    indexStatement dialect a = indexStatement dialect b := by
  have children := parts_children a b alike
  have qualifies (x y : Tree) (_ : decide (x.rule = .qualifiedName) = true) (same : x.Corresponds y) :
      qualified dialect x = qualified dialect y := qualified_same dialect x y same
  have name := parts_find_map_m _ _ _ (parts_take_while _ _ _ children (· ≠ .keyword .on))
    (· = .qualifiedName) (qualified dialect) qualifies
  have table := parts_find_map_m _ _ _ (parts_drop_while _ _ _ children (· ≠ .keyword .on))
    (· = .qualifiedName) (qualified dialect) qualifies
  have methods := parts_for_m _ _ _ (parts_all a b alike .usingClause) (usingClause dialect)
    fun x y _ same => using_clause_same dialect x y same
  have suffixes := parts_for_m _ _ _ (parts_all a b alike .indexSuffix) (indexSuffix dialect)
    fun x y _ same => index_suffix_same dialect x y same
  unfold indexStatement
  dsimp only
  rw [name, table, methods, suffixes, has_same a b alike, has_same a b alike, has_same a b alike,
    index_columns_same dialect a b alike]

/-! ### Constraints -/

theorem column_list_same (dialect : Dialect) (a b : Tree) (alike : a.Corresponds b) :
    columnList dialect a = columnList dialect b := by
  have lists := parts_map _ _ _ (parts_all a b alike .columnList) (identifiers dialect)
    fun x y _ same => identifiers_same dialect x y same
  unfold columnList
  rw [List.flatMap_def, List.flatMap_def, lists]

theorem action_on_same (event : Grammar.Keyword) (rules : List Rule) (l m : List Tree)
    (parts : Parts rules l m) : actionOn event l = actionOn event m := by
  unfold actionOn
  rcases parts_find rules _ _ (List.forall₂_reverse_iff.mpr parts) (·.has (.keyword event))
    fun x y same => has_same x y same _ with ⟨one, two⟩ | ⟨x, y, one, two, _, alike⟩
  · rw [one, two]
  · rw [one, two, Option.bind_some, Option.bind_some]
    rcases first_same x y alike .referentialAction with ⟨three, four⟩ | ⟨v, w, three, four, rule, same⟩
    · rw [three, four]
    · rw [three, four, Option.bind_some, Option.bind_some, upperText, upperText,
        text_same v w same (rule ▸ rfl)]

theorem first_map_m {ε β : Type} (a b : Tree) (alike : a.Corresponds b) (r : Rule)
    (f : Tree → Except ε β) (same : ∀ x y, x.rule = r → x.Corresponds y → f x = f y) :
    (a.first? r).mapM f = (b.first? r).mapM f :=
  parts_find_map_m _ _ _ (parts_children a b alike) (· = r) f fun x y rule =>
    same x y (of_decide_eq_true rule)

theorem reference_same (dialect : Dialect) (a b : Tree) (alike : a.Corresponds b) :
    reference dialect a = reference dialect b := by
  have table := first_map_m a b alike .qualifiedName (qualified dialect) fun x y _ same =>
    qualified_same dialect x y same
  have action (event : Grammar.Keyword) :=
    action_on_same event _ _ _ (parts_all a b alike .referentialRule)
  rw [reference, reference, table, column_list_same dialect a b alike]
  dsimp only
  rw [action, action]

theorem check_expression_same (a b : Tree) (alike : a.Corresponds b) :
    checkExpression a = checkExpression b := by
  have group := first_map a b alike .parenGroup Tree.text fun x y rule same =>
    text_same x y same (rule ▸ rfl)
  rw [checkExpression, checkExpression, group]

theorem constraint_body_same (dialect : Dialect) (a b : Tree) (alike : a.Corresponds b) :
    constraintBody dialect a = constraintBody dialect b := by
  unfold constraintBody
  rw [← rule_same a b alike, key_columns_same dialect a b alike, check_expression_same a b alike,
    column_list_same dialect a b alike]
  rcases first_same a b alike .referencesClause with ⟨one, two⟩ | ⟨x, y, one, two, _, same⟩
  · rw [one, two]
  · simp only [one, two, reference_same dialect x y same]

theorem constraint_name_same (dialect : Dialect) (a b : Tree) (alike : a.Corresponds b) :
    constraintName? dialect a = constraintName? dialect b := by
  have inside (r : Rule) : ((a.first? r).bind (·.first? .identifier)).map (identifier dialect)
      = ((b.first? r).bind (·.first? .identifier)).map (identifier dialect) := by
    rcases first_same a b alike r with ⟨one, two⟩ | ⟨x, y, one, two, _, same⟩
    · rw [one, two]
    · rw [one, two]
      exact first_identifier_same dialect x y same
  have either (o p : Option Tree) : (o.or p).map (identifier dialect)
      = (o.map (identifier dialect)).or (p.map (identifier dialect)) := by
    cases o <;> rfl
  unfold constraintName?
  rw [either, either, inside, inside]

theorem table_constraint_same (dialect : Dialect) (a b : Tree) (alike : a.Corresponds b) :
    tableConstraint dialect a = tableConstraint dialect b := by
  unfold tableConstraint
  rw [← constraint_name_same dialect a b alike]
  rcases parts_last _ _ _ (parts_children a b alike) with ⟨one, two⟩ | ⟨x, y, one, two, same⟩
  · rw [one, two]
  · rw [one, two]
    dsimp only
    rw [constraint_body_same dialect x y same]

/-! ### Columns -/

theorem default_text_same (dialect : Dialect) (a b : Tree) (rule : a.rule = .defaultExpr)
    (alike : a.Corresponds b) : dialect.normalizeDefault a.text = dialect.normalizeDefault b.text := by
  cases alike with
  | node r start rest otherStart otherRest children others _ text _ =>
      obtain rfl : r = .defaultExpr := rule
      rcases text rfl with same | ⟨-, b, c, before, after, same⟩
      · rw [same]
      · rw [← normalize_blanks dialect _ b before, same, normalize_blanks dialect _ c after]

theorem default_expression_same (dialect : Dialect) (a b : Tree) (alike : a.Corresponds b) :
    defaultExpression dialect a = defaultExpression dialect b := by
  unfold defaultExpression
  rcases first_same a b alike .defaultExpr with ⟨one, two⟩ | ⟨x, y, one, two, rule, same⟩
  · rw [one, two]
  · rw [one, two, Option.map_some, Option.map_some, Option.getD_some, Option.getD_some]
    exact default_text_same dialect x y rule same

theorem column_clause_same (dialect : Dialect) (a b : Tree) (alike : a.Corresponds b) :
    columnClause dialect a = columnClause dialect b := by
  unfold columnClause
  rw [← rule_same a b alike, default_expression_same dialect a b alike,
    first_identifier_same dialect a b alike, descends_same a b alike,
    reference_same dialect a b alike, check_expression_same a b alike, has_same a b alike]

theorem column_body_parts (dialect : Dialect) (columns : List String) (a b : Tree)
    (type : (a.first? .dataType).mapM (nativeType dialect)
      = (b.first? .dataType).mapM (nativeType dialect))
    (parts : Parts [.columnClause] (a.all .columnClause) (b.all .columnClause)) :
    columnBody dialect columns a = columnBody dialect columns b := by
  have clauses := parts_map_m _ _ _ (parts_below _ _ _ parts) (columnClause dialect)
    fun x y _ same => column_clause_same dialect x y same
  rw [columnBody, columnBody, type, clauses]

theorem column_body_same (dialect : Dialect) (columns : List String) (a b : Tree)
    (alike : a.Corresponds b) : columnBody dialect columns a = columnBody dialect columns b :=
  column_body_parts dialect columns a b
    (first_map_m a b alike .dataType (nativeType dialect) fun x y _ same =>
      native_type_same dialect x y same)
    (parts_all a b alike .columnClause)

theorem column_definition_same (dialect : Dialect) (a b : Tree) (alike : a.Corresponds b) :
    columnDefinition dialect a = columnDefinition dialect b := by
  rw [columnDefinition, columnDefinition, first_identifier_same dialect a b alike,
    column_body_same dialect _ a b alike]

/-! ### Documents -/

namespace Reader

variable (reader again : Reader) (same : reader.dialect = again.dialect) (a b : Tree)
  (alike : a.Corresponds b)

include same alike

theorem key_after_columns_same (table : TableDraft) :
    reader.keyAfterColumns table a = again.keyAfterColumns table b := by
  have columns := parts_map_m _ _ _ (parts_all a b alike .indexColumn) (keyColumn again.dialect)
    fun x y _ same => key_column_same again.dialect x y same
  unfold keyAfterColumns unsupported
  rw [same, columns]

theorem table_option_same (table : TableDraft) :
    reader.tableOption table a = again.tableOption table b := by
  have name := first_map a b alike .optionName upperText fun x y rule same =>
    congrArg Text.upperWords (text_same x y same (rule ▸ rfl))
  have value := first_map a b alike .optionValue (fun t => String.ofList t.text) fun x y rule same =>
    congrArg String.ofList (text_same x y same (rule ▸ rfl))
  unfold tableOption unsupported
  rw [same, name, value]

theorem table_clause_read (table result : TableDraft) (read : reader.tableClause table a = .ok result) :
    again.tableClause table b = .ok result := by
  unfold tableClause at read ⊢
  rw [← rule_same a b alike]
  split at read
  · rwa [← key_after_columns_same reader again same a b alike]
  · cases read
  · cases read
  · cases read
  · rwa [← table_option_same reader again same a b alike]
  · exact read

theorem table_element_read (table result : TableDraft)
    (read : reader.tableElement table a = .ok result) :
    again.tableElement table b = .ok result := by
  unfold tableElement at read ⊢
  rw [← rule_same a b alike, ← same]
  split at read
  · rwa [← table_constraint_same _ a b alike]
  · obtain ⟨index, found, last⟩ := (bind_ok _ _ _).mp read
    exact (bind_ok _ _ _).mpr ⟨index, index_definition_read _ a b alike index found, last⟩
  · rwa [← column_definition_same _ a b alike]
  · exact read

theorem create_table_read (schema result : SchemaDraft)
    (read : reader.createTable schema a = .ok result) : again.createTable schema b = .ok result := by
  have name := first_map_m a b alike .qualifiedName (qualified again.dialect) fun x y _ same =>
    qualified_same again.dialect x y same
  have elements := parts_fold_m _ _ _ (parts_below _ _ _ (parts_all a b alike .tableElement))
    reader.tableElement again.tableElement fun table x y next _ alike =>
      table_element_read reader again same x y alike table next
  have clauses := parts_fold_m _ _ _ (parts_below _ _ _ (parts_all a b alike .tableSuffix))
    reader.tableClause again.tableClause fun table x y next _ alike =>
      table_clause_read reader again same x y alike table next
  unfold createTable at read ⊢
  rw [same, name] at read
  obtain ⟨found, first, rest⟩ := (bind_ok _ _ _).mp read
  obtain ⟨bare, body, rest⟩ := (bind_ok _ _ _).mp rest
  obtain ⟨table, suffixes, last⟩ := (bind_ok _ _ _).mp rest
  rw [← has_same a b alike]
  exact (bind_ok _ _ _).mpr ⟨found, first, (bind_ok _ _ _).mpr ⟨bare, elements _ _ body,
    (bind_ok _ _ _).mpr ⟨table, clauses _ _ suffixes, last⟩⟩⟩

theorem create_index_same (schema : SchemaDraft) :
    reader.createIndex schema a = again.createIndex schema b := by
  unfold createIndex
  rw [same, index_statement_same again.dialect a b alike]

omit same in
theorem other_action_read (table result : TableDraft) (rule : a.rule = .unsupportedAction)
    (read : reader.otherAction table a = .ok result) : again.otherAction table b = .ok result := by
  have text := text_same a b alike (rule ▸ rfl)
  unfold otherAction at read ⊢
  rw [← text]
  dsimp only at read ⊢
  split at read
  · split at read <;> cases read
  · exact read
  · cases read

theorem add_column_same (table : TableDraft) : reader.addColumn table a = again.addColumn table b := by
  unfold addColumn
  rw [same, has_same a b alike]
  rcases first_same a b alike .columnDef with ⟨one, two⟩ | ⟨x, y, one, two, _, same⟩
  · rw [one, two]
  · simp only [one, two, column_definition_same again.dialect x y same]

theorem alter_action_read (table result : TableDraft)
    (read : reader.alterAction table a = .ok result) : again.alterAction table b = .ok result := by
  have elements := parts_fold_m _ _ _ (parts_children a b alike) reader.tableElement
    again.tableElement fun table x y next _ alike =>
      table_element_read reader again same x y alike table next
  unfold alterAction at read ⊢
  rw [← rule_same a b alike]
  split at read
  · exact elements _ _ read
  · exact elements _ _ read
  · rwa [← add_column_same reader again same a b alike]
  · rename_i rule
    exact other_action_read reader again a b alike table result rule read
  · exact read

theorem alter_table_read (schema result : SchemaDraft)
    (read : reader.alterTable schema a = .ok result) : again.alterTable schema b = .ok result := by
  have name := first_map_m a b alike .qualifiedName (qualified again.dialect) fun x y _ same =>
    qualified_same again.dialect x y same
  have actions := parts_fold_m _ _ _ (parts_below _ _ _ (parts_all a b alike .alterAction))
    reader.alterAction again.alterAction fun table x y next _ alike =>
      alter_action_read reader again same x y alike table next
  unfold alterTable at read ⊢
  rw [same, name] at read
  obtain ⟨found, first, rest⟩ := (bind_ok _ _ _).mp read
  refine (bind_ok _ _ _).mpr ⟨found, first, ?_⟩
  dsimp only at rest ⊢
  cases target : schema.table? (found.getD "") with
  | none =>
      rw [target] at rest
      cases rest
  | some table =>
      rw [target] at rest
      obtain ⟨changed, altered, last⟩ := (bind_ok _ _ _).mp rest
      exact (bind_ok _ _ _).mpr ⟨changed, actions _ _ altered, last⟩

theorem statement_read (schema result : SchemaDraft)
    (read : reader.statement schema a = .ok result) : again.statement schema b = .ok result := by
  unfold statement at read ⊢
  rw [← rule_same a b alike]
  split at read
  · exact create_table_read reader again same a b alike schema result read
  · rwa [← create_index_same reader again same a b alike]
  · exact alter_table_read reader again same a b alike schema result read
  · cases read
  · exact read

end Reader

end Ddl

end SchemaDrift
