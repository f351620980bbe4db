import SchemaDrift.Proofs.Expression.Literal
/-!
Which normal forms of defaults count as literals: the literals, and the expressions that start with
one string literal and end with another, from which the test does not tell them apart.
-/

set_option autoImplicit false

namespace SchemaDrift.Default

open SchemaDrift.Grammar

/-! ### Numbers -/

def Digits (s : List Char) : Prop := s ≠ [] ∧ ∀ c ∈ s, c.isDigit = true

-- A sign, digits, and further digits behind a point; sign and point can be absent.
def Number (s : List Char) : Prop :=
  ∃ sign whole fraction, s = sign ++ (whole ++ fraction) ∧ (sign = [] ∨ sign = ['-'] ∨ sign = ['+']) ∧
    Digits whole ∧ (fraction = [] ∨ ∃ digits, fraction = '.' :: digits ∧ Digits digits)

def isUnsigned (s : List Char) : Bool :=
  !(s.takeWhile (· ≠ '.')).isEmpty && (s.takeWhile (· ≠ '.')).all Char.isDigit
    && match s.dropWhile (· ≠ '.') with
      | [] => true
      | _ :: fraction => !fraction.isEmpty && fraction.all Char.isDigit

theorem digits_iff (s : List Char) : (!s.isEmpty && s.all Char.isDigit) = true ↔ Digits s := by
  rw [Bool.and_eq_true, List.all_eq_true, Bool.not_eq_true', List.isEmpty_eq_false_iff]
  rfl

theorem unsigned_iff (s : List Char) : isUnsigned s = true ↔ ∃ whole fraction,
    s = whole ++ fraction ∧ Digits whole ∧
      (fraction = [] ∨ ∃ digits, fraction = '.' :: digits ∧ Digits digits) := by
  rw [isUnsigned, Bool.and_eq_true, digits_iff]
  constructor
  · rintro ⟨whole, fraction⟩
    refine ⟨_, _, (List.takeWhile_append_dropWhile (p := (· ≠ '.'))).symm, whole, ?_⟩
    have point := List.head?_dropWhile_not (· ≠ '.') s
    cases rest : s.dropWhile (· ≠ '.') with
    | nil => exact .inl rfl
    | cons c digits =>
        rw [rest] at fraction point
        obtain rfl : c = '.' := by simpa using point
        exact .inr ⟨digits, rfl, (digits_iff digits).mp fraction⟩
  · rintro ⟨whole, fraction, rfl, digits, parts⟩
    have plain : ∀ c ∈ whole, decide (c ≠ '.') = true := by
      intro c member
      refine decide_eq_true fun point => ?_
      have digit := digits.2 c member
      rw [point] at digit
      cases digit
    rw [List.takeWhile_append_of_pos plain, List.dropWhile_append_of_pos plain]
    rcases parts with rfl | ⟨rest, rfl, some⟩
    · rw [List.takeWhile_nil, List.append_nil]
      exact ⟨digits, rfl⟩
    · rw [List.takeWhile_cons_of_neg (by decide), List.dropWhile_cons_of_neg (by decide),
        List.append_nil]
      exact ⟨digits, (digits_iff rest).mpr some⟩

theorem number_of_unsigned (s : List Char) (unsigned : isUnsigned s = true) : isNumber s = true := by
  have first (c : Char) (t : List Char) (sign : c = '-' ∨ c = '+') : isUnsigned (c :: t) ≠ true := by
    rcases sign with rfl | rfl <;> simp [isUnsigned]
  unfold isNumber
  dsimp only
  split
  · exact absurd unsigned (first _ _ (.inl rfl))
  · exact absurd unsigned (first _ _ (.inr rfl))
  · exact unsigned

theorem number_iff (s : List Char) : isNumber s = true ↔ Number s := by
  constructor
  · intro number
    unfold isNumber at number
    dsimp only at number
    have signed (sign t : List Char) (marks : sign = [] ∨ sign = ['-'] ∨ sign = ['+'])
        (unsigned : isUnsigned t = true) : Number (sign ++ t) := by
      obtain ⟨whole, fraction, rfl, parts⟩ := (unsigned_iff t).mp unsigned
      exact ⟨sign, whole, fraction, rfl, marks, parts⟩
    split at number
    · exact signed ['-'] _ (.inr (.inl rfl)) number
    · exact signed ['+'] _ (.inr (.inr rfl)) number
    · exact signed [] _ (.inl rfl) number
  · rintro ⟨sign, whole, fraction, rfl, marks, parts⟩
    have unsigned : isUnsigned (whole ++ fraction) = true :=
      (unsigned_iff _).mpr ⟨whole, fraction, rfl, parts⟩
    rcases marks with rfl | rfl | rfl
    · exact number_of_unsigned _ unsigned
    · exact unsigned
    · exact unsigned

/-! ### Literals that collapsing changes -/

theorem body_plain (text s : List Char) (plain : ∀ c ∈ text, c ≠ '\'' ∧ c ≠ '\\')
    (body : LiteralBody s) : LiteralBody (text ++ s) := by
  induction text with
  | nil => exact body
  | cons c text ih =>
      obtain ⟨⟨quote, escape⟩, rest⟩ := List.forall_mem_cons.mp plain
      exact .other c _ quote escape (ih rest)

theorem body_tail (c : Char) (s : List Char) (quote : c ≠ '\'') (escape : c ≠ '\\')
    (body : LiteralBody (c :: s)) : LiteralBody s := by
  cases body with
  | close => exact absurd rfl quote
  | doubled => exact absurd rfl quote
  | escaped => exact absurd rfl escape
  | other _ _ _ _ rest => exact rest

theorem lower_plain (c : Char) (quote : c ≠ '\'') (escape : c ≠ '\\') :
    ∀ d ∈ Text.lowerChar c, d ≠ '\'' ∧ d ≠ '\\' := by
  intro d member
  refine ⟨?_, ?_⟩ <;> rintro rfl
  · exact quote (Text.lower_char_mark c _ member (by decide)).symm
  · exact escape (Text.lower_char_mark c _ member (by decide)).symm

theorem body_escaped (c : Char) (s : List Char) (body : LiteralBody s) :
    LiteralBody ('\\' :: (Text.lowerChar c ++ s)) := by
  by_cases quote : c = '\''
  · subst quote
    exact .escaped _ s body
  · by_cases escape : c = '\\'
    · subst escape
      exact .escaped _ s body
    · have plain := lower_plain c quote escape
      obtain ⟨d, ds, letters⟩ := List.exists_cons_of_ne_nil (Text.lower_char_ne_nil c)
      rw [letters] at plain ⊢
      exact .escaped d _ (body_plain ds s (List.forall_mem_cons.mp plain).2 body)

-- A space in front of a character can only add to the literal, and it is never left out where the
-- character would otherwise stand behind a backslash and be a quote or a backslash itself.
theorem body_spaced (pending : Bool) (last : Option Char) (c : Char) (s : List Char)
    (body : LiteralBody (Text.lowerChar c ++ s)) :
    LiteralBody (gap pending last c ++ (Text.lowerChar c ++ s)) ∧
      (pending = true → last = some '\\' →
        LiteralBody ('\\' :: (gap pending last c ++ (Text.lowerChar c ++ s)))) := by
  refine ⟨body_plain _ _ (fun d member => ?_) body, ?_⟩
  · rw [gap_space _ _ _ d member]
    decide
  · rintro rfl rfl
    by_cases closing : c = ')' ∨ c = ','
    · have none : gap true (some '\\') c = [] := by rcases closing with rfl | rfl <;> rfl
      have quote : c ≠ '\'' := by rcases closing with rfl | rfl <;> decide
      have escape : c ≠ '\\' := by rcases closing with rfl | rfl <;> decide
      have lower : Text.lowerChar c = [c] := by rcases closing with rfl | rfl <;> rfl
      rw [lower] at body
      rw [none, lower]
      exact .escaped c s (body_tail c s quote escape body)
    · rw [not_or] at closing
      have space : gap true (some '\\') c = [' '] := by simp [gap, closing]
      rw [space]
      exact .escaped ' ' _ body

theorem copied_head (pending : Bool) (last : Option Char) (s : List Char) :
    (collapse true pending last s).head? = s.head? := by
  cases s <;> rfl

-- What is written from here on starts with the rest of a literal and does not go on with a quote. It
-- can stand behind a backslash if the character after that was white space.
def Reshapes (quoted pending : Bool) (last : Option Char) (s : List Char) : Prop :=
  ∃ out rest, collapse quoted pending last s = out ++ rest ∧ LiteralBody out ∧
    rest.head? ≠ some '\'' ∧ (quoted = false → pending = true → last = some '\\' →
      LiteralBody ('\\' :: out))

theorem reshapes_copied (last : Option Char) (c : Char) (s out rest : List Char)
    (next : collapse (c ≠ '\'') false (some c) s = out ++ rest) (body : LiteralBody (c :: out))
    (apart : rest.head? ≠ some '\'') : Reshapes true false last (c :: s) :=
  ⟨c :: out, rest, congrArg (c :: ·) next, body, apart, fun unquoted => by cases unquoted⟩

theorem reshapes_solid (pending : Bool) (last : Option Char) (c : Char) (s out rest : List Char)
    (solid : Text.isBlank c = false)
    (next : collapse (c = '\'') false ((Text.lowerChar c).getLast?.or last) s = out ++ rest)
    (body : LiteralBody (Text.lowerChar c ++ out)) (apart : rest.head? ≠ some '\'') :
    Reshapes false pending last (c :: s) := by
  obtain ⟨spaced, escaped⟩ := body_spaced pending last c out body
  refine ⟨_, rest, ?_, spaced, apart, fun _ => escaped⟩
  rw [collapse_solid _ _ _ _ solid, next, List.append_assoc, List.append_assoc]

theorem collapse_reshapes (body s : List Char) (whole : LiteralBody body) (apart : s.head? ≠ some '\'')
    (quoted pending : Bool) (last : Option Char) (settled : quoted = true → pending = false) :
    Reshapes quoted pending last (body ++ s) := by
  -- By induction on the literal, for every state of the scan: it takes each quote for the start or the
  -- end of a literal, so that behind an escaped quote it is wrong about where it stands.
  induction whole generalizing quoted pending last with
  | close =>
      cases quoted with
      | true =>
          obtain rfl := settled rfl
          exact reshapes_copied last '\'' s [] _ rfl .close (collapse_apart false s (.inr apart))
      | false =>
          refine reshapes_solid pending last '\'' s [] _ rfl rfl .close ?_
          rw [decide_eq_true rfl, copied_head]
          exact apart
  | doubled t _ ih =>
      cases quoted with
      | true =>
          obtain rfl := settled rfl
          obtain ⟨out, rest, written, body, apart, -⟩ := ih true false (some '\'') (fun _ => rfl)
          exact reshapes_copied last '\'' _ ('\'' :: out) rest (congrArg ('\'' :: ·) written)
            (.doubled out body) apart
      | false =>
          obtain ⟨out, rest, written, body, apart, -⟩ := ih false false (some '\'') (fun _ => rfl)
          exact reshapes_solid pending last '\'' _ ('\'' :: out) rest rfl
            (congrArg ('\'' :: ·) written) (.doubled out body) apart
  | escaped c t _ ih =>
      cases quoted with
      | true =>
          obtain rfl := settled rfl
          obtain ⟨out, rest, written, body, apart, -⟩ := ih (c ≠ '\'') false (some c) (fun _ => rfl)
          exact reshapes_copied last '\\' _ (c :: out) rest (congrArg (c :: ·) written)
            (.escaped c out body) apart
      | false =>
          cases blank : Text.isBlank c with
          | true =>
              obtain ⟨out, rest, written, -, apart, behind⟩ :=
                ih false true (some '\\') (fun same => by cases same)
              refine reshapes_solid pending last '\\' _ out rest rfl ?_ (behind rfl rfl rfl) apart
              exact (collapse_blank _ _ _ _ blank).trans written
          | false =>
              obtain ⟨out, rest, written, body, apart, -⟩ :=
                ih (c = '\'') false ((Text.lowerChar c).getLast?.or (some '\\')) (fun _ => rfl)
              refine reshapes_solid pending last '\\' _ (Text.lowerChar c ++ out) rest rfl ?_
                (body_escaped c out body) apart
              rw [List.append_assoc, ← written]
              exact collapse_solid false (some '\\') c _ blank
  | other c t quote escape _ ih =>
      cases quoted with
      | true =>
          obtain rfl := settled rfl
          obtain ⟨out, rest, written, body, apart, -⟩ := ih true false (some c) (fun _ => rfl)
          refine reshapes_copied last c _ out rest ?_ (.other c out quote escape body) apart
          rw [decide_eq_true quote]
          exact written
      | false =>
          cases blank : Text.isBlank c with
          | true =>
              obtain ⟨out, rest, written, body, apart, behind⟩ :=
                ih false true last (fun same => by cases same)
              exact ⟨out, rest, (collapse_blank _ _ _ _ blank).trans written, body, apart,
                fun _ _ => behind rfl rfl⟩
          | false =>
              obtain ⟨out, rest, written, body, apart, -⟩ :=
                ih false false ((Text.lowerChar c).getLast?.or last) (fun _ => rfl)
              refine reshapes_solid pending last c _ out rest blank ?_
                (body_plain _ _ (lower_plain c quote escape) body) apart
              rw [decide_eq_false quote]
              exact written

/-! ### Texts that start with a literal -/

-- A quote behind nothing but opening parentheses and white space starts a literal.
def Opens (s : List Char) : Prop :=
  ∀ front t, s = front ++ '\'' :: t → (∀ c ∈ front, c = '(' ∨ Text.isBlank c = true) →
    (afterLiteral? ('\'' :: t)).isSome

theorem opens_skipped (front s : List Char) (skipped : ∀ c ∈ front, c = '(' ∨ Text.isBlank c = true)
    (opens : Opens s) : Opens (front ++ s) := by
  induction front with
  | nil => exact opens
  | cons c front ih =>
      obtain ⟨first, rest⟩ := List.forall_mem_cons.mp skipped
      intro before t same lead
      cases before with
      | nil =>
          obtain ⟨rfl, -⟩ := List.cons.inj same
          rcases first with paren | blank
          · cases paren
          · cases blank
      | cons d before =>
          exact ih rest before t (List.cons.inj same).2 (List.forall_mem_cons.mp lead).2

theorem opens_other (c : Char) (s : List Char) (quote : c ≠ '\'') (paren : c ≠ '(')
    (solid : Text.isBlank c = false) : Opens (c :: s) := by
  intro front t same lead
  cases front with
  | nil => exact absurd (List.cons.inj same).1 quote
  | cons d front =>
      obtain ⟨rfl, -⟩ := List.cons.inj same
      rcases lead c List.mem_cons_self with opened | blank
      · exact absurd opened paren
      · rw [solid] at blank
        cases blank

theorem opens_literal (s : List Char) (some : (afterLiteral? ('\'' :: s)).isSome) :
    Opens ('\'' :: s) := by
  intro front t same lead
  cases front with
  | nil =>
      obtain ⟨-, rfl⟩ := List.cons.inj same
      exact some
  | cons d front =>
      obtain ⟨rfl, -⟩ := List.cons.inj same
      rcases lead _ List.mem_cons_self with paren | blank
      · cases paren
      · cases blank

theorem opens_empty : Opens [] := by
  intro front t same _
  cases front <;> cases same

theorem opens_rest (front s : List Char) (lead : ∀ c ∈ front, c = '(' ∨ Text.isBlank c = true)
    (opens : Opens (front ++ s)) : Opens s := by
  intro before t same skipped
  refine opens (front ++ before) t (by rw [same, List.append_assoc]) fun c member => ?_
  exact (List.mem_append.mp member).elim (lead c) (skipped c)

theorem opens_of_reads (s rest : List Char) (ls : List (List Char)) (reads : Reads s ls rest) :
    ∃ text, s = text ++ rest ∧ Opens text := by
  induction reads with
  | done s => exact ⟨[], rfl, opens_empty⟩
  | char c _ _ _ other _ ih =>
      obtain ⟨text, rfl, opens⟩ := ih
      refine ⟨c :: text, rfl, ?_⟩
      by_cases lead : c = '(' ∨ Text.isBlank c = true
      · exact opens_skipped [c] text (List.forall_mem_singleton.mpr lead) opens
      · rw [not_or, Bool.not_eq_true] at lead
        exact opens_other c text other lead.1 lead.2
  | literal l _ _ _ whole apart _ ih =>
      obtain ⟨text, rfl, -⟩ := ih
      have found : afterLiteral? (l ++ text) = some text :=
        (after_literal_iff _ text).mpr ⟨l, rfl, whole, apart_front _ _ apart⟩
      obtain ⟨body, rfl, -⟩ := whole
      exact ⟨'\'' :: (body ++ text), by simp, opens_literal _ (Option.isSome_of_eq_some found)⟩
  | comment s t _ _ passed _ ih =>
      obtain ⟨c, front, rfl, mark⟩ := after_comment_front s t passed
      obtain ⟨text, rfl, -⟩ := ih
      refine ⟨c :: (front ++ text), by simp, ?_⟩
      rcases mark with rfl | rfl <;> exact opens_other _ _ (by decide) (by decide) rfl

theorem opens_collapse (s : List Char) (opens : Opens s) (pending : Bool) (last : Option Char) :
    Opens (collapse false pending last s) := by
  induction s generalizing pending last with
  | nil => exact opens_empty
  | cons c s ih =>
      cases blank : Text.isBlank c with
      | true =>
          rw [collapse_blank _ _ _ _ blank]
          exact ih (opens_rest [c] s (List.forall_mem_singleton.mpr (.inr blank)) opens) _ _
      | false =>
          rw [collapse_solid _ _ _ _ blank]
          refine opens_skipped _ _ (fun d member => .inr (by rw [gap_space _ _ _ d member]; rfl)) ?_
          by_cases quote : c = '\''
          · subst quote
            obtain ⟨rest, found⟩ := Option.isSome_iff_exists.mp (opens [] s rfl (List.forall_mem_nil _))
            obtain ⟨l, parts, ⟨body, rfl, whole⟩, apart⟩ := (after_literal_iff _ rest).mp found
            obtain ⟨-, rfl⟩ := List.cons.inj parts
            obtain ⟨out, after, written, body, apart, -⟩ :=
              collapse_reshapes body rest whole apart true false (some '\'') (fun _ => rfl)
            refine opens_literal _ (Option.isSome_of_eq_some ((after_literal_iff _ after).mpr
              ⟨'\'' :: out, congrArg ('\'' :: ·) written, ⟨out, rfl, body⟩, apart⟩))
          · by_cases paren : c = '('
            · subst paren
              exact opens_skipped ['('] _ (by simp) (ih (opens_rest ['('] s (by simp) opens) _ _)
            · obtain ⟨d, ds, letters⟩ := List.exists_cons_of_ne_nil (Text.lower_char_ne_nil c)
              have member : d ∈ Text.lowerChar c := by simp [letters]
              rw [letters]
              refine opens_other d _ ?_ ?_ (Text.lower_char_solid c d blank member)
              · exact fun same => lower_unquoted c quote (same ▸ member)
              · exact fun same => paren (Text.lower_char_mark c d member (by rw [same]; decide) ▸ same)

theorem opens_lasting : Lasting Opens where
  opened := opens_rest
  ended s back plain opens front t same lead := by
    have found := opens front (t ++ back) (by rw [same, List.append_assoc]; rfl) lead
    obtain ⟨rest, found⟩ := Option.isSome_iff_exists.mp found
    obtain ⟨l, parts, whole, apart⟩ := (after_literal_iff _ rest).mp found
    obtain ⟨u, front, rfl⟩ := literal_before l rest ('\'' :: t) back whole plain parts.symm
    exact Option.isSome_of_eq_some
      ((after_literal_iff _ u).mpr ⟨l, front, whole, apart_front _ _ apart⟩)
  collapsed s opens := opens_collapse s opens false none

/-! ### Literals -/

def Constant (s : List Char) : Prop := Number s ∨ StringLiteral s

def Literal (s : List Char) : Prop := Constant s ∨ s ∈ keywords.map String.toList

def Compound (s : List Char) : Prop :=
  ∃ first rest, s = first ++ rest ∧ StringLiteral first ∧ rest ≠ [] ∧ rest.head? ≠ some '\'' ∧
    rest.getLast? = some '\''

theorem string_literal_iff (s : List Char) : StringLiteral s ↔ afterLiteral? s = some [] := by
  rw [after_literal_iff]
  constructor
  · exact fun whole => ⟨s, (List.append_nil s).symm, whole, by simp⟩
  · rintro ⟨l, rfl, whole, -⟩
    rwa [List.append_nil]

theorem compound_no_literal (s : List Char) (compound : Compound s) : ¬Literal s := by
  obtain ⟨first, rest, rfl, whole, some, apart, -⟩ := compound
  have quote : '\'' ∈ first ++ rest := by
    obtain ⟨body, rfl, -⟩ := whole
    exact List.mem_cons_self
  rintro ((number | literal) | keyword)
  · have char := number_chars _ ((number_iff _).mpr number) '\'' quote
    revert char
    decide
  · rw [string_literal_iff, (after_literal_iff _ rest).mpr ⟨first, rfl, whole, apart⟩] at literal
    exact some (Option.some.inj literal)
  · have unquoted : ∀ k ∈ keywords.map String.toList, '\'' ∉ k := by decide +kernel
    exact unquoted _ keyword quote

theorem quoted_iff (s : List Char) (opens : Opens s) :
    isQuoted s = true ↔ StringLiteral s ∨ Compound s := by
  have ends : isQuoted s = true ↔ 2 ≤ s.length ∧ s.head? = some '\'' ∧ s.getLast? = some '\'' := by
    rw [isQuoted, Bool.and_eq_true, Bool.and_eq_true, decide_eq_true_iff, decide_eq_true_iff,
      decide_eq_true_iff, and_assoc]
  rw [ends]
  constructor
  · rintro ⟨-, head, last⟩
    obtain ⟨t, rfl⟩ := List.head?_eq_some_iff.mp head
    obtain ⟨rest, found⟩ := Option.isSome_iff_exists.mp (opens [] t rfl (List.forall_mem_nil _))
    obtain ⟨l, parts, whole, apart⟩ := (after_literal_iff _ rest).mp found
    rw [parts] at last ⊢
    by_cases empty : rest = []
    · rw [empty, List.append_nil]
      exact .inl whole
    · rw [List.getLast?_append_of_ne_nil _ empty] at last
      exact .inr ⟨l, rest, rfl, whole, empty, apart, last⟩
  · rintro (⟨body, rfl, whole⟩ | ⟨first, rest, rfl, ⟨body, rfl, -⟩, filled, -, last⟩)
    · have last := body_last body whole
      have filled : body ≠ [] := by
        rintro rfl
        cases last
      exact ⟨Nat.succ_le_succ (List.length_pos_of_ne_nil filled), rfl,
        by rw [List.getLast?_cons_of_ne_nil filled, last]⟩
    · have more : body ++ rest ≠ [] := List.append_ne_nil_of_right_ne_nil body filled
      exact ⟨Nat.succ_le_succ (List.length_pos_of_ne_nil more), rfl,
        by rw [List.getLast?_append_of_ne_nil _ filled, last]⟩

theorem is_literal_iff (s : List Char) (opens : Opens s) :
    isLiteral s = true ↔ Literal s ∨ Compound s := by
  have keyword : keywords.contains (String.ofList s) = true ↔ s ∈ keywords.map String.toList := by
    rw [List.contains_iff_mem, List.mem_map]
    constructor
    · exact fun member => ⟨_, member, String.toList_ofList⟩
    · rintro ⟨k, member, rfl⟩
      rwa [String.ofList_toList]
  rw [isLiteral, Bool.or_eq_true, Bool.or_eq_true, number_iff, quoted_iff s opens, keyword, Literal,
    Constant]
  constructor
  · rintro ((number | literal | compound) | word)
    · exact .inl (.inl (.inl number))
    · exact .inl (.inl (.inr literal))
    · exact .inr compound
    · exact .inl (.inr word)
  · rintro (((number | literal) | word) | compound)
    · exact .inl (.inl number)
    · exact .inl (.inr (.inl literal))
    · exact .inr word
    · exact .inl (.inr (.inr compound))

theorem strip_cast_iff (s : List Char) (opens : Opens s) : stripLiteralCast s ≠ s ↔
    ∃ literal type, s = literal ++ ':' :: ':' :: type ∧ splitCast false s = some (literal, type) ∧
      type.all isTypeChar = true ∧ (Constant literal ∨ Compound literal) := by
  cases parts : splitCast false s with
  | none =>
      have same : stripLiteralCast s = s := by rw [stripLiteralCast, parts]
      refine iff_of_false (not_not.mpr same) ?_
      rintro ⟨_, _, _, found, _⟩
      cases found
  | some pair =>
      obtain ⟨literal, type⟩ := pair
      have split := (split_cast_first false s literal type parts).1
      have kind (typed : type.all isTypeChar = true) :
          (isNumber literal = true ∨ isQuoted literal = true)
            ↔ Constant literal ∨ Compound literal := by
        have inside := opens_lasting.ended _ _ (type_unquoted type typed) (split ▸ opens)
        rw [number_iff, quoted_iff literal inside, Constant, or_assoc]
      by_cases cast : type.all isTypeChar = true ∧ (isNumber literal = true ∨ isQuoted literal = true)
      · have stripped : stripLiteralCast s = literal := by
          rw [stripLiteralCast, parts]
          exact if_pos cast
        have shorter : stripLiteralCast s ≠ s := by
          rw [stripped, split]
          intro same
          have lengths := congrArg List.length same
          simp at lengths
        exact iff_of_true shorter ⟨literal, type, split, rfl, cast.1, (kind cast.1).mp cast.2⟩
      · have same : stripLiteralCast s = s := by
          rw [stripLiteralCast, parts]
          exact if_neg cast
        refine iff_of_false (not_not.mpr same) ?_
        rintro ⟨_, _, _, found, typed, constant⟩
        cases found
        exact cast ⟨typed, (kind typed).mpr constant⟩

/-! ### Defaults of accepted texts -/

def Occurs (dialect : Dialect) (n : String) : Prop :=
  ∃ text doc tree, parse? .document text = some doc ∧ tree ∈ doc.nodes ∧ tree.rule = .defaultExpr ∧
    dialect.normalizeDefault tree.text = some n

theorem occurs_opens (dialect : Dialect) (n : String) (occurs : Occurs dialect n) : Opens n.toList := by
  obtain ⟨text, doc, tree, read, member, kind, normal⟩ := occurs
  have matched := nodes_matched doc (parse_matched _ text doc read) tree member
  obtain ⟨rest, reads⟩ := default_reads tree matched kind
  obtain ⟨front, same, opens⟩ := opens_of_reads _ rest _ reads
  rw [List.append_cancel_right same] at normal
  exact default_keeps Opens opens_lasting dialect front n opens normal

theorem occurs_of (dialect : Dialect) (text e : List Char) (n : String)
    (read : ((parse? .document text).map fun doc =>
      (doc.nodes.filter (·.rule = .defaultExpr)).map Tree.text) = some [e])
    (normal : dialect.normalizeDefault e = some n) : Occurs dialect n := by
  obtain ⟨doc, found, texts⟩ := Option.map_eq_some_iff.mp read
  obtain ⟨tree, member, same⟩ := List.mem_map.mp (texts ▸ List.mem_singleton.mpr (rfl : e = e))
  obtain ⟨inside, kind⟩ := List.mem_filter.mp member
  exact ⟨text, doc, tree, found, inside, of_decide_eq_true kind, same ▸ normal⟩

-- Besides literals only compound expressions count as such, in the test and in front of a cast.
theorem literal_exact (dialect : Dialect) (n : String) (occurs : Occurs dialect n) :
    (isLiteral n.toList = true ↔ Literal n.toList ∨ Compound n.toList) ∧
    (stripLiteralCast n.toList ≠ n.toList ↔ ∃ literal type,
      n.toList = literal ++ ':' :: ':' :: type ∧ splitCast false n.toList = some (literal, type) ∧
        type.all isTypeChar = true ∧ (Constant literal ∨ Compound literal)) ∧
    ∀ s, Compound s → ¬Literal s :=
  ⟨is_literal_iff _ (occurs_opens dialect n occurs), strip_cast_iff _ (occurs_opens dialect n occurs),
    compound_no_literal⟩

theorem active_cast_dropped : Occurs .mysql "'active'::text" ∧ ∃ literal type,
    "'active'::text".toList = literal ++ ':' :: ':' :: type ∧
      splitCast false "'active'::text".toList = some (literal, type) ∧
        type.all isTypeChar = true ∧ (Constant literal ∨ Compound literal) := by
  have occurs : Occurs .mysql "'active'::text" :=
    occurs_of .mysql "CREATE TABLE t (a TEXT DEFAULT 'active'::TEXT);".toList
      "'active'::TEXT".toList _ (by decide +kernel) (by decide +kernel)
  exact ⟨occurs, (literal_exact .mysql _ occurs).2.1.mp (by decide +kernel)⟩

-- `'a' || 'b'` counts as a literal, and in front of `::text` it loses the cast of its second part.
theorem concatenation_counts_as_literal :
    (¬∀ dialect n, Occurs dialect n → isLiteral n.toList = true → Literal n.toList) ∧
    ¬∀ dialect n, Occurs dialect n → stripLiteralCast n.toList ≠ n.toList → ∃ literal type,
      n.toList = literal ++ ':' :: ':' :: type ∧ type.all isTypeChar = true ∧ Constant literal := by
  refine ⟨fun claim => ?_, fun claim => ?_⟩
  · have occurs : Occurs .mysql "'a' || 'b'" :=
      occurs_of .mysql "CREATE TABLE t (a TEXT DEFAULT 'a' || 'b');".toList "'a' || 'b'".toList _
        (by decide +kernel) (by decide +kernel)
    have compound : Compound "'a' || 'b'".toList :=
      ⟨"'a'".toList, " || 'b'".toList, by decide, (string_literal_iff _).mpr (by decide +kernel),
        by decide, by decide, by decide⟩
    exact compound_no_literal _ compound (claim .mysql _ occurs (by decide +kernel))
  · have occurs : Occurs .mysql "'a' || 'b'::text" :=
      occurs_of .mysql "CREATE TABLE t (a TEXT DEFAULT 'a' || 'b'::text);".toList
        "'a' || 'b'::text".toList _ (by decide +kernel) (by decide +kernel)
    obtain ⟨literal, type, parts, typed, constant⟩ := claim .mysql _ occurs (by decide +kernel)
    rcases constant with number | whole
    · have digits := (number_iff literal).mpr number
      cases literal with
      | nil => cases digits
      | cons c literal =>
          obtain rfl : '\'' = c := Option.some.inj (congrArg List.head? parts)
          have char := number_chars _ digits '\'' List.mem_cons_self
          revert char
          decide
    · have found : afterLiteral? "'a' || 'b'::text".toList = some (':' :: ':' :: type) :=
        (after_literal_iff _ _).mpr ⟨literal, parts, whole, by simp⟩
      have first : afterLiteral? "'a' || 'b'::text".toList = some " || 'b'::text".toList := by
        decide +kernel
      rw [first] at found
      have head : some ' ' = some ':' := congrArg List.head? (Option.some.inj found)
      cases head

end SchemaDrift.Default
