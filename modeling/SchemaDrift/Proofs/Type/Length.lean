import SchemaDrift.Dialect.Type
import SchemaDrift.Proofs.Result
import SchemaDrift.Proofs.Type.Change
/-!
The lengths of strings and bytes across a change of type. Within a family a dialect only lets them
grow, by the classification of changes or, on Spanner, by the lengths as they are written. From one
family to the other PostgreSQL and MySQL only go to unbounded text, and Spanner goes both ways without
a look at the lengths.
-/

set_option autoImplicit false

namespace SchemaDrift

namespace ColumnType

def IsText (type : ColumnType) : Prop := type.base.family = .string ∨ type.base.family = .bytes

-- The greatest length of a value: TEXT, MAX and a missing length set no bound.
def maxLength (type : ColumnType) : WithTop Nat :=
  match type.base, type.length with
  | .text, _ => ⊤
  | _, some (.fixed n) => n
  | _, _ => ⊤

theorem capacity_bound (type : ColumnType) : bound type.capacity = type.maxLength := by
  obtain ⟨base, length, _, _, _⟩ := type
  cases base <;> cases length with
  | none => rfl
  | some length => cases length <;> rfl

theorem unbounded_length (type : ColumnType) (unbounded : type.isUnboundedString = true) :
    type.maxLength = ⊤ := by
  rw [isUnboundedString, Bool.and_eq_true, Option.isNone_iff_eq_none] at unbounded
  rw [← capacity_bound, unbounded.2]
  rfl

theorem text_widens_iff (a b : ColumnType) (text : a.IsText) :
    Widens a b a.base.family b.base.family ↔
      a.base.family = b.base.family ∧ a.maxLength ≤ b.maxLength := by
  unfold IsText at text
  rw [← capacity_bound, ← capacity_bound]
  generalize a.base.family = f, b.base.family = g at text
  constructor
  · intro widens
    cases widens with
    | string capacity | bytes capacity => exact ⟨rfl, capacity⟩
    | integer | float | whole | unbounded | decimal | day | zone | json => simp at text
  · rintro ⟨rfl, capacity⟩
    rcases text with rfl | rfl
    · exact .string capacity
    · exact .bytes capacity

theorem becomes_text_iff (a b : ColumnType) (text : a.IsText) :
    a.widensOrBecomesText b = true ↔ a.array = b.array ∧
      (a.base.family = b.base.family ∧ a.maxLength ≤ b.maxLength ∨ b.isUnboundedString = true) := by
  have safe : a.SafeChange b ↔ a.array = b.array ∧ a.base.family = b.base.family ∧
      a.maxLength ≤ b.maxLength := by
    rw [safe_change_iff, text_widens_iff a b text]
    refine or_iff_right_of_imp ?_
    rintro rfl
    exact ⟨rfl, rfl, le_rfl⟩
  rw [and_or_left, ← safe, and_comm (a := a.array = b.array)]
  simp only [widensOrBecomesText, SafeChange, Bool.or_eq_true, Bool.and_eq_true, decide_eq_true_eq]

end ColumnType

/-! ### Spanner -/

namespace Spanner

theorem written_length (type : ColumnType)
    (canonical : Dialect.spanner.canonicalType type = .ok type) :
    bound (lengthBound type) = type.maxLength := by
  obtain ⟨base, length, precision, scale, array⟩ := type
  cases base with
  | text =>
      cases array <;> cases canonical <;> rfl
  | _ =>
      cases length with
      | none => rfl
      | some length => cases length <;> rfl

theorem is_text_iff (type : ColumnType) : isText type.base.family = true ↔ type.IsText := by
  unfold ColumnType.IsText
  cases type.base.family <;> decide

theorem text_change_iff (a b : ColumnType) (text : a.IsText) (other : b.IsText)
    (source : Dialect.spanner.canonicalType a = .ok a)
    (target : Dialect.spanner.canonicalType b = .ok b) :
    supportsTypeChange a b = true ↔ a.array = b.array ∧
      (a.base.family = b.base.family → a.maxLength ≤ b.maxLength) := by
  rw [← is_text_iff] at text other
  rw [← written_length a source, ← written_length b target, ← compare_bound_le, supportsTypeChange]
  by_cases same : a = b
  · subst same
    rw [if_pos rfl, compare_bound_le]
    exact iff_of_true rfl ⟨rfl, fun _ => le_rfl⟩
  · rw [if_neg same]
    by_cases array : a.array = b.array
    · rw [if_neg (not_not.mpr array), text, other, Bool.and_true, and_iff_right array]
      by_cases family : a.base.family = b.base.family
      · simp [family]
      · simp [family]
    · rw [if_pos array]
      exact iff_of_false Bool.false_ne_true fun both => array both.1

end Spanner

/-! ### All dialects -/

theorem text_change_iff (dialect : Dialect) (a b : ColumnType) (text : a.IsText) (other : b.IsText)
    (source : dialect.canonicalType a = .ok a) (target : dialect.canonicalType b = .ok b) :
    dialect.supportsTypeChange a b = true ↔ a.array = b.array ∧
      (a.base.family = b.base.family ∧ a.maxLength ≤ b.maxLength ∨
        dialect ≠ .spanner ∧ b.isUnboundedString = true ∨
        dialect = .spanner ∧ a.base.family ≠ b.base.family) := by
  cases dialect with
  | postgres | mysql =>
      change a.widensOrBecomesText b = true ↔ _
      rw [ColumnType.becomes_text_iff a b text]
      simp
  | spanner =>
      change Spanner.supportsTypeChange a b = true ↔ _
      rw [Spanner.text_change_iff a b text other source target]
      by_cases family : a.base.family = b.base.family <;> simp [family]

-- A change shrinks a length only on Spanner and only from strings to bytes or back. There the lengths
-- do not matter at all.
theorem lengths_shrink_across_families (dialect : Dialect) (source target : ColumnType)
    (text : source.IsText) (other : target.IsText)
    (canonical : dialect.canonicalType source = .ok source)
    (otherCanonical : dialect.canonicalType target = .ok target) :
    (dialect.supportsTypeChange source target = true → source.maxLength ≤ target.maxLength ∨
      dialect = .spanner ∧ source.base.family ≠ target.base.family) ∧
    (dialect = .spanner ∧ source.base.family ≠ target.base.family →
      (dialect.supportsTypeChange source target = true ↔ source.array = target.array)) := by
  rw [text_change_iff dialect source target text other canonical otherCanonical]
  constructor
  · rintro ⟨_, ⟨_, longer⟩ | ⟨_, unbounded⟩ | crossed⟩
    · exact .inl longer
    · exact .inl (target.unbounded_length unbounded ▸ le_top)
    · exact .inr crossed
  · intro crossed
    exact and_iff_left (.inr (.inr crossed))

namespace Codes

def limited : ColumnType := { base := .varchar, length := some (.fixed 36), array := true }

def unlimited : ColumnType := { base := .varchar, array := true }

end Codes

theorem codes_get_longer : Dialect.postgres.canonicalType Codes.limited = .ok Codes.limited ∧
    Dialect.postgres.canonicalType Codes.unlimited = .ok Codes.unlimited ∧
      Dialect.postgres.supportsTypeChange Codes.limited Codes.unlimited = true ∧
        Codes.limited.maxLength ≤ Codes.unlimited.maxLength := by
  have supported : Dialect.postgres.supportsTypeChange Codes.limited Codes.unlimited = true := by
    decide
  have longer := (lengths_shrink_across_families .postgres Codes.limited Codes.unlimited (.inl rfl)
    (.inl rfl) rfl rfl).1 supported
  exact ⟨rfl, rfl, supported, longer.resolve_right fun crossed => crossed.2 rfl⟩

-- A hundred characters do not fit into ten bytes.
theorem string_shrinks_to_bytes : ¬∀ (dialect : Dialect) (source target : ColumnType),
    source.IsText → target.IsText → dialect.canonicalType source = .ok source →
      dialect.canonicalType target = .ok target →
        dialect.supportsTypeChange source target = true → source.maxLength ≤ target.maxLength := by
  intro grows
  have shorter := grows .spanner (.varchar 100) { base := .bytes, length := some (.fixed 10) }
    (.inl rfl) (.inr rfl) rfl rfl rfl
  exact absurd (WithTop.coe_le_coe.mp shorter) (by decide)

end SchemaDrift
