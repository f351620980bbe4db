import Mathlib.Order.WithBot
import SchemaDrift.Type.Change
/-!
Safe changes of a type compose. Within a family a change is safe as an order on widths or bounds
has it. The one way out of a family, from the integers to the decimals, leads to decimals without a
precision, and no safe change gives these one.
-/

set_option autoImplicit false

namespace SchemaDrift

/-! ### Orders behind the classification -/

def bound (limit : Option Nat) : WithTop Nat := limit

theorem compare_bound_le (a b : Option Nat) : compareBound a b ≠ .gt ↔ bound a ≤ bound b := by
  cases a with
  | none =>
      cases b with
      | none => exact iff_of_true (by decide) le_rfl
      | some m => exact iff_of_false (fun other => other rfl) (WithTop.not_top_le_coe m)
  | some n =>
      cases b with
      | none => exact iff_of_true (fun other => by cases other) le_top
      | some m => exact Nat.compare_ne_gt.trans WithTop.coe_le_coe.symm

theorem of_ordering_safe (order : Ordering) :
    TypeChange.ofOrdering order = .identical ∨ TypeChange.ofOrdering order = .widening
      ↔ order ≠ .gt := by
  cases order <;> decide

namespace ColumnType

def SafeChange (source target : ColumnType) : Prop :=
  source.classifyChange target = .identical ∨ source.classifyChange target = .widening

def wholeDigits (type : ColumnType) : Option Nat := type.precision.map (· - type.scale.getD 0)

inductive Widens (a b : ColumnType) : TypeFamily → TypeFamily → Prop
  | integer (width : a.base.width ≤ b.base.width) : Widens a b .integer .integer
  | float (width : a.base.width ≤ b.base.width) : Widens a b .float .float
  | whole (unbounded : b.precision = none) : Widens a b .integer .decimal
  | unbounded (unbounded : b.precision = none) : Widens a b .decimal .decimal
  | decimal (precision : bound a.precision ≤ bound b.precision)
      (scale : a.scale.getD 0 ≤ b.scale.getD 0)
      (digits : bound a.wholeDigits ≤ bound b.wholeDigits) : Widens a b .decimal .decimal
  | string (capacity : bound a.capacity ≤ bound b.capacity) : Widens a b .string .string
  | bytes (capacity : bound a.capacity ≤ bound b.capacity) : Widens a b .bytes .bytes
  | day (date : a.base = .date) (moment : b.base = .timestamp ∨ b.base = .timestampTz) :
      Widens a b .temporal .temporal
  | zone (plain : a.base = .timestamp) (zoned : b.base = .timestampTz) :
      Widens a b .temporal .temporal
  | json : Widens a b .json .json

theorem string_change_safe (a b : ColumnType) :
    stringChange a b = .identical ∨ stringChange a b = .widening
      ↔ bound a.capacity ≤ bound b.capacity := by
  rw [← compare_bound_le]
  unfold stringChange
  dsimp only
  split
  · exact of_ordering_safe _
  · cases compareBound a.capacity b.capacity <;> decide

theorem decimal_change_safe (a b : ColumnType) :
    decimalChange a b = .identical ∨ decimalChange a b = .widening
      ↔ bound a.precision ≤ bound b.precision ∧ a.scale.getD 0 ≤ b.scale.getD 0
        ∧ bound a.wholeDigits ≤ bound b.wholeDigits := by
  rw [← compare_bound_le, ← compare_bound_le]
  unfold decimalChange wholeDigits
  dsimp only
  split
  case isTrue fits => exact iff_of_true (.inr rfl) fits
  case isFalse tight => exact iff_of_false (by decide) tight

theorem temporal_change_safe (a b : BaseType) :
    temporalChange a b = .identical ∨ temporalChange a b = .widening
      ↔ a = .date ∧ (b = .timestamp ∨ b = .timestampTz) ∨ a = .timestamp ∧ b = .timestampTz := by
  cases a <;> cases b <;> decide

theorem safe_change_widens (a b : ColumnType) (differ : a ≠ b) (array : a.array = b.array) :
    a.SafeChange b ↔ Widens a b a.base.family b.base.family := by
  rw [SafeChange, classifyChange, if_neg differ, if_neg (not_not.mpr array)]
  generalize a.base.family = f, b.base.family = g
  split
  case h_1 =>
    rw [of_ordering_safe, Nat.compare_ne_gt]
    exact ⟨.integer, fun widens => by cases widens with | integer width => exact width⟩
  case h_2 =>
    rw [of_ordering_safe, Nat.compare_ne_gt]
    exact ⟨.float, fun widens => by cases widens with | float width => exact width⟩
  case h_3 =>
    split
    case isTrue unbounded =>
      exact iff_of_true (.inr rfl) (.whole (Option.isNone_iff_eq_none.mp unbounded))
    case isFalse bounded =>
      refine iff_of_false (by decide) fun widens => ?_
      cases widens with
      | whole unbounded => exact bounded (Option.isNone_iff_eq_none.mpr unbounded)
  case h_4 =>
    split
    case isTrue unbounded =>
      exact iff_of_true (.inr rfl) (.unbounded (Option.isNone_iff_eq_none.mp unbounded))
    case isFalse bounded =>
      rw [decimal_change_safe]
      constructor
      · rintro ⟨precision, scale, digits⟩
        exact .decimal precision scale digits
      · intro widens
        cases widens with
        | unbounded unbounded => exact absurd (Option.isNone_iff_eq_none.mpr unbounded) bounded
        | decimal precision scale digits => exact ⟨precision, scale, digits⟩
  case h_5 =>
    rw [string_change_safe]
    exact ⟨.string, fun widens => by cases widens with | string capacity => exact capacity⟩
  case h_6 =>
    rw [string_change_safe]
    exact ⟨.bytes, fun widens => by cases widens with | bytes capacity => exact capacity⟩
  case h_7 =>
    rw [temporal_change_safe]
    constructor
    · rintro (⟨date, moment⟩ | ⟨plain, zoned⟩)
      · exact .day date moment
      · exact .zone plain zoned
    · intro widens
      cases widens with
      | day date moment => exact .inl ⟨date, moment⟩
      | zone plain zoned => exact .inr ⟨plain, zoned⟩
  case h_8 => exact iff_of_true (.inr rfl) .json
  case h_9 =>
    refine iff_of_false (by decide) fun widens => ?_
    cases widens <;> simp_all

theorem safe_change_iff (a b : ColumnType) :
    a.SafeChange b ↔ a = b ∨ a.array = b.array ∧ Widens a b a.base.family b.base.family := by
  by_cases same : a = b
  · refine iff_of_true (.inl ?_) (.inl same)
    rw [classifyChange, if_pos same]
  · rw [or_iff_right same]
    by_cases array : a.array = b.array
    · rw [safe_change_widens a b same array, and_iff_right array]
    · refine iff_of_false ?_ fun both => array both.1
      rw [SafeChange, classifyChange, if_neg same, if_pos array]
      decide

theorem widens_trans (a b c : ColumnType) (f g h : TypeFamily) (first : Widens a b f g)
    (second : Widens b c g h) : Widens a c f h := by
  -- The families match where the changes meet. What a decimal without a precision widens to has none
  -- either, and no moment widens to a date.
  cases first with
  | integer width =>
      cases second with
      | integer further => exact .integer (width.trans further)
      | whole unbounded => exact .whole unbounded
  | float width =>
      cases second with
      | float further => exact .float (width.trans further)
  | whole unbounded =>
      cases second with
      | unbounded still => exact .whole still
      | decimal precision scale digits =>
          rw [unbounded] at precision
          exact .whole (WithTop.top_le_iff.mp precision)
  | unbounded unbounded =>
      cases second with
      | unbounded still => exact .unbounded still
      | decimal precision scale digits =>
          rw [unbounded] at precision
          exact .unbounded (WithTop.top_le_iff.mp precision)
  | decimal precision scale digits =>
      cases second with
      | unbounded still => exact .unbounded still
      | decimal wider deeper longer =>
          exact .decimal (precision.trans wider) (scale.trans deeper) (digits.trans longer)
  | string capacity =>
      cases second with
      | string further => exact .string (capacity.trans further)
  | bytes capacity =>
      cases second with
      | bytes further => exact .bytes (capacity.trans further)
  | day date moment =>
      cases second with
      | day again _ => simp [again] at moment
      | zone _ zoned => exact .day date (.inr zoned)
  | zone plain zoned =>
      cases second with
      | day date _ => simp [date] at zoned
      | zone again _ => simp [again] at zoned
  | json =>
      cases second with
      | json => exact .json

theorem safe_changes_compose : (∀ a : ColumnType, a.SafeChange a) ∧
    ∀ a b c : ColumnType, a.SafeChange b → b.SafeChange c → a.SafeChange c := by
  refine ⟨fun a => (safe_change_iff a a).mpr (.inl rfl), fun a b c first second => ?_⟩
  rcases (safe_change_iff a b).mp first with rfl | ⟨array, widens⟩
  · exact second
  · rcases (safe_change_iff b c).mp second with rfl | ⟨further, wider⟩
    · exact first
    · exact (safe_change_iff a c).mpr
        (.inr ⟨array.trans further, widens_trans a b c _ _ _ widens wider⟩)

theorem small_integer_to_decimal :
    SafeChange { base := .smallInt, length := some .max } { base := .bigInt } ∧
      SafeChange { base := .bigInt } { base := .decimal, scale := some 4 } ∧
        SafeChange { base := .smallInt, length := some .max } { base := .decimal, scale := some 4 } := by
  have first : SafeChange { base := .smallInt, length := some .max } { base := .bigInt } :=
    .inr (by decide)
  have second : SafeChange { base := .bigInt } { base := .decimal, scale := some 4 } :=
    .inr (by decide)
  exact ⟨first, second, safe_changes_compose.2 _ _ _ first second⟩

end ColumnType

end SchemaDrift
