import SchemaDrift.Dialect.Type
import SchemaDrift.Proofs.Result
/-!
The modifiers of a native type. UNSIGNED is refused everywhere. A time zone is refused by Spanner and
read by the temporal types of PostgreSQL; its types with arguments and all types of MySQL pass over it.
-/

set_option autoImplicit false

namespace SchemaDrift

structure NativeType.KeepsModifiers (spelled : NativeType) (type : ColumnType) : Prop where
  signed : spelled.unsigned = false
  zoned : spelled.timeZone = some true → type.base = .timestampTz
  unzoned : spelled.timeZone = some false → type.base = .time ∨ type.base = .timestamp

-- The types that are read as their time zone says, or without a time zone.
def Dialect.zoneTypes : Dialect → Bool → List String
  | postgres, true => ["TIMESTAMP"]
  | postgres, false => ["TIME", "TIMESTAMP"]
  | mysql, true => ["TIMESTAMP"]
  | mysql, false => ["TIME", "DATETIME"]
  | spanner, _ => []

/-! ### PostgreSQL -/

theorem char_family (args : List TypeArg) (type : ColumnType) (read : charType? args = some type) :
    type.base.family = .string := by
  unfold charType? at read
  split at read <;> cases read <;> rfl

theorem bits_family (bits : Nat) :
    (if bits ≤ 24 then BaseType.real else BaseType.double).family = .float := by
  split <;> rfl

namespace Postgres

theorem float_family (args : List TypeArg) (type : ColumnType) (read : float? args = some type) :
    type.base.family = .float := by
  unfold float? at read
  split at read <;> cases read
  · rfl
  · exact bits_family _

theorem decimal_family (args : List TypeArg) (type : ColumnType) (read : decimal? args = some type) :
    type.base.family = .decimal := by
  unfold decimal? at read
  split at read <;> cases read <;> rfl

theorem varchar_family (args : List TypeArg) (type : ColumnType) (read : varchar? args = some type) :
    type.base.family = .string := by
  unfold varchar? at read
  split at read <;> cases read <;> rfl

theorem zoned_type (spelled : NativeType) (zone : Bool) (type : ColumnType)
    (written : spelled.timeZone = some zone) (read : scalarType? spelled = some type) :
    spelled.name = "TIME" ∧ zone = false ∧ type.base = .time ∨
      spelled.name = "TIMESTAMP" ∧ type.base = (if zone = true then .timestampTz else .timestamp) ∨
        spelled.name ∉ ["TIME", "TIMESTAMP"] ∧ type.base.family ≠ .temporal := by
  unfold scalarType? at read
  split at read
  case h_1 =>
    rw [if_neg (by simp [written])] at read
    cases read
  case h_2 =>
    split at read
    case h_1 name =>
      exact .inr (.inr ⟨by simp [name], by simp [float_family _ _ read]⟩)
    case h_2 name | h_3 name =>
      exact .inr (.inr ⟨by simp [name], by simp [decimal_family _ _ read]⟩)
    case h_4 name | h_5 name | h_6 name =>
      exact .inr (.inr ⟨by simp [name], by simp [char_family _ _ read]⟩)
    case h_7 name | h_8 name =>
      exact .inr (.inr ⟨by simp [name], by simp [varchar_family _ _ read]⟩)
    case h_9 name =>
      split at read
      case isTrue plain =>
        cases read
        exact .inl ⟨name, by simpa [written] using plain.2, rfl⟩
      case isFalse => cases read
    case h_10 name =>
      split at read
      case isTrue => cases read
      case isFalse =>
        cases read
        exact .inr (.inl ⟨name, by simp [written]⟩)
    case h_11 => cases read

end Postgres

/-! ### MySQL -/

namespace MySql

theorem float_family (args : List TypeArg) (type : ColumnType) (read : float? args = some type) :
    type.base.family = .float := by
  unfold float? at read
  split at read <;> cases read
  · rfl
  · exact bits_family _

theorem decimal_family (args : List TypeArg) (type : ColumnType) (read : decimal? args = some type) :
    type.base.family = .decimal := by
  unfold decimal? at read
  split at read <;> cases read <;> rfl

theorem sized_base (base : BaseType) (args : List TypeArg) (type : ColumnType)
    (read : sized? base args = some type) : type.base = base := by
  unfold sized? at read
  split at read <;> cases read
  rfl

theorem integer_family (name : String) (base : BaseType) (read : integerBase? name = some base) :
    base.family = .integer := by
  unfold integerBase? at read
  split at read <;> cases read <;> rfl

theorem read_base (spelled : NativeType) (type : ColumnType) (read : scalarType? spelled = some type) :
    plainBase? spelled.name = some type.base ∨
      plainBase? spelled.name = none ∧ type.base.family ≠ .temporal := by
  unfold scalarType? at read
  split at read
  case h_1 plain =>
    split at read <;> cases read
    exact .inl plain
  case h_2 base plain whole =>
    split at read <;> cases read
    exact .inr ⟨plain, by simp [integer_family _ _ whole]⟩
  case h_3 plain _ =>
    refine .inr ⟨plain, ?_⟩
    split at read
    case h_1 =>
      split at read <;> cases read
      decide
    case h_2 => simp [float_family _ _ read]
    case h_3 | h_4 | h_5 | h_6 => simp [decimal_family _ _ read]
    case h_7 => simp [char_family _ _ read]
    case h_8 | h_9 => simp [sized_base _ _ _ read, BaseType.family]
    case h_10 => cases read

theorem plain_temporal (name : String) (base : BaseType) (read : plainBase? name = some base) :
    (base = .timestampTz ↔ name = "TIMESTAMP") ∧
      (base = .time ∨ base = .timestamp ↔ name = "TIME" ∨ name = "DATETIME") := by
  unfold plainBase? at read
  split at read <;> cases read <;> decide

theorem temporal_type (spelled : NativeType) (type : ColumnType)
    (read : scalarType? spelled = some type) :
    (type.base = .timestampTz ↔ spelled.name = "TIMESTAMP") ∧
      (type.base = .time ∨ type.base = .timestamp ↔ spelled.name = "TIME" ∨ spelled.name = "DATETIME") := by
  rcases read_base spelled type read with plain | ⟨other, family⟩
  · exact plain_temporal _ _ plain
  · refine ⟨iff_of_false (fun base => ?_) fun name => ?_, iff_of_false (fun base => ?_) fun name => ?_⟩
    · simp [base, BaseType.family] at family
    · simp [name, plainBase?] at other
    · rcases base with base | base <;> simp [base, BaseType.family] at family
    · rcases name with name | name <;> simp [name, plainBase?] at other

end MySql

/-! ### Accepted types -/

theorem accepted_postgres (spelled : NativeType) (type : ColumnType)
    (accepted : Postgres.columnType spelled = .ok type) : spelled.unsigned = false ∧
      ∃ scalar, Postgres.scalarType? spelled = some scalar ∧ type.base = scalar.base := by
  unfold Postgres.columnType at accepted
  split at accepted
  case isTrue => cases accepted
  case isFalse =>
    split at accepted
    case h_1 => cases accepted
    case h_2 scalar read =>
      split at read
      case isTrue => cases read
      case isFalse signed =>
        refine ⟨Bool.eq_false_iff.mpr signed, scalar, read, ?_⟩
        cases accepted
        split <;> rfl

theorem accepted_mysql (spelled : NativeType) (type : ColumnType)
    (accepted : MySql.columnType spelled = .ok type) :
    spelled.unsigned = false ∧ MySql.scalarType? spelled = some type := by
  unfold MySql.columnType at accepted
  split at accepted
  case isTrue => cases accepted
  case isFalse =>
    split at accepted
    case isTrue => cases accepted
    case isFalse signed =>
      split at accepted
      case h_1 => cases accepted
      case h_2 scalar read =>
        cases accepted
        exact ⟨Bool.eq_false_iff.mpr signed, read⟩

theorem accepted_spanner (spelled : NativeType) (type : ColumnType)
    (accepted : Spanner.columnType spelled = .ok type) :
    spelled.unsigned = false ∧ spelled.timeZone = none := by
  unfold Spanner.columnType at accepted
  split at accepted
  case isTrue => cases accepted
  case isFalse plain => simpa using plain

theorem accepted_signed (dialect : Dialect) (spelled : NativeType) (type : ColumnType)
    (accepted : dialect.columnType spelled = .ok type) : spelled.unsigned = false := by
  cases dialect with
  | postgres => exact (accepted_postgres spelled type accepted).1
  | mysql => exact (accepted_mysql spelled type accepted).1
  | spanner => exact (accepted_spanner spelled type accepted).1

theorem zone_told_iff (dialect : Dialect) (spelled : NativeType) (type : ColumnType) (zone : Bool)
    (accepted : dialect.columnType spelled = .ok type) (written : spelled.timeZone = some zone) :
    (if zone = true then type.base = .timestampTz else type.base = .time ∨ type.base = .timestamp)
      ↔ spelled.name ∈ dialect.zoneTypes zone := by
  cases dialect with
  | postgres =>
      obtain ⟨_, scalar, read, base⟩ := accepted_postgres spelled type accepted
      rw [base]
      rcases Postgres.zoned_type spelled zone scalar written read with
        ⟨name, rfl, time⟩ | ⟨name, moment⟩ | ⟨name, family⟩
      · simp [name, time, Dialect.zoneTypes]
      · cases zone <;> simp [name, moment, Dialect.zoneTypes]
      · have untold : ∀ base ∈ [BaseType.time, .timestamp, .timestampTz], scalar.base ≠ base := by
          rintro base member rfl
          simp only [List.mem_cons, List.not_mem_nil, or_false] at member
          rcases member with same | same | same <;> simp [same, BaseType.family] at family
        simp only [List.mem_cons, List.not_mem_nil, or_false, not_or] at name
        cases zone <;> simp [untold, name, Dialect.zoneTypes]
  | mysql =>
      obtain ⟨_, read⟩ := accepted_mysql spelled type accepted
      obtain ⟨zoned, plain⟩ := MySql.temporal_type spelled type read
      cases zone <;> simp [zoned, plain, Dialect.zoneTypes]
  | spanner =>
      rw [(accepted_spanner spelled type accepted).2] at written
      cases written

-- No accepted type is unsigned. A time zone is kept exactly in the types that the dialect reads with it
-- or, in MySQL, that are as the time zone says anyway.
theorem modifiers_kept_iff (dialect : Dialect) (spelled : NativeType) (type : ColumnType)
    (accepted : dialect.columnType spelled = .ok type) : spelled.unsigned = false ∧
      (spelled.KeepsModifiers type ↔
        ∀ zone, spelled.timeZone = some zone → spelled.name ∈ dialect.zoneTypes zone) := by
  have signed := accepted_signed dialect spelled type accepted
  have told (zone : Bool) := zone_told_iff dialect spelled type zone accepted
  refine ⟨signed, fun kept zone written => (told zone written).mp ?_, fun listed => ⟨signed, ?_, ?_⟩⟩
  · cases zone with
    | true => exact kept.zoned written
    | false => exact kept.unzoned written
  · exact fun written => (told true written).mpr (listed true written)
  · exact fun written => (told false written).mpr (listed false written)

namespace Moments

def zoned : NativeType := { name := "TIMESTAMP", timeZone := some true, arrayDepth := 1 }

end Moments

theorem moments_keep_zone :
    Dialect.postgres.columnType Moments.zoned = .ok { base := .timestampTz, array := true } ∧
      Moments.zoned.KeepsModifiers { base := .timestampTz, array := true } := by
  have accepted : Dialect.postgres.columnType Moments.zoned
      = .ok { base := .timestampTz, array := true } := rfl
  refine ⟨accepted, (modifiers_kept_iff .postgres Moments.zoned _ accepted).2.mpr ?_⟩
  rintro zone written
  cases written
  decide

-- A number WITH TIME ZONE is a number.
theorem zone_of_number_is_dropped : ¬∀ (dialect : Dialect) (spelled : NativeType) (type : ColumnType),
    dialect.columnType spelled = .ok type → spelled.KeepsModifiers type := by
  intro always
  have kept := always .postgres { name := "NUMERIC", timeZone := some true } { base := .decimal } rfl
  exact absurd (kept.zoned rfl) (by decide)

end SchemaDrift
