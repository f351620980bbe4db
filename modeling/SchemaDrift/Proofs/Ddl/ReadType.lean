import SchemaDrift.Proofs.Ddl.PrintedType
/-!
A type that was read can be written: its numbers have 32 bits, and the dialect has a native type for
it.
-/

set_option autoImplicit false

namespace SchemaDrift

open Grammar (Tree)

/-! ### Native types -/

def SmallArgs (args : List TypeArg) : Prop := ∀ n, .number n ∈ args → n < UInt32.size

namespace Ddl

variable (dialect : Dialect)

theorem type_arg_small (tree : Tree) (n : Nat) (read : typeArg dialect tree = .ok (.number n)) :
    n < UInt32.size := by
  unfold typeArg at read
  dsimp only at read
  split at read
  · split at read
    case isTrue small =>
      cases read
      exact small
    case isFalse => cases read
  · cases read
  · cases read

theorem scalar_type_small (tree : Tree) (spelled : NativeType)
    (read : scalarType dialect tree = .ok spelled) : SmallArgs spelled.args := by
  obtain ⟨args, each, last⟩ := (bind_ok _ _ _).mp read
  cases last
  intro n member
  obtain ⟨arg, _, found⟩ := partner_of_right _ _ _ ((map_m_ok _ _ _).mp each) _ member
  exact type_arg_small dialect arg n found

theorem native_type_small (tree : Tree) (spelled : NativeType)
    (read : nativeType dialect tree = .ok spelled) : SmallArgs spelled.args := by
  unfold nativeType at read
  split at read
  · split at read
    · obtain ⟨scalar, found, rfl⟩ := (map_ok _ _ _).mp read
      exact scalar_type_small dialect _ scalar found
    · cases read
      rintro n ⟨⟩
  · exact scalar_type_small dialect _ spelled read
  · cases read
    rintro n ⟨⟩

end Ddl

/-! ### Column types -/

structure ColumnType.Scalar (type : ColumnType) : Prop where
  narrow : type.Narrow
  flat : type.array = false

theorem scalar_base (base : BaseType) : ColumnType.Scalar { base } :=
  ⟨⟨by rintro n ⟨⟩, by rintro n ⟨⟩, by rintro n ⟨⟩⟩, rfl⟩

theorem scalar_sized (base : BaseType) (n : Nat) (small : n < UInt32.size) :
    ColumnType.Scalar { base, length := some (.fixed n) } := by
  refine ⟨⟨?_, by rintro n ⟨⟩, by rintro n ⟨⟩⟩, rfl⟩
  rintro m ⟨⟩
  exact small

theorem scalar_decimal (p s : Nat) (digits : p < UInt32.size) (places : s < UInt32.size) :
    (ColumnType.decimal p s).Scalar := by
  refine ⟨⟨by rintro n ⟨⟩, ?_, ?_⟩, rfl⟩
  · rintro m ⟨⟩
    exact digits
  · rintro m ⟨⟩
    exact places

theorem scalar_precision (p : Nat) (digits : p < UInt32.size) :
    ColumnType.Scalar { base := .decimal, precision := some p } := by
  refine ⟨⟨by rintro n ⟨⟩, ?_, by rintro n ⟨⟩⟩, rfl⟩
  rintro m ⟨⟩
  exact digits

section Args

variable (args : List TypeArg) (type : ColumnType) (small : SmallArgs args)

theorem postgres_float_scalar (known : Postgres.float? args = some type) : type.Scalar := by
  unfold Postgres.float? at known
  split at known <;> cases known
  all_goals exact scalar_base _

theorem mysql_float_scalar (known : MySql.float? args = some type) : type.Scalar := by
  unfold MySql.float? at known
  split at known <;> cases known
  all_goals exact scalar_base _

include small

theorem char_type_scalar (known : charType? args = some type) : type.Scalar := by
  unfold charType? at known
  split at known <;> cases known
  · exact scalar_sized .char 1 (by decide)
  · exact scalar_sized .char _ (small _ List.mem_cons_self)

theorem postgres_decimal_scalar (known : Postgres.decimal? args = some type) : type.Scalar := by
  unfold Postgres.decimal? at known
  split at known <;> cases known
  · exact scalar_base _
  · exact scalar_precision _ (small _ List.mem_cons_self)
  · exact scalar_decimal _ _ (small _ List.mem_cons_self) (small _ (by simp))

theorem varchar_scalar (known : Postgres.varchar? args = some type) : type.Scalar := by
  unfold Postgres.varchar? at known
  split at known <;> cases known
  · exact scalar_base _
  · exact scalar_sized .varchar _ (small _ List.mem_cons_self)

theorem mysql_decimal_scalar (known : MySql.decimal? args = some type) : type.Scalar := by
  unfold MySql.decimal? at known
  split at known <;> cases known
  · exact scalar_decimal _ _ (by decide) (by decide)
  · exact scalar_decimal _ _ (small _ List.mem_cons_self) (by decide)
  · exact scalar_decimal _ _ (small _ List.mem_cons_self) (small _ (by simp))

theorem sized_scalar (base : BaseType) (known : MySql.sized? base args = some type) :
    type.Scalar := by
  unfold MySql.sized? at known
  split at known <;> cases known
  exact scalar_sized base _ (small _ List.mem_cons_self)

theorem string_scalar (known : Spanner.string? args = some type) :
    type.Scalar ∧ type.base ≠ .time := by
  unfold Spanner.string? at known
  split at known <;> cases known
  · exact ⟨scalar_sized .varchar _ (small _ List.mem_cons_self), by rintro ⟨⟩⟩
  · exact ⟨scalar_base _, by decide⟩

theorem bytes_scalar (known : Spanner.bytes? args = some type) :
    type.Scalar ∧ type.base ≠ .time := by
  unfold Spanner.bytes? at known
  split at known
  case h_2 => cases known
  case h_1 arg =>
    obtain ⟨length, found, rfl⟩ := Option.map_eq_some_iff.mp known
    cases arg with
    | number n =>
        cases found
        exact ⟨scalar_sized .bytes n (small _ List.mem_cons_self), by rintro ⟨⟩⟩
    | max =>
        cases found
        exact ⟨⟨⟨by rintro n ⟨⟩, by rintro n ⟨⟩, by rintro n ⟨⟩⟩, rfl⟩, by decide⟩
    | text => cases found

end Args

section Tables

variable (spelled : NativeType) (type : ColumnType) (small : SmallArgs spelled.args)

include small

theorem postgres_scalar (known : Postgres.scalarType? spelled = some type) : type.Scalar := by
  unfold Postgres.scalarType? at known
  split at known
  · split at known <;> cases known
    exact scalar_base _
  · split at known
    case h_1 => exact postgres_float_scalar _ _ known
    case h_2 | h_3 => exact postgres_decimal_scalar _ _ small known
    case h_4 | h_5 | h_6 => exact char_type_scalar _ _ small known
    case h_7 | h_8 => exact varchar_scalar _ _ small known
    case h_11 => cases known
    all_goals
      split at known <;> cases known
      exact scalar_base _

theorem mysql_scalar (known : MySql.scalarType? spelled = some type) : type.Scalar := by
  unfold MySql.scalarType? at known
  split at known
  case h_3 =>
    split at known
    case h_2 => exact mysql_float_scalar _ _ known
    case h_3 | h_4 | h_5 | h_6 => exact mysql_decimal_scalar _ _ small known
    case h_7 => exact char_type_scalar _ _ small known
    case h_8 | h_9 => exact sized_scalar _ _ small _ known
    case h_10 => cases known
    case h_1 =>
      split at known <;> cases known
      exact scalar_base _
  all_goals
    split at known <;> cases known
    exact scalar_base _

theorem spanner_scalar (known : Spanner.scalarType? spelled = some type) :
    type.Scalar ∧ type.base ≠ .time := by
  unfold Spanner.scalarType? at known
  split at known
  case h_1 base found =>
    split at known <;> cases known
    refine ⟨scalar_base base, ?_⟩
    rintro rfl
    unfold Spanner.plainBase? at found
    split at found <;> cases found
  case h_2 =>
    split at known
    case h_1 => exact string_scalar _ _ small known
    case h_2 => exact bytes_scalar _ _ small known
    case h_3 => cases known

end Tables

theorem narrow_dimension (depth : Nat) (scalar : ColumnType) (narrow : scalar.Narrow) :
    (if depth = 1 then { scalar with array := true } else scalar).Narrow := by
  split
  · exact ⟨narrow.length, narrow.precision, narrow.scale⟩
  · exact narrow

theorem spanner_native (type : ColumnType) (timeless : type.base ≠ .time) :
    ∃ native, Spanner.nativeType type = .ok native := by
  have scalar : ∃ native, Spanner.scalarNative? type = some native := by
    obtain ⟨base, length, precision, scale, array⟩ := type
    cases base with
    | time => exact absurd rfl timeless
    | char | varchar | bytes => rcases length with _ | n | _ <;> exact ⟨_, rfl⟩
    | _ => exact ⟨_, rfl⟩
  obtain ⟨native, found⟩ := scalar
  exact ⟨_, by rw [Spanner.nativeType, found]⟩

section Known

variable (spelled : NativeType) (type : ColumnType) (small : SmallArgs spelled.args)

include small

theorem postgres_known (known : Postgres.columnType spelled = .ok type) : type.Narrow := by
  unfold Postgres.columnType at known
  split at known
  · cases known
  · cases found : if spelled.unsigned then none else Postgres.scalarType? spelled with
    | none =>
        rw [found] at known
        cases known
    | some scalar =>
        rw [found] at known
        cases known
        split at found
        · cases found
        · exact narrow_dimension _ _ (postgres_scalar spelled _ small found).narrow

theorem mysql_known (known : MySql.columnType spelled = .ok type) : type.Scalar := by
  unfold MySql.columnType at known
  split at known
  · cases known
  · split at known
    · cases known
    · split at known
      case h_1 => cases known
      case h_2 scalar found =>
        cases known
        exact mysql_scalar spelled _ small found

theorem spanner_known (known : Spanner.columnType spelled = .ok type) :
    type.Narrow ∧ type.base ≠ .time := by
  unfold Spanner.columnType at known
  split at known
  · cases known
  · split at known
    · cases known
    · split at known
      case h_1 => cases known
      case h_2 scalar found =>
        cases known
        obtain ⟨scalar, timeless⟩ := spanner_scalar spelled _ small found
        refine ⟨narrow_dimension _ _ scalar.narrow, ?_⟩
        split <;> exact timeless

theorem known_type_written (dialect : Dialect) (known : dialect.columnType spelled = .ok type) :
    type.Narrow ∧ ∃ native, dialect.nativeType type = .ok native := by
  cases dialect with
  | postgres => exact ⟨postgres_known spelled type small known, _, rfl⟩
  | mysql =>
      have scalar := mysql_known spelled type small known
      refine ⟨scalar.narrow, MySql.scalarNative type, ?_⟩
      rw [Dialect.nativeType, MySql.nativeType, scalar.flat, if_neg Bool.false_ne_true]
  | spanner =>
      obtain ⟨narrow, timeless⟩ := spanner_known spelled type small known
      exact ⟨narrow, spanner_native type timeless⟩

end Known

theorem canonical_type_narrow (dialect : Dialect) (type read : ColumnType) (narrow : type.Narrow)
    (canonical : dialect.canonicalType type = .ok read) : read.Narrow := by
  obtain ⟨native, written, known⟩ := (bind_ok _ _ _).mp canonical
  obtain ⟨depth, -, writes⟩ := native_writes dialect type native narrow written
  refine (known_type_written native read (fun n member => ?_) dialect known).1
  exact writes.plain.args (.number n) member

theorem written_type_canonical (dialect : Dialect) (type : ColumnType) (native : NativeType)
    (narrow : type.Narrow) (written : dialect.nativeType type = .ok native) :
    ∃ read, dialect.canonicalType type = .ok read := by
  obtain ⟨depth, -, writes⟩ := native_writes dialect type native narrow written
  obtain ⟨read, known⟩ := writes.known
  exact ⟨read, (bind_ok _ _ _).mpr ⟨native, written, known⟩⟩

end SchemaDrift
