import SchemaDrift.Ddl.Document
import SchemaDrift.Proofs.Ddl.NativeType
/-!
Every column type that a dialect writes is read back as its canonical image, with nothing else said
about the column.
-/

set_option autoImplicit false

namespace SchemaDrift

open Grammar

theorem bare_column_read (dialect : Dialect) (text : List Char) (spelled : NativeType)
    (type : ColumnType) (solid : skipLayout text = text)
    (read : ReadsType dialect .dataType Ddl.nativeType text [] spelled)
    (known : dialect.columnType spelled = .ok type) :
    dialect.parseColumn text =
      .ok { type, autoIncrement := dialect.impliesAutoIncrement spelled } := by
  obtain ⟨left, children, leaves, given, lowered⟩ := read
  obtain rfl : left = [] := leaves.elim id fun skipped => skipped.trans skip_nothing
  rw [List.append_nil] at given lowered
  have no_clause : Gives .free _ _ _ := gives_end .columnClause rfl
  have ends : Gives .free _ _ _ := gives_rule .endOfInput gives_finish
  have clauses := gives_seq_solid [] skip_nothing given (gives_none no_clause)
  have started := gives_seq_solid _ solid gives_empty clauses
  have all := gives_seq_solid _ skip_nothing started ends
  have parsed := gives_parse .columnFragment _ (gives_rule .columnFragment all)
  rw [Dialect.parseColumn, Ddl.parse, parsed]
  refine (bind_ok _ _ _).mpr ⟨_, rfl, ?_⟩
  unfold Ddl.columnBody
  refine (bind_ok _ _ _).mpr ⟨some spelled, ?_, ?_⟩
  · show some <$> Ddl.nativeType dialect (.node .dataType text [] children) = _
    rw [lowered]
    rfl
  · refine (bind_ok _ _ _).mpr ⟨type, known, ?_⟩
    exact (bind_ok _ _ _).mpr ⟨[], rfl, rfl⟩

/-! ### The type tables -/

-- The numbers of the type have 32 bits, which is what the reader of a type argument takes.
structure ColumnType.Narrow (type : ColumnType) : Prop where
  length : ∀ n, type.length = some (.fixed n) → n < UInt32.size
  precision : ∀ n, type.precision = some n → n < UInt32.size
  scale : ∀ n, type.scale = some n → n < UInt32.size

-- What a dialect writes for a type, as an array of so many dimensions: it is read, stands for some
-- type, and does not make the database generate values.
structure Dialect.Writes (dialect : Dialect) (depth : Nat) (spelled : NativeType) : Prop where
  plain : spelled.Plain
  dimensions : spelled.arrayDepth = depth
  known : ∃ type, dialect.columnType spelled = .ok type
  given : dialect.impliesAutoIncrement spelled = false

theorem given_name (dialect : Dialect) (spelled : NativeType)
    (given : dialect.impliesAutoIncrement (.plain spelled.name) = false) :
    dialect.impliesAutoIncrement spelled = false := by
  cases dialect <;> exact given

section Written

variable (dialect : Dialect) (name : String) (named : isTypeName name = true)
  (given : dialect.impliesAutoIncrement (.plain name) = false)

include named given

theorem writes_plain (known : ∃ type, dialect.columnType (.plain name) = .ok type) :
    dialect.Writes 0 (.plain name) :=
  ⟨⟨named, List.forall_mem_nil _, rfl, rfl⟩, rfl, known, given⟩

theorem writes_arg (arg : TypeArg) (plain : arg.Plain)
    (known : ∃ type, dialect.columnType { name, args := [arg] } = .ok type) :
    dialect.Writes 0 { name, args := [arg] } :=
  ⟨⟨named, List.forall_mem_singleton.mpr plain, rfl, rfl⟩, rfl, known, given_name _ _ given⟩

theorem writes_decimal (type : ColumnType) (narrow : type.Narrow)
    (known : ∀ precision scale,
      ∃ type, dialect.columnType (.decimal name precision scale) = .ok type) :
    dialect.Writes 0 (.decimal name type.precision type.scale) := by
  obtain ⟨base, length, precision, scale, array⟩ := type
  cases precision with
  | none => exact writes_plain dialect name named given (known none scale)
  | some p =>
      have digits : (TypeArg.number p).Plain := narrow.precision p rfl
      cases scale with
      | none => exact writes_arg dialect name named given (.number p) digits (known (some p) none)
      | some s =>
          have places : (TypeArg.number s).Plain := narrow.scale s rfl
          have both := List.forall_mem_cons.mpr ⟨digits, List.forall_mem_singleton.mpr places⟩
          exact ⟨⟨named, both, rfl, rfl⟩, rfl, known (some p) (some s), given_name _ _ given⟩

end Written

theorem postgres_writes (type : ColumnType) (narrow : type.Narrow) :
    Dialect.postgres.Writes 0 (Postgres.scalarNative type) := by
  -- In each table only the types with a length, a precision or a scale are written in more than one
  -- way. The lengths are none, a number and the maximum, in this order.
  have decimal := writes_decimal .postgres "NUMERIC" rfl rfl type narrow fun precision scale => by
    cases precision <;> cases scale <;> exact ⟨_, rfl⟩
  obtain ⟨base, length, precision, scale, array⟩ := type
  cases base with
  | decimal => exact decimal
  | char =>
      rcases length with _ | n | _
      · exact writes_arg _ _ rfl rfl (.number 1) (by decide) ⟨_, rfl⟩
      · exact writes_arg _ _ rfl rfl (.number n) (narrow.length n rfl) ⟨_, rfl⟩
      · exact writes_plain _ _ rfl rfl ⟨_, rfl⟩
  | varchar =>
      rcases length with _ | n | _
      · exact writes_plain _ _ rfl rfl ⟨_, rfl⟩
      · exact writes_arg _ _ rfl rfl (.number n) (narrow.length n rfl) ⟨_, rfl⟩
      · exact writes_plain _ _ rfl rfl ⟨_, rfl⟩
  | _ => exact writes_plain _ _ rfl rfl ⟨_, rfl⟩

theorem mysql_writes (type : ColumnType) (narrow : type.Narrow) :
    Dialect.mysql.Writes 0 (MySql.scalarNative type) := by
  have decimal := writes_decimal .mysql "DECIMAL" rfl rfl type narrow fun precision scale => by
    cases precision <;> cases scale <;> exact ⟨_, rfl⟩
  obtain ⟨base, length, precision, scale, array⟩ := type
  cases base with
  | decimal => exact decimal
  | boolean => exact writes_arg _ _ rfl rfl (.number 1) (by decide) ⟨_, rfl⟩
  | uuid => exact writes_arg _ _ rfl rfl (.number 36) (by decide) ⟨_, rfl⟩
  | char =>
      rcases length with _ | n | _
      · exact writes_arg _ _ rfl rfl (.number 1) (by decide) ⟨_, rfl⟩
      · exact writes_arg _ _ rfl rfl (.number n) (narrow.length n rfl) ⟨_, rfl⟩
      · exact writes_plain _ _ rfl rfl ⟨_, rfl⟩
  | varchar | bytes =>
      rcases length with _ | n | _
      · exact writes_plain _ _ rfl rfl ⟨_, rfl⟩
      · exact writes_arg _ _ rfl rfl (.number n) (narrow.length n rfl) ⟨_, rfl⟩
      · exact writes_plain _ _ rfl rfl ⟨_, rfl⟩
  | _ => exact writes_plain _ _ rfl rfl ⟨_, rfl⟩

theorem spanner_writes (type : ColumnType) (spelled : NativeType) (narrow : type.Narrow)
    (written : Spanner.scalarNative? type = some spelled) :
    Dialect.spanner.Writes 0 spelled := by
  obtain ⟨base, length, precision, scale, array⟩ := type
  cases base with
  | time => cases written
  | char =>
      rcases length with _ | n | _ <;> cases written
      · exact writes_arg _ _ rfl rfl (.number 1) (by decide) ⟨_, rfl⟩
      · exact writes_arg _ _ rfl rfl (.number n) (narrow.length n rfl) ⟨_, rfl⟩
      · exact writes_arg _ _ rfl rfl .max trivial ⟨_, rfl⟩
  | varchar | bytes =>
      rcases length with _ | n | _ <;> cases written
      · exact writes_arg _ _ rfl rfl .max trivial ⟨_, rfl⟩
      · exact writes_arg _ _ rfl rfl (.number n) (narrow.length n rfl) ⟨_, rfl⟩
      · exact writes_arg _ _ rfl rfl .max trivial ⟨_, rfl⟩
  | text =>
      cases written
      exact writes_arg _ _ rfl rfl .max trivial ⟨_, rfl⟩
  | uuid =>
      cases written
      exact writes_arg _ _ rfl rfl (.number 36) (by decide) ⟨_, rfl⟩
  | _ =>
      cases written
      exact writes_plain _ _ rfl rfl ⟨_, rfl⟩

/-! ### Arrays -/

theorem postgres_array (spelled : NativeType) (writes : Dialect.postgres.Writes 0 spelled) :
    Dialect.postgres.Writes 1 spelled.array := by
  obtain ⟨⟨named, args_plain, zone, signed⟩, dimensions, ⟨type, read⟩, given⟩ := writes
  obtain ⟨name, args, _, _, _⟩ := spelled
  subst zone signed dimensions
  refine ⟨⟨named, args_plain, rfl, rfl⟩, rfl, ?_, given⟩
  cases found : Postgres.scalarType? { name, args } with
  | none => simp [Dialect.columnType, Postgres.columnType, found] at read
  | some element =>
      have same : Postgres.scalarType? { name, args, arrayDepth := 1 } = some element := found
      refine ⟨{ element with array := true }, ?_⟩
      simp [Dialect.columnType, Postgres.columnType, NativeType.array, same]

theorem spanner_array (spelled : NativeType) (writes : Dialect.spanner.Writes 0 spelled) :
    Dialect.spanner.Writes 1 spelled.array := by
  obtain ⟨⟨named, args_plain, zone, signed⟩, dimensions, ⟨type, read⟩, given⟩ := writes
  obtain ⟨name, args, _, _, _⟩ := spelled
  subst zone signed dimensions
  refine ⟨⟨named, args_plain, rfl, rfl⟩, rfl, ?_, given⟩
  cases found : Spanner.scalarType? { name, args } with
  | none => simp [Dialect.columnType, Spanner.columnType, found] at read
  | some element =>
      have same : Spanner.scalarType? { name, args, arrayDepth := 1 } = some element := found
      refine ⟨{ element with array := true }, ?_⟩
      simp [Dialect.columnType, Spanner.columnType, NativeType.array, same]

theorem native_writes (dialect : Dialect) (type : ColumnType) (spelled : NativeType)
    (narrow : type.Narrow) (written : dialect.nativeType type = .ok spelled) :
    ∃ depth, depth ≤ 1 ∧ dialect.Writes depth spelled := by
  cases dialect with
  | postgres =>
      have scalar := postgres_writes type narrow
      rw [Dialect.nativeType, Postgres.nativeType] at written
      cases written
      split
      case isTrue => exact ⟨1, le_refl 1, postgres_array _ scalar⟩
      case isFalse => exact ⟨0, Nat.zero_le 1, scalar⟩
  | mysql =>
      rw [Dialect.nativeType, MySql.nativeType] at written
      split at written
      case isTrue => cases written
      case isFalse =>
        cases written
        exact ⟨0, Nat.zero_le 1, mysql_writes type narrow⟩
  | spanner =>
      rw [Dialect.nativeType, Spanner.nativeType] at written
      split at written
      case h_1 => cases written
      case h_2 element found =>
        have scalar := spanner_writes type element narrow found
        cases written
        split
        case isTrue => exact ⟨1, le_refl 1, spanner_array _ scalar⟩
        case isFalse => exact ⟨0, Nat.zero_le 1, scalar⟩

/-! ### Reading what was written -/

theorem native_text_solid (dialect : Dialect) (spelled : NativeType) (plain : spelled.Plain) :
    Solid (dialect.nativeSql spelled).toList := by
  cases dialect with
  | postgres | mysql =>
      show Solid spelled.sql.toList
      rw [sql_text]
      exact solid_front _ _ (scalar_solid spelled plain)
  | spanner =>
      rw [Dialect.nativeSql, Spanner.typeSql]
      split
      case isTrue =>
        rw [String.toList_append, String.toList_append]
        exact ⟨'A', _, rfl, rfl⟩
      case isFalse => exact scalar_solid spelled plain

theorem native_text_followed (dialect : Dialect) (spelled : NativeType) (plain : spelled.Plain)
    (flat : spelled.arrayDepth ≤ 1) (rest : List Char) (ends : EndsType rest)
    (call : (skipLayout rest).head? ≠ some '(') (array : (skipLayout rest).head? ≠ some '[') :
    ReadsType dialect .dataType Ddl.nativeType (dialect.nativeSql spelled).toList rest spelled := by
  have bracketed := bracketed_type_read dialect spelled plain rest ends call array
  cases dialect with
  | postgres | mysql => exact bracketed
  | spanner =>
      rw [Dialect.nativeSql, Spanner.typeSql]
      split
      case isTrue => exact angled_type_read .spanner spelled plain rest (by omega)
      case isFalse scalar =>
        have none : spelled.arrayDepth = 0 := by omega
        rw [sql_text, none, brackets, List.replicate_zero, List.flatten_nil, List.append_nil]
          at bracketed
        exact bracketed

theorem native_text_read (dialect : Dialect) (depth : Nat) (spelled : NativeType) (flat : depth ≤ 1)
    (writes : dialect.Writes depth spelled) :
    ReadsType dialect .dataType Ddl.nativeType (dialect.nativeSql spelled).toList [] spelled := by
  exact native_text_followed dialect spelled writes.plain (writes.dimensions.symm ▸ flat) []
    (.inl rfl) (by simp [skip_nothing]) (by simp [skip_nothing])

theorem printed_type_read (dialect : Dialect) (type : ColumnType) (sql : String)
    (narrow : type.Narrow) (printed : dialect.typeSql type = .ok sql) :
    ∃ canonical, dialect.canonicalType type = .ok canonical ∧
      dialect.parseColumn sql.toList =
        .ok { type := canonical, nullable := true, default := none, autoIncrement := false,
              constraints := [] } := by
  cases written : dialect.nativeType type with
  | error reason =>
      rw [Dialect.typeSql, written] at printed
      cases printed
  | ok spelled =>
      rw [Dialect.typeSql, written] at printed
      cases printed
      obtain ⟨depth, flat, writes⟩ := native_writes dialect type spelled narrow written
      obtain ⟨canonical, known⟩ := writes.known
      refine ⟨canonical, ?_, ?_⟩
      · rw [Dialect.canonicalType, written]
        exact known
      · have read := bare_column_read dialect _ spelled canonical
          (solid_text _ (native_text_solid dialect spelled writes.plain))
          (native_text_read dialect depth spelled flat writes) known
        rw [writes.given] at read
        exact read

namespace Prices

def type : ColumnType := { ColumnType.decimal 10 2 with array := true }

theorem type_narrow : type.Narrow := by
  refine ⟨fun n length => ?_, fun n precision => ?_, fun n scale => ?_⟩
  · cases length
  · cases precision
    decide
  · cases scale
    decide

theorem type_printed : Dialect.postgres.typeSql type = .ok "NUMERIC(10, 2)[]" := by decide

end Prices

theorem prices_read_back : Prices.type.Narrow ∧
    Dialect.postgres.typeSql Prices.type = .ok "NUMERIC(10, 2)[]" ∧
    ∃ canonical, Dialect.postgres.canonicalType Prices.type = .ok canonical ∧
      Dialect.postgres.parseColumn "NUMERIC(10, 2)[]".toList =
        .ok { type := canonical, nullable := true, default := none, autoIncrement := false,
              constraints := [] } :=
  ⟨Prices.type_narrow, Prices.type_printed,
    printed_type_read .postgres Prices.type _ Prices.type_narrow Prices.type_printed⟩

end SchemaDrift
