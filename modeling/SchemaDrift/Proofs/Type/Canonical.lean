import SchemaDrift.Dialect.Canonical
import SchemaDrift.Proofs.Result
/-!
Each type table is a retraction: the type that is read back after writing a type is read back as it
is, and it is generated by the database where the type was.
-/

set_option autoImplicit false

namespace SchemaDrift

theorem postgres_type_again (type : ColumnType) :
    (Dialect.postgres.canonicalType type >>= Dialect.postgres.canonicalType)
      = Dialect.postgres.canonicalType type := by
  obtain ⟨base, length, precision, scale, array⟩ := type
  cases array <;> cases base with
  | decimal => cases precision <;> cases scale <;> rfl
  | char | varchar =>
      cases length with
      | none => rfl
      | some bound => cases bound <;> rfl
  | _ => rfl

theorem mysql_type_again (type : ColumnType) :
    (Dialect.mysql.canonicalType type >>= Dialect.mysql.canonicalType)
      = Dialect.mysql.canonicalType type := by
  obtain ⟨base, length, precision, scale, array⟩ := type
  cases array with
  | true => rfl
  | false =>
      cases base with
      | decimal => cases precision <;> cases scale <;> rfl
      | char | varchar | bytes =>
          cases length with
          | none => rfl
          | some bound => cases bound <;> rfl
      | _ => rfl

theorem spanner_type_again (type : ColumnType) :
    (Dialect.spanner.canonicalType type >>= Dialect.spanner.canonicalType)
      = Dialect.spanner.canonicalType type := by
  obtain ⟨base, length, precision, scale, array⟩ := type
  cases array <;> cases base with
  | char | varchar | bytes =>
      cases length with
      | none => rfl
      | some bound => cases bound <;> rfl
  | _ => rfl

theorem canonical_type_fixed (dialect : Dialect) (type read : ColumnType)
    (canonical : dialect.canonicalType type = .ok read) : dialect.canonicalType read = .ok read := by
  have again : (dialect.canonicalType type >>= dialect.canonicalType)
      = dialect.canonicalType type := by
    cases dialect with
    | postgres => exact postgres_type_again type
    | mysql => exact mysql_type_again type
    | spanner => exact spanner_type_again type
  rw [canonical] at again
  exact again

-- Values are only generated for plain integers, whose type is kept but for its arguments.
theorem generated_type (dialect : Dialect) (type : ColumnType)
    (generated : dialect.generates type = true) :
    dialect.canonicalType type = .ok { base := type.base } ∧
      dialect.generates { base := type.base } = true := by
  obtain ⟨base, length, precision, scale, array⟩ := type
  cases dialect with
  | spanner => cases generated
  | postgres | mysql =>
      cases array <;> cases base <;>
        first | exact ⟨rfl, rfl⟩ | exact absurd generated Bool.false_ne_true

theorem generates_canonical (dialect : Dialect) (type read : ColumnType)
    (canonical : dialect.canonicalType type = .ok read) (generated : dialect.generates type = true) :
    dialect.generates read = true := by
  obtain ⟨plain, still⟩ := generated_type dialect type generated
  rw [plain] at canonical
  cases canonical
  exact still

end SchemaDrift
