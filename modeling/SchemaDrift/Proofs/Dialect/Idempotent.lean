import SchemaDrift.Proofs.Dialect.Accepted
import SchemaDrift.Proofs.Expression.Default
import SchemaDrift.Proofs.Type.Canonical
/-!
A canonical image is its own canonical image: the types, the defaults and the folded constraints and
indexes are each fixed, and nothing in the image can be refused that was not refused before.
-/

set_option autoImplicit false

namespace SchemaDrift

theorem normalize_default_fixed (dialect : Dialect) (e : List Char) (default : String)
    (normal : dialect.normalizeDefault e = some default) :
    dialect.normalizeDefault default.toList = some default := by
  cases dialect with
  | postgres =>
      obtain ⟨s, normalized, rfl⟩ := Option.map_eq_some_iff.mp normal
      obtain ⟨stripped, again⟩ :=
        Default.strip_cast_normal s (Default.normalize_normal e s normalized)
      rw [String.toList_ofList, Dialect.normalizeDefault, Default.normal_fixed _ stripped,
        Option.map_some, again]
  | mysql | spanner =>
      obtain ⟨s, normalized, rfl⟩ := Option.map_eq_some_iff.mp normal
      have fixed := Default.normal_fixed s (Default.normalize_normal e s normalized)
      rw [String.toList_ofList, Dialect.normalizeDefault, fixed]
      · rfl
      · exact Dialect.noConfusion

theorem check_column_ok (dialect : Dialect) (c : Column) :
    dialect.checkColumn c = .ok () ↔ (c.autoIncrement = true → dialect.generates c.type = true) := by
  unfold Dialect.checkColumn
  split <;> simp_all

theorem canonical_column_fixed (dialect : Dialect) (c d : Column)
    (canonical : dialect.canonicalColumn c = .ok d) : dialect.canonicalColumn d = .ok d := by
  obtain ⟨checked, type, read, rfl⟩ := (canonical_column_ok dialect c d).mp canonical
  rw [check_column_ok] at checked
  refine (canonical_column_ok dialect _ _).mpr ⟨(check_column_ok dialect _).mpr fun generated => ?_,
    type, canonical_type_fixed dialect c.type type read, ?_⟩
  · exact generates_canonical dialect c.type type read (checked generated)
  · congr 1
    dsimp only
    cases found : c.default.bind fun e => dialect.normalizeDefault e.toList with
    | none => rfl
    | some default =>
        obtain ⟨e, _, normal⟩ := Option.bind_eq_some_iff.mp found
        exact (normalize_default_fixed dialect e.toList default normal).symm

theorem folded_constraints_fixed (dialect : Dialect) (t u : Table) (made : dialect.Image t u) :
    dialect.foldedConstraints u = u.constraints := by
  cases dialect with
  | postgres => rfl
  | mysql =>
      rw [Dialect.foldedConstraints, made.indexes, Dialect.foldedIndexes, List.filter_filter]
      simp
  | spanner =>
      rw [Dialect.foldedConstraints, made.constraints, Dialect.foldedConstraints, List.filter_filter]
      simp

theorem folded_indexes_fixed (dialect : Dialect) (t u : Table) (made : dialect.Image t u) :
    dialect.foldedIndexes u = u.indexes := by
  cases dialect with
  | postgres => rfl
  | mysql =>
      rw [Dialect.foldedIndexes, made.indexes, Dialect.foldedIndexes, List.filter_filter]
      simp
  | spanner =>
      rw [Dialect.foldedIndexes, made.constraints, Dialect.foldedConstraints, List.filter_filter]
      simp

theorem image_fixed (dialect : Dialect) (t u : Table) (made : dialect.Image t u) :
    dialect.Image u u := by
  refine ⟨rfl, rfl, rfl, rfl, List.forall₂_same.mpr fun d member => ?_,
    (folded_constraints_fixed dialect t u made).symm, (folded_indexes_fixed dialect t u made).symm⟩
  obtain ⟨c, _, canonical⟩ := partner_of_right _ _ _ made.columns d member
  exact canonical_column_fixed dialect c d canonical

theorem accepts_image (dialect : Dialect) (t u : Table) (made : dialect.Image t u)
    (accepts : dialect.Accepts t) : dialect.Accepts u := by
  refine ⟨?_, ?_⟩
  · rw [folded_indexes_fixed dialect t u made, made.indexes]
    exact accepts.distinct
  · rw [folded_constraints_fixed dialect t u made, made.constraints]
    exact accepts.allowed

theorem canonicalize_idempotent (dialect : Dialect) (schema image : Schema) (valid : schema.Validated)
    (canonical : dialect.canonicalize schema = .ok image) :
    dialect.canonicalize image = .ok image := by
  obtain ⟨pairs, accepts⟩ := (canonicalize_iff dialect schema image valid).mp canonical
  have imageValid := canonicalize_validated dialect schema image valid canonical
  refine (canonicalize_iff dialect image image imageValid).mpr
    ⟨List.forall₂_same.mpr fun u member => ?_, fun u member => ?_⟩
  · obtain ⟨t, _, made⟩ := partner_of_right _ _ _ pairs u member
    exact image_fixed dialect t u made
  · obtain ⟨t, among, made⟩ := partner_of_right _ _ _ pairs u member
    exact accepts_image dialect t u made (accepts t among)

-- Members with a type that is read back as another, a default to tidy up and a unique index to fold.
namespace Club

def member : TableDraft where
  name := "member"
  columns := [{ name := "id", type := { base := .bigInt }, autoIncrement := true },
    { name := "status", type := { base := .varchar }, default := some "( UPPER(  'New Member' ) )" }]
  primaryKeys := [.primaryKey ["id"]]
  indexes := [{ Index.ascending "by_status" ["status"] with unique := true }]

def schema : Schema := { tables := [member.toTable 0] }

def image : Schema where
  tables :=
    [{ name := "member"
       columns := [{ name := "id", type := { base := .bigInt }, autoIncrement := true },
         { name := "status", type := { base := .text }, default := some "upper('New Member')" }]
       primaryKey := some (.primaryKey ["id"])
       constraints := [(Constraint.unique ["status"]).named "by_status"]
       ordinal := 0 }]

end Club

theorem club_image_fixed : Club.schema.Validated ∧
    Dialect.mysql.canonicalize Club.schema = .ok Club.image ∧
    Dialect.mysql.canonicalize Club.image = .ok Club.image := by
  have valid : Club.schema.Validated := ⟨{ tables := [Club.member] }, by decide, rfl⟩
  have canonical : Dialect.mysql.canonicalize Club.schema = .ok Club.image := by decide +kernel
  exact ⟨valid, canonical, canonicalize_idempotent .mysql Club.schema Club.image valid canonical⟩

end SchemaDrift
