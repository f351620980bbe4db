import SchemaDrift.Code.Annotation
import SchemaDrift.Proofs.Result
/-!
What the attributes of a field say. They are read one after another; here it is said key by key what
comes of them. The last one under a key counts, but a field that is excluded once stays excluded.
-/

set_option autoImplicit false

namespace SchemaDrift

structure AnnotationKeys.Distinct (keys : AnnotationKeys) : Prop where
  column_ddl : keys.column ≠ keys.ddl
  column_primary : keys.column ≠ keys.primaryKey
  ddl_primary : keys.ddl ≠ keys.primaryKey

theorem valid_keys_distinct (keys : AnnotationKeys) (valid : keys.validate = .ok ()) :
    keys.Distinct := by
  unfold AnnotationKeys.validate at valid
  split at valid
  · cases valid
  · split at valid
    · cases valid
    · rename_i distinct
      simp only [not_or] at distinct
      exact ⟨distinct.1, distinct.2.1, distinct.2.2⟩

namespace Code

def under (key : String) (attributes : List Attribute) : List AttributeBody :=
  (attributes.filter (·.name? = some key)).map Attribute.body

theorem under_empty (key : String) (attributes : List Attribute) :
    (under key attributes).isEmpty = !attributes.any (·.name? = some key) := by
  rw [Bool.eq_iff_iff]
  simp [under]

section Snoc

variable (key : String) (front : List Attribute) (last : Attribute)

theorem under_named (named : last.name? = some key) :
    under key (front ++ [last]) = under key front ++ [last.body] := by
  simp [under, named]

theorem under_other (other : last.name? ≠ some key) :
    under key (front ++ [last]) = under key front := by
  simp [under, other]

end Snoc

def AttributeBody.definition? : AttributeBody → Option Quoted
  | .text definition => some definition
  | _ => Option.none

namespace FieldAnnotations

structure Readable (keys : AnnotationKeys) (found : Attribute) : Prop where
  column : found.name? = some keys.column → (columnName? found.body).isSome = true
  flag : found.name? = some keys.primaryKey → (flag? found.body).isSome = true
  definition : found.name? = some keys.ddl → found.body.definition?.isSome = true

variable (keys : AnnotationKeys)

theorem foreign_readable (found : Attribute) (foreign : found.name?.any keys.has = false) :
    Readable keys found := by
  constructor <;> intro named <;> simp [named, AnnotationKeys.has] at foreign

def note? (found : Attribute) : Option (String × String) :=
  if found.name? = some keys.column then (columnName? found.body).map fun name => (keys.column, name)
  else if found.name? = some keys.primaryKey then
    (flag? found.body).map fun value => (keys.primaryKey, if value then "true" else "false")
  else if found.name? = some keys.ddl then
    found.body.definition?.map fun definition => (keys.ddl, definition.value)
  else none

def note (texts : List (String × String)) (pair : String × String) : List (String × String) :=
  insertText pair.1 pair.2 texts

section

variable (attributes : List Attribute)

def columnNames : List String := (under keys.column attributes).filterMap columnName?

def flags : List Bool := (under keys.primaryKey attributes).filterMap flag?

def definitions : List Quoted := (under keys.ddl attributes).filterMap AttributeBody.definition?

def summary : FieldAnnotations where
  column := ((columnNames keys attributes).filter (· ≠ "-")).getLast?
  excluded := "-" ∈ columnNames keys attributes
  inPrimaryKey := (flags keys attributes).getLast?.getD false
  definition := (definitions keys attributes).getLast?
  texts := (attributes.filterMap (note? keys)).foldl note []
  annotated := attributes.any fun found => found.name?.any keys.has

end

section Snoc

variable (front : List Attribute) (last : Attribute)

theorem column_summary (distinct : keys.Distinct) (named : last.name? = some keys.column)
    (name : String) (read : columnName? last.body = some name) :
    (summary keys front).addColumn keys.column name = summary keys (front ++ [last]) := by
  have flag : last.name? ≠ some keys.primaryKey := by simp [named, distinct.column_primary]
  have ddl : last.name? ≠ some keys.ddl := by simp [named, distinct.column_ddl]
  have names : columnNames keys (front ++ [last]) = columnNames keys front ++ [name] := by
    simp [columnNames, under_named _ _ _ named, read]
  have noted : note? keys last = some (keys.column, name) := by simp [note?, named, read]
  unfold addColumn
  split
  case isTrue dash =>
    simp [summary, names, flags, definitions, under_other _ _ _ flag, under_other _ _ _ ddl, noted,
      note, named, AnnotationKeys.has, dash]
  case isFalse dash =>
    have kept : ¬ ("-" = name) := fun same => dash same.symm
    simp [summary, names, flags, definitions, under_other _ _ _ flag, under_other _ _ _ ddl, noted,
      note, named, AnnotationKeys.has, dash, kept]

theorem key_summary (distinct : keys.Distinct) (named : last.name? = some keys.primaryKey)
    (value : Bool) (read : flag? last.body = some value) :
    (summary keys front).addKey keys.primaryKey value = summary keys (front ++ [last]) := by
  have column : last.name? ≠ some keys.column := by simp [named, distinct.column_primary.symm]
  have ddl : last.name? ≠ some keys.ddl := by simp [named, distinct.ddl_primary.symm]
  have read : flags keys (front ++ [last]) = flags keys front ++ [value] ∧
      note? keys last = some (keys.primaryKey, if value then "true" else "false") := by
    simp [flags, under_named _ _ _ named, read, note?, named, distinct.column_primary.symm]
  simp [addKey, summary, columnNames, definitions, under_other _ _ _ column, under_other _ _ _ ddl,
    read, note, named, AnnotationKeys.has]

theorem definition_summary (distinct : keys.Distinct) (named : last.name? = some keys.ddl)
    (definition : Quoted) (read : last.body.definition? = some definition) :
    (summary keys front).addDefinition keys.ddl definition = summary keys (front ++ [last]) := by
  have column : last.name? ≠ some keys.column := by simp [named, distinct.column_ddl.symm]
  have flag : last.name? ≠ some keys.primaryKey := by simp [named, distinct.ddl_primary]
  have read : definitions keys (front ++ [last]) = definitions keys front ++ [definition] ∧
      note? keys last = some (keys.ddl, definition.value) := by
    simp [definitions, under_named _ _ _ named, read, note?, named, distinct.column_ddl.symm,
      distinct.ddl_primary]
  simp [addDefinition, summary, columnNames, flags, under_other _ _ _ column,
    under_other _ _ _ flag, read, note, named, AnnotationKeys.has]

theorem foreign_summary (column : last.name? ≠ some keys.column)
    (flag : last.name? ≠ some keys.primaryKey) (ddl : last.name? ≠ some keys.ddl) :
    summary keys front = summary keys (front ++ [last]) := by
  have foreign : last.name?.any keys.has = false := by
    cases named : last.name? with
    | none => rfl
    | some name => simp_all [AnnotationKeys.has]
  simp [summary, columnNames, flags, definitions, under_other _ _ _ column,
    under_other _ _ _ flag, under_other _ _ _ ddl, note?, column, flag, ddl, foreign]

end Snoc

theorem add_attribute_iff (distinct : keys.Distinct) (front : List Attribute) (last : Attribute)
    (next : FieldAnnotations) :
    addAttribute keys (summary keys front) last = .ok next ↔
      Readable keys last ∧ next = summary keys (front ++ [last]) := by
  by_cases column : last.name? = some keys.column
  · have flag : last.name? ≠ some keys.primaryKey := by simp [column, distinct.column_primary]
    have ddl : last.name? ≠ some keys.ddl := by simp [column, distinct.column_ddl]
    rw [addAttribute, if_pos column]
    cases read : columnName? last.body with
    | none =>
        have unread : ¬ Readable keys last := fun fine => by simpa [read] using fine.column column
        simp [unread]
    | some name =>
        have fine : Readable keys last := ⟨fun _ => by simp [read], (absurd · flag), (absurd · ddl)⟩
        simp only [column_summary keys front last distinct column name read, fine, true_and,
          Except.ok.injEq]
        exact eq_comm
  by_cases flag : last.name? = some keys.primaryKey
  · have ddl : last.name? ≠ some keys.ddl := by simp [flag, distinct.ddl_primary.symm]
    rw [addAttribute, if_neg column, if_pos flag]
    cases read : flag? last.body with
    | none =>
        have unread : ¬ Readable keys last := fun fine => by simpa [read] using fine.flag flag
        simp [unread]
    | some value =>
        have fine : Readable keys last :=
          ⟨(absurd · column), fun _ => by simp [read], (absurd · ddl)⟩
        simp only [key_summary keys front last distinct flag value read, fine, true_and,
          Except.ok.injEq]
        exact eq_comm
  by_cases ddl : last.name? = some keys.ddl
  · rw [addAttribute, if_neg column, if_neg flag, if_pos ddl]
    have fine_iff : Readable keys last ↔ last.body.definition?.isSome = true :=
      ⟨fun fine => fine.definition ddl,
        fun read => ⟨(absurd · column), (absurd · flag), fun _ => read⟩⟩
    have added := definition_summary keys front last distinct ddl
    cases body : last.body with
    | text definition =>
        simp only [added definition (by simp [body, AttributeBody.definition?]), fine_iff, body,
          AttributeBody.definition?, Option.isSome_some, true_and, Except.ok.injEq]
        exact eq_comm
    | _ => simp [fine_iff, body, AttributeBody.definition?]
  · have fine : Readable keys last := ⟨(absurd · column), (absurd · flag), (absurd · ddl)⟩
    rw [addAttribute, if_neg column, if_neg flag, if_neg ddl]
    simp only [foreign_summary keys front last column flag ddl, fine, true_and, Except.ok.injEq]
    exact eq_comm

theorem annotations_iff (distinct : keys.Distinct) (attributes : List Attribute)
    (annotations : FieldAnnotations) :
    ofAttributes keys attributes = .ok annotations ↔
      (∀ found ∈ attributes, Readable keys found) ∧ annotations = summary keys attributes := by
  induction attributes using List.reverseRecOn generalizing annotations with
  | nil =>
      refine ⟨fun read => ⟨List.forall_mem_nil _, ?_⟩, fun both => ?_⟩
      · cases read
        rfl
      · rw [both.2]
        rfl
  | append_singleton front last ih =>
      rw [ofAttributes, fold_m_snoc_ok, List.forall_mem_append]
      constructor
      · rintro ⟨before, read, added⟩
        obtain ⟨fine, rfl⟩ := (ih before).mp read
        obtain ⟨readable, same⟩ := (add_attribute_iff keys distinct front last annotations).mp added
        exact ⟨⟨fine, by simpa using readable⟩, same⟩
      · rintro ⟨⟨fine, readable⟩, same⟩
        have added := (add_attribute_iff keys distinct front last annotations).mpr
          ⟨by simpa using readable, same⟩
        exact ⟨_, (ih _).mpr ⟨fine, rfl⟩, added⟩

end FieldAnnotations

end Code

end SchemaDrift
