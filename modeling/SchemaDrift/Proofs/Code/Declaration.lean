import SchemaDrift.Code.Table
import SchemaDrift.Proofs.Code.Setting
/-!
The table of one declaration. `Struct.Extracts` says which draft comes of a struct, from what stands
in its attributes and in those of its fields; it knows of no order in which they are read, and of no
positions. What the program reads is proved to be just that.
-/

set_option autoImplicit false

namespace SchemaDrift.Code

open TableSettings (values)

/-! ### What is extracted -/

namespace Field

variable (keys : AnnotationKeys) (field : Field)

def annotations : FieldAnnotations := .summary keys field.attributes

def kept : Bool := !(field.annotations keys).excluded

def flagged : Bool := (field.annotations keys).inPrimaryKey

-- The last name under the key for columns, or else that of the field.
def columnName : String := (field.annotations keys).column.getD (plainName field.name)

def definition? : Option String := (field.annotations keys).definition.map Quoted.value

def Names (fields : List Field) (name column : String) : Prop :=
  ∃ field, (fields.filter (kept keys)).find? (fun f => plainName f.name = name) = some field ∧
    field.columnName keys = column

inductive Key (fields : List Field) : Option (List String) → List String → Prop
  | flagged : Key fields none ((fields.filter (flagged keys)).map (columnName keys))
  | listed (names columns : List String) (unflagged : ∀ field ∈ fields, field.flagged keys = false)
      (named : List.Forall₂ (Names keys fields) names columns) : Key fields (some names) columns

-- The column of a field, by the definition that an annotation gives or else by the type.
inductive Gives (dialect : Dialect) : Column → Prop
  | defined (text : String) (fragment : ColumnFragment)
      (last : field.definition? keys = some text)
      (read : dialect.parseColumn text.toList = .ok fragment)
      (plain : fragment.constraints = []) :
      Gives dialect
        { name := field.columnName keys
          type := fragment.type
          nullable := fragment.nullable
          default := fragment.default
          autoIncrement := fragment.autoIncrement
          annotations := (field.annotations keys).texts
          rawDefinition := some (String.ofList (Text.trim text.toList)) }
  | typed (type : ColumnType) (nullable : Bool) (bare : field.definition? keys = none)
      (mapped : field.type.column? = some (type, nullable)) :
      Gives dialect
        { name := field.columnName keys
          type
          nullable
          annotations := (field.annotations keys).texts }

end Field

namespace Struct

variable (keys : AnnotationKeys) (dialect : Dialect) (struct : Struct)

-- The draft of a struct with these fields and entries. Primary keys among the constraints come after
-- the one of the fields.
inductive Makes (fields : List Field) (entries : List Entry) : TableDraft → Prop
  | made (columns : List Column) (key : List String) (indexes : List Index)
      (fragments : List Constraint)
      (given : List.Forall₂ (Field.Gives keys · dialect ·) (fields.filter (Field.kept keys)) columns)
      (flagged_kept : ∀ field ∈ fields, field.flagged keys = true → field.kept keys = true)
      (found : Field.Key keys fields (TableSettings.ofEntries entries).primaryKey key)
      (indexed : List.Forall₂ (fun text index => dialect.parseIndex text.toList =
        .ok (Origin.tableName struct (.ofEntries entries), index)) (values "index" entries) indexes)
      (distinct : (indexes.map Index.name).Nodup)
      (constrained : List.Forall₂
        (fun text fragment => dialect.parseConstraint text.toList = .ok fragment)
        (values "constraint" entries) fragments) :
      Makes fields entries
        { name := Origin.tableName struct (.ofEntries entries)
          columns
          primaryKeys := (if key = [] then [] else [{ columns := key, kind := .primaryKey }])
            ++ fragments.filter (·.isPrimaryKey)
          indexes
          constraints := fragments.filter (!·.isPrimaryKey) }

def Extracts (draft : TableDraft) : Prop :=
  ∃ fields entries, struct.fields? = some fields ∧
    (∀ field ∈ fields, ∀ found ∈ field.attributes, FieldAnnotations.Readable keys found) ∧
    TableSettings.Lists keys struct.attributes entries ∧ struct.Makes keys dialect fields entries draft

-- A struct is a declaration if it carries the key for definitions or if a named field carries any key.
def declares : Bool :=
  struct.attributes.any (·.name? = some keys.ddl) ||
    (struct.fields?.getD []).any fun field => field.attributes.any fun found => found.name?.any keys.has

end Struct

/-! ### What is read -/

namespace Origin

variable (origin : Origin)

def annotated (field : Field) : AnnotatedField := ⟨field, field.annotations origin.keys⟩

@[simp]
theorem annotated_column_name (field : Field) :
    (origin.annotated field).columnName = field.columnName origin.keys := rfl

theorem column_iff (declaration : String) (field : Field) (column : Column) :
    origin.column declaration (origin.annotated field) = .ok column ↔
      field.Gives origin.keys origin.dialect column := by
  constructor
  · intro made
    unfold Origin.column at made
    split at made
    · rename_i definition found
      obtain ⟨fragment, read, made⟩ := (bind_ok _ _ _).mp made
      split at made
      · cases made
      · rename_i plain
        cases made
        exact .defined definition.value fragment (congrArg (Option.map Quoted.value) found)
          ((map_error_ok _ _ _).mp read) (not_not.mp plain)
    · rename_i bare
      split at made
      · rename_i type nullable mapped
        cases made
        exact .typed type nullable (congrArg (Option.map Quoted.value) bare) mapped
      · cases made
  · intro gives
    cases gives with
    | defined text fragment last read plain =>
        obtain ⟨definition, found, rfl⟩ := Option.map_eq_some_iff.mp last
        have found : (origin.annotated field).annotations.definition = some definition := found
        simp only [Origin.column, found, definedColumn, read]
        refine (bind_ok _ _ _).mpr ⟨fragment, rfl, ?_⟩
        rw [if_neg (by simpa using plain)]
        rfl
    | typed type nullable bare mapped =>
        have bare : (origin.annotated field).annotations.definition = none :=
          Option.map_eq_none_iff.mp bare
        have mapped : (origin.annotated field).field.type.column? = some (type, nullable) := mapped
        simp only [Origin.column, bare, mapped]
        rfl

theorem gives_name (field : Field) (column : Column)
    (gives : field.Gives origin.keys origin.dialect column) :
    column.name = field.columnName origin.keys := by
  cases gives <;> rfl

theorem columns_iff (declaration : String) (fields : List Field) (columns : List Column)
    (key : List String) :
    origin.columns declaration (fields.map origin.annotated) = .ok (columns, key) ↔
      List.Forall₂ (Field.Gives origin.keys · origin.dialect ·)
        (fields.filter (Field.kept origin.keys)) columns ∧
      (∀ field ∈ fields, field.flagged origin.keys = true → field.kept origin.keys = true) ∧
      key = (fields.filter (Field.flagged origin.keys)).map (Field.columnName origin.keys) := by
  induction fields generalizing columns key with
  | nil =>
      simp only [List.map_nil, Origin.columns, List.filter_nil, List.forall₂_nil_left_iff,
        Except.ok.injEq, Prod.mk.injEq]
      grind
  | cons field fields ih =>
      have excluded : (origin.annotated field).annotations.excluded = !field.kept origin.keys := by
        simp [Field.kept, annotated]
      have flagged : (origin.annotated field).annotations.inPrimaryKey = field.flagged origin.keys :=
        rfl
      rw [List.map_cons, Origin.columns, excluded, flagged, List.forall_mem_cons]
      cases kept : field.kept origin.keys with
      | false =>
          cases inKey : field.flagged origin.keys with
          | false => simpa [kept, inKey] using ih columns key
          | true => simp
      | true =>
          simp only [kept, Bool.not_true, Bool.false_eq_true, if_false, List.filter_cons_of_pos,
            implies_true, true_and, List.forall₂_cons_left_iff]
          constructor
          · intro run
            obtain ⟨column, made, run⟩ := (bind_ok _ _ _).mp run
            obtain ⟨⟨others, names⟩, rest, run⟩ := (bind_ok _ _ _).mp run
            obtain ⟨given, fine, rfl⟩ := (ih others names).mp rest
            have gives := (column_iff origin declaration field column).mp made
            cases run
            refine ⟨⟨column, others, gives, given, rfl⟩, fine, ?_⟩
            have name := gives_name origin field column gives
            cases inKey : field.flagged origin.keys <;> simp [inKey, name]
          · rintro ⟨⟨column, others, gives, given, rfl⟩, fine, rfl⟩
            refine (bind_ok _ _ _).mpr ⟨column, (column_iff origin _ field column).mpr gives, ?_⟩
            refine (bind_ok _ _ _).mpr ⟨_, (ih others _).mpr ⟨given, fine, rfl⟩, ?_⟩
            have name := gives_name origin field column gives
            cases inKey : field.flagged origin.keys <;> simp [inKey, name]

/-! ### The primary key -/

theorem key_column_iff (struct : Struct) (fields : List Field) (name column : String) :
    origin.keyColumn struct (fields.map origin.annotated) name = .ok column ↔
      Field.Names origin.keys fields name column := by
  have found : (fields.map origin.annotated).find?
        (fun field => field.name = name && !field.annotations.excluded) =
      ((fields.filter (Field.kept origin.keys)).find? (fun f => plainName f.name = name)).map
        origin.annotated := by
    rw [List.find?_map, List.find?_filter]
    congr 2
    funext field
    rw [Bool.decide_and, Bool.decide_eq_true, Bool.decide_eq_true]
    exact Bool.and_comm _ _
  rw [keyColumn, found, Field.Names]
  cases (fields.filter (Field.kept origin.keys)).find? (fun f => plainName f.name = name) with
  | none => simp
  | some field => simp

theorem primary_key_iff (struct : Struct) (fields : List Field) (settings : TableSettings)
    (key : List String) :
    origin.primaryKey struct (fields.map origin.annotated) settings
        ((fields.filter (Field.flagged origin.keys)).map (Field.columnName origin.keys)) = .ok key ↔
      Field.Key origin.keys fields settings.primaryKey key := by
  rw [primaryKey]
  cases settings.primaryKey with
  | none =>
      constructor
      · intro same
        cases same
        exact .flagged
      · intro found
        cases found
        rfl
  | some names =>
      have named : names.mapM (origin.keyColumn struct (fields.map origin.annotated)) = .ok key ↔
          List.Forall₂ (Field.Names origin.keys fields) names key := by
        simp only [map_m_ok, key_column_iff]
      have none_flagged : (fields.filter (Field.flagged origin.keys)).map
          (Field.columnName origin.keys) = [] ↔ ∀ f ∈ fields, f.flagged origin.keys = false := by
        simp
      dsimp only
      split
      · rename_i twice
        constructor
        · intro failed
          cases failed
        · intro found
          cases found with
          | listed _ _ unflagged _ => exact absurd (none_flagged.mpr unflagged) twice
      · rename_i once
        rw [named]
        constructor
        · exact .listed names key (none_flagged.mp (not_not.mp once))
        · intro found
          cases found with
          | listed _ _ _ each => exact each

/-! ### Indexes and constraints -/

theorem add_index_iff (declaration : String) (draft next : TableDraft) (statement : Quoted) :
    origin.addIndex declaration draft statement = .ok next ↔ ∃ index,
      origin.dialect.parseIndex statement.value.toList = .ok (draft.name, index) ∧
      draft.hasIndex index.name = false ∧ next = draft.addIndex index := by
  constructor
  · intro added
    obtain ⟨⟨target, index⟩, read, added⟩ := (bind_ok _ _ _).mp added
    dsimp only at added
    split at added
    · cases added
    · rename_i here
      split at added
      · cases added
      · rename_i fresh
        cases added
        rw [not_not.mp here] at read
        exact ⟨index, (map_error_ok _ _ _).mp read, by simpa using fresh, rfl⟩
  · rintro ⟨index, read, fresh, rfl⟩
    refine (bind_ok _ _ _).mpr ⟨_, (map_error_ok _ _ _).mpr read, ?_⟩
    simp [fresh]

theorem indexes_iff (declaration : String) (statements : List Quoted) (draft result : TableDraft)
    (distinct : (draft.indexes.map Index.name).Nodup) :
    statements.foldlM (origin.addIndex declaration) draft = .ok result ↔ ∃ indexes,
      List.Forall₂ (fun text index => origin.dialect.parseIndex text.toList = .ok (draft.name, index))
        (statements.map Quoted.value) indexes ∧
      ((draft.indexes ++ indexes).map Index.name).Nodup ∧
      result = { draft with indexes := draft.indexes ++ indexes } := by
  induction statements generalizing draft with
  | nil =>
      simp only [List.foldlM_nil, List.map_nil, List.forall₂_nil_left_iff]
      constructor
      · intro same
        cases same
        exact ⟨[], rfl, by simpa using distinct, by simp⟩
      · rintro ⟨_, rfl, -, rfl⟩
        simp
        rfl
  | cons statement statements ih =>
      have fresh_iff (index : Index) : draft.hasIndex index.name = false ↔
          ((draft.addIndex index).indexes.map Index.name).Nodup := by
        simp [TableDraft.hasIndex, TableDraft.addIndex, List.nodup_append, distinct]
      have moved (index : Index) (indexes : List Index) :
          draft.indexes ++ index :: indexes = (draft.addIndex index).indexes ++ indexes := by
        simp [TableDraft.addIndex]
      rw [List.foldlM_cons, bind_ok, List.map_cons]
      constructor
      · rintro ⟨next, added, run⟩
        obtain ⟨index, read, fresh, rfl⟩ := (add_index_iff origin _ _ _ _).mp added
        obtain ⟨indexes, each, distinct, rfl⟩ := (ih _ ((fresh_iff index).mp fresh)).mp run
        exact ⟨index :: indexes, .cons read each, moved index indexes ▸ distinct,
          by rw [moved]; rfl⟩
      · rintro ⟨_, all, distinct, rfl⟩
        obtain ⟨index, indexes, read, each, rfl⟩ := List.forall₂_cons_left_iff.mp all
        rw [moved] at distinct
        have fresh : ((draft.addIndex index).indexes.map Index.name).Nodup := by
          rw [List.map_append] at distinct
          exact distinct.of_append_left
        exact ⟨draft.addIndex index,
          (add_index_iff origin _ _ _ _).mpr ⟨index, read, (fresh_iff index).mpr fresh, rfl⟩,
          (ih _ fresh).mpr ⟨indexes, each, distinct, by rw [moved]; rfl⟩⟩

theorem constraints_iff (declaration : String) (fragments : List Quoted)
    (draft result : TableDraft) :
    fragments.foldlM (origin.addConstraint declaration) draft = .ok result ↔ ∃ constraints,
      List.Forall₂ (fun text constraint =>
        origin.dialect.parseConstraint text.toList = .ok constraint)
        (fragments.map Quoted.value) constraints ∧
      result = draft.addConstraints constraints := by
  induction fragments generalizing draft with
  | nil =>
      simp only [List.foldlM_nil, List.map_nil, List.forall₂_nil_left_iff, exists_eq_left]
      exact ⟨fun same => (Except.ok.inj same).symm, fun same => by rw [same]; rfl⟩
  | cons fragment fragments ih =>
      rw [List.foldlM_cons, bind_ok, List.map_cons]
      constructor
      · rintro ⟨next, added, run⟩
        obtain ⟨constraint, read, added⟩ := (bind_ok _ _ _).mp added
        cases added
        obtain ⟨constraints, others, rfl⟩ := (ih _).mp run
        exact ⟨constraint :: constraints, .cons ((map_error_ok _ _ _).mp read) others, rfl⟩
      · rintro ⟨_, all, rfl⟩
        obtain ⟨constraint, constraints, read, others, rfl⟩ := List.forall₂_cons_left_iff.mp all
        exact ⟨draft.addConstraint constraint,
          (bind_ok _ _ _).mpr ⟨constraint, (map_error_ok _ _ _).mpr read, rfl⟩,
          (ih _).mpr ⟨constraints, others, rfl⟩⟩

theorem add_constraints_sorted (draft : TableDraft) (constraints : List Constraint) :
    draft.addConstraints constraints =
      { draft with
        primaryKeys := draft.primaryKeys ++ constraints.filter (·.isPrimaryKey)
        constraints := draft.constraints ++ constraints.filter (!·.isPrimaryKey) } := by
  induction constraints generalizing draft with
  | nil => simp [TableDraft.addConstraints]
  | cons constraint constraints ih =>
      rw [TableDraft.addConstraints, List.foldl_cons]
      refine (ih _).trans ?_
      cases key : constraint.isPrimaryKey <;> simp [TableDraft.addConstraint, key]

/-! ### The table -/

theorem keyed_draft (name : String) (columns : List Column) (key : List String) :
    (if key = [] then { name, columns }
      else ({ name, columns } : TableDraft).addConstraint { columns := key, kind := .primaryKey }) =
      { name, columns
        primaryKeys := if key = [] then [] else [{ columns := key, kind := .primaryKey }] } := by
  split
  · rfl
  · simp [TableDraft.addConstraint, Constraint.isPrimaryKey]

theorem declared_table_iff (struct : Struct) (fields : List Field) (entries : List Entry)
    (draft : TableDraft) :
    origin.declaredTable struct (.ofEntries entries) (fields.map origin.annotated) = .ok draft ↔
      struct.Makes origin.keys origin.dialect fields entries draft := by
  constructor
  · intro declared
    obtain ⟨⟨columns, flagged⟩, gathered, declared⟩ := (bind_ok _ _ _).mp declared
    obtain ⟨given, fine, rfl⟩ := (columns_iff origin _ fields columns flagged).mp gathered
    obtain ⟨key, found, declared⟩ := (bind_ok _ _ _).mp declared
    have found := (primary_key_iff origin struct fields _ key).mp found
    obtain ⟨_, indexed, constrained⟩ := (bind_ok _ _ _).mp declared
    rw [keyed_draft] at indexed
    obtain ⟨indexes, read, distinct, rfl⟩ :=
      (indexes_iff origin _ _ _ _ (by exact List.nodup_nil)).mp indexed
    obtain ⟨fragments, each, rfl⟩ := (constraints_iff origin _ _ _ _).mp constrained
    rw [add_constraints_sorted]
    exact .made columns key indexes fragments given fine found read distinct each
  · intro makes
    cases makes with
    | made columns key indexes fragments given fine found indexed distinct constrained =>
        refine (bind_ok _ _ _).mpr
          ⟨_, (columns_iff origin _ fields columns _).mpr ⟨given, fine, rfl⟩, ?_⟩
        refine (bind_ok _ _ _).mpr ⟨key, (primary_key_iff origin struct fields _ key).mpr found, ?_⟩
        dsimp only
        rw [keyed_draft]
        refine (bind_ok _ _ _).mpr ⟨_, (indexes_iff origin _ _ _ _ (by exact List.nodup_nil)).mpr
          ⟨indexes, indexed, distinct, rfl⟩, ?_⟩
        refine (constraints_iff origin _ _ _ _).mpr ⟨fragments, constrained, ?_⟩
        rw [add_constraints_sorted]
        rfl

theorem annotated_fields_iff (distinct : origin.keys.Distinct) (declaration : String)
    (fields : List Field) (found : List AnnotatedField) :
    fields.mapM (origin.annotatedField declaration) = .ok found ↔
      (∀ field ∈ fields, ∀ a ∈ field.attributes, FieldAnnotations.Readable origin.keys a) ∧
      fields.map origin.annotated = found := by
  have single (field : Field) (result : AnnotatedField) :
      origin.annotatedField declaration field = .ok result ↔
        (∀ a ∈ field.attributes, FieldAnnotations.Readable origin.keys a) ∧
        origin.annotated field = result := by
    refine (bind_ok _ _ _).trans ?_
    simp only [map_error_ok, FieldAnnotations.annotations_iff origin.keys distinct]
    constructor
    · rintro ⟨_, ⟨fine, rfl⟩, same⟩
      exact ⟨fine, Except.ok.inj same⟩
    · rintro ⟨fine, rfl⟩
      exact ⟨_, ⟨fine, rfl⟩, rfl⟩
  rw [map_m_ok]
  simp only [single]
  rw [List.forall₂_and_left, ← List.forall₂_map_left_iff, List.forall₂_eq_eq_eq]

theorem any_annotated (fields : List Field) :
    (fields.map origin.annotated).any (·.annotations.annotated) =
      fields.any fun field => field.attributes.any fun a => a.name?.any origin.keys.has := by
  rw [List.any_map]
  rfl

theorem other_without_table (distinct : origin.keys.Distinct) (struct : Struct)
    (other : struct.declares origin.keys = false) : origin.table? struct = .ok none := by
  obtain ⟨unset, unmarked⟩ := Bool.or_eq_false_iff.mp other
  have empty : (under origin.keys.ddl struct.attributes).isEmpty = true := by
    rw [under_empty, unset]
    rfl
  have lists : TableSettings.Lists origin.keys struct.attributes [] := by
    refine ⟨⟨[], ?_, rfl⟩, List.forall_mem_nil _⟩
    rw [List.isEmpty_iff.mp empty]
    exact .nil
  have settings := (TableSettings.settings_iff origin.keys struct.attributes none).mpr
    ⟨[], lists, by rw [if_pos empty]⟩
  refine (bind_ok _ _ _).mpr ⟨none, (map_error_ok _ _ _).mpr settings, ?_⟩
  cases named : struct.fields? with
  | none => rfl
  | some fields =>
      rw [named, Option.getD_some, ← any_annotated] at unmarked
      have fine : ∀ field ∈ fields, ∀ a ∈ field.attributes,
          FieldAnnotations.Readable origin.keys a := by
        intro field member a among
        rw [any_annotated] at unmarked
        have foreign := List.any_eq_false.mp unmarked field member
        exact FieldAnnotations.foreign_readable _ a
          (Bool.eq_false_iff.mpr (List.any_eq_false.mp (Bool.eq_false_iff.mpr foreign) a among))
      refine (bind_ok _ _ _).mpr ⟨_, (annotated_fields_iff origin distinct _ _ _).mpr ⟨fine, rfl⟩, ?_⟩
      rw [unmarked]
      rfl

theorem table_iff (distinct : origin.keys.Distinct) (struct : Struct)
    (declares : struct.declares origin.keys = true) (result : Option TableDraft) :
    origin.table? struct = .ok result ↔
      ∃ draft, struct.Extracts origin.keys origin.dialect draft ∧ result = some draft := by
  have declared (entries : List Entry) (fields : List Field)
      (lists : TableSettings.Lists origin.keys struct.attributes entries)
      (named : struct.fields? = some fields) (settings : Option TableSettings)
      (set : settings = if (under origin.keys.ddl struct.attributes).isEmpty then none
        else some (.ofEntries entries)) :
      settings.getD {} = .ofEntries entries ∧
        (settings.isNone && !(fields.map origin.annotated).any (·.annotations.annotated)) = false := by
    subst set
    split
    · rename_i empty
      rw [TableSettings.no_entries _ _ empty entries lists]
      rw [under_empty, Bool.not_eq_true'] at empty
      refine ⟨rfl, ?_⟩
      rw [any_annotated]
      simpa [Struct.declares, empty, named] using declares
    · exact ⟨rfl, rfl⟩
  constructor
  · intro read
    obtain ⟨settings, set, read⟩ := (bind_ok _ _ _).mp read
    obtain ⟨entries, lists, set⟩ :=
      (TableSettings.settings_iff _ _ _).mp ((map_error_ok _ _ _).mp set)
    cases named : struct.fields? with
    | none =>
        simp only [Struct.declares, named, Option.getD_none, List.any_nil, Bool.or_false] at declares
        rw [under_empty, declares, if_neg (by simp)] at set
        rw [named, set] at read
        cases read
    | some fields =>
        rw [named] at read
        obtain ⟨found, annotated, read⟩ := (bind_ok _ _ _).mp read
        obtain ⟨fine, rfl⟩ := (annotated_fields_iff origin distinct _ _ _).mp annotated
        obtain ⟨whole, marked⟩ := declared entries fields lists named settings set
        rw [marked, if_neg (by simp), whole] at read
        obtain ⟨draft, made, rfl⟩ := (map_ok _ _ _).mp read
        exact ⟨draft, ⟨fields, entries, named, fine, lists,
          (declared_table_iff origin struct fields entries draft).mp made⟩, rfl⟩
  · rintro ⟨draft, ⟨fields, entries, named, fine, lists, makes⟩, rfl⟩
    have settings := (TableSettings.settings_iff origin.keys struct.attributes _).mpr
      ⟨entries, lists, rfl⟩
    obtain ⟨whole, marked⟩ := declared entries fields lists named _ rfl
    refine (bind_ok _ _ _).mpr ⟨_, (map_error_ok _ _ _).mpr settings, ?_⟩
    rw [named]
    refine (bind_ok _ _ _).mpr ⟨_, (annotated_fields_iff origin distinct _ _ _).mpr ⟨fine, rfl⟩, ?_⟩
    rw [marked, if_neg (by simp), whole]
    exact (map_ok _ _ _).mpr
      ⟨draft, (declared_table_iff origin struct fields entries draft).mpr makes, rfl⟩

end Origin

end SchemaDrift.Code
