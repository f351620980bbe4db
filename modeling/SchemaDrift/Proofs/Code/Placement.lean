import SchemaDrift.Proofs.Code.Declaration
/-!
Positions do not matter. Two structs that only differ in where they and their parts stand give the
same drafts; positions are for errors alone.
-/

set_option autoImplicit false

namespace SchemaDrift.Code

/-! ### Without positions -/

mutual

def TokenTree.unplaced : TokenTree → TokenTree
  | .token _ token => .token 0 token
  | .group _ _ delimiter inner => .group 0 0 delimiter (unplacedTrees inner)

def unplacedTrees : List TokenTree → List TokenTree
  | [] => []
  | tree :: trees => tree.unplaced :: unplacedTrees trees

end

def Quoted.unplaced (text : Quoted) : Quoted := { text with start := 0 }

def AttributeBody.unplaced : AttributeBody → AttributeBody
  | .list _ inner => .list 0 (unplacedTrees inner)
  | .text quoted => .text quoted.unplaced
  | body => body

def Attribute.unplaced (found : Attribute) : Attribute :=
  { found with start := 0, body := found.body.unplaced }

@[simp]
theorem Attribute.unplaced_body (found : Attribute) : found.unplaced.body = found.body.unplaced := rfl

@[simp]
theorem Attribute.unplaced_name (found : Attribute) : found.unplaced.name? = found.name? := rfl

def Field.unplaced (field : Field) : Field :=
  { field with start := 0, attributes := field.attributes.map Attribute.unplaced }

def Struct.unplaced (struct : Struct) : Struct :=
  { struct with
    start := 0
    attributes := struct.attributes.map Attribute.unplaced
    fields? := struct.fields?.map (·.map Field.unplaced) }

def Entry.unplaced (entry : Entry) : Entry := { entry with value := entry.value.unplaced }

theorem unplaced_trees (trees : List TokenTree) :
    unplacedTrees trees = trees.map TokenTree.unplaced := by
  induction trees with
  | nil => rfl
  | cons tree trees ih => rw [unplacedTrees, ih, List.map_cons]

/-! ### Fields -/

theorem under_unplaced (key : String) (attributes : List Attribute) :
    under key (attributes.map Attribute.unplaced) =
      (under key attributes).map AttributeBody.unplaced := by
  simp only [under, List.filter_map, List.map_map]
  rfl

namespace FieldAnnotations

theorem column_name_unplaced (body : AttributeBody) :
    columnName? body.unplaced = columnName? body := by
  cases body with
  | list finish inner =>
      cases inner with
      | nil => rfl
      | cons tree trees =>
          cases tree with
          | group => cases trees <;> rfl
          | token start token =>
              cases token with
              | literal kind written => cases kind <;> cases trees <;> rfl
              | _ => cases trees <;> rfl
  | _ => rfl

theorem flag_unplaced (body : AttributeBody) : flag? body.unplaced = flag? body := by
  cases body <;> rfl

theorem definition_unplaced (body : AttributeBody) :
    body.unplaced.definition? = body.definition?.map Quoted.unplaced := by
  cases body <;> rfl

variable (keys : AnnotationKeys)

theorem readable_unplaced (found : Attribute) :
    Readable keys found.unplaced ↔ Readable keys found := by
  constructor <;> intro fine <;>
    exact ⟨by simpa [column_name_unplaced] using fine.column,
      by simpa [flag_unplaced] using fine.flag,
      by simpa [definition_unplaced] using fine.definition⟩

theorem note_unplaced (found : Attribute) : note? keys found.unplaced = note? keys found := by
  have same (definition : Quoted) : definition.unplaced.value = definition.value := rfl
  simp [note?, column_name_unplaced, flag_unplaced, definition_unplaced,
    Option.map_map, Function.comp_def, same]

theorem summary_unplaced (attributes : List Attribute) :
    summary keys (attributes.map Attribute.unplaced) =
      { summary keys attributes with
        definition := (summary keys attributes).definition.map Quoted.unplaced } := by
  have columns : columnNames keys (attributes.map Attribute.unplaced) = columnNames keys attributes := by
    rw [columnNames, under_unplaced, List.filterMap_map]
    congr 1
    exact funext column_name_unplaced
  have flagged : flags keys (attributes.map Attribute.unplaced) = flags keys attributes := by
    rw [flags, under_unplaced, List.filterMap_map]
    congr 1
    exact funext flag_unplaced
  have defined : definitions keys (attributes.map Attribute.unplaced) =
      (definitions keys attributes).map Quoted.unplaced := by
    rw [definitions, under_unplaced, List.filterMap_map, definitions, List.map_filterMap]
    congr 1
    exact funext definition_unplaced
  have noted : (attributes.map Attribute.unplaced).filterMap (note? keys) =
      attributes.filterMap (note? keys) := by
    rw [List.filterMap_map]
    congr 1
    exact funext (note_unplaced keys)
  have marked : (attributes.map Attribute.unplaced).any (fun found => found.name?.any keys.has) =
      attributes.any fun found => found.name?.any keys.has := by
    rw [List.any_map]
    rfl
  simp only [summary, columns, flagged, defined, noted, marked, List.getLast?_map]

end FieldAnnotations

namespace Field

variable (keys : AnnotationKeys) (field : Field)

theorem annotations_unplaced : field.unplaced.annotations keys =
    { field.annotations keys with
      definition := (field.annotations keys).definition.map Quoted.unplaced } :=
  FieldAnnotations.summary_unplaced keys field.attributes

@[simp]
theorem kept_unplaced : field.unplaced.kept keys = field.kept keys := by
  simp [kept, annotations_unplaced]

@[simp]
theorem flagged_unplaced : field.unplaced.flagged keys = field.flagged keys := by
  simp [flagged, annotations_unplaced]

@[simp]
theorem column_name_unplaced : field.unplaced.columnName keys = field.columnName keys := by
  simp [columnName, annotations_unplaced]
  rfl

@[simp]
theorem definition_unplaced : field.unplaced.definition? keys = field.definition? keys := by
  simp [definition?, annotations_unplaced, Function.comp_def, Quoted.unplaced]

theorem readable_unplaced (fields : List Field) :
    (∀ f ∈ fields.map unplaced, ∀ a ∈ f.attributes, FieldAnnotations.Readable keys a) ↔
      ∀ f ∈ fields, ∀ a ∈ f.attributes, FieldAnnotations.Readable keys a := by
  simp only [List.forall_mem_map, unplaced, FieldAnnotations.readable_unplaced]

theorem filter_kept_unplaced (fields : List Field) :
    (fields.map unplaced).filter (kept keys) = (fields.filter (kept keys)).map unplaced := by
  simp [List.filter_map, Function.comp_def]

theorem names_unplaced (fields : List Field) :
    Names keys (fields.map unplaced) = Names keys fields := by
  funext name column
  rw [Names, filter_kept_unplaced, List.find?_map, eq_iff_iff]
  constructor
  · rintro ⟨_, found, rfl⟩
    obtain ⟨field, first, rfl⟩ := Option.map_eq_some_iff.mp found
    exact ⟨field, first, (column_name_unplaced keys field).symm⟩
  · rintro ⟨field, found, rfl⟩
    exact ⟨field.unplaced, Option.map_eq_some_iff.mpr ⟨field, found, rfl⟩,
      column_name_unplaced keys field⟩

theorem key_unplaced (fields : List Field) (listed : Option (List String)) (key : List String) :
    Key keys (fields.map unplaced) listed key ↔ Key keys fields listed key := by
  have flagged_columns : ((fields.map unplaced).filter (flagged keys)).map (columnName keys) =
      (fields.filter (flagged keys)).map (columnName keys) := by
    simp [List.filter_map, Function.comp_def]
  have unflagged : (∀ field ∈ fields.map unplaced, field.flagged keys = false) ↔
      ∀ field ∈ fields, field.flagged keys = false := by
    simp
  constructor
  · intro found
    cases found with
    | flagged =>
        rw [flagged_columns]
        exact .flagged
    | listed names columns plain named =>
        exact .listed names _ (unflagged.mp plain) (names_unplaced keys fields ▸ named)
  · intro found
    cases found with
    | flagged =>
        rw [← flagged_columns]
        exact .flagged
    | listed names columns plain named =>
        exact .listed names _ (unflagged.mpr plain) ((names_unplaced keys fields).symm ▸ named)

theorem gives_of_same (dialect : Dialect) (field other : Field) (column : Column)
    (definition : field.definition? keys = other.definition? keys)
    (name : field.columnName keys = other.columnName keys)
    (texts : (field.annotations keys).texts = (other.annotations keys).texts)
    (type : field.type = other.type) (gives : field.Gives keys dialect column) :
    other.Gives keys dialect column := by
  cases gives with
  | defined text fragment last read plain =>
      rw [definition] at last
      rw [name, texts]
      exact .defined text fragment last read plain
  | typed base nullable bare mapped =>
      rw [definition] at bare
      rw [type] at mapped
      rw [name, texts]
      exact .typed base nullable bare mapped

theorem gives_unplaced (dialect : Dialect) :
    field.unplaced.Gives keys dialect = field.Gives keys dialect := by
  have definition := definition_unplaced keys field
  have name := column_name_unplaced keys field
  have texts : (field.unplaced.annotations keys).texts = (field.annotations keys).texts := by
    rw [annotations_unplaced]
  funext column
  rw [eq_iff_iff]
  exact ⟨gives_of_same keys dialect _ _ column definition name texts rfl,
    gives_of_same keys dialect _ _ column definition.symm name.symm texts.symm rfl⟩

end Field

/-! ### Entries -/

namespace TableSettings

theorem values_unplaced (name : String) (entries : List Entry) :
    values name (entries.map Entry.unplaced) = values name entries := by
  simp only [values, texts, List.filter_map, List.map_map]
  rfl

theorem valid_unplaced (entry : Entry) : Valid entry.unplaced ↔ Valid entry := by
  obtain ⟨name, value⟩ := entry
  constructor
  · intro valid
    have valid : Valid ⟨name, value.unplaced⟩ := valid
    cases valid with
    | table _ filled => exact .table value filled
    | primaryKey _ listed => exact .primaryKey value listed
    | index => exact .index value
    | constraint => exact .constraint value
  · intro valid
    cases valid with
    | table _ filled => exact .table value.unplaced filled
    | primaryKey _ listed => exact .primaryKey value.unplaced listed
    | index => exact .index value.unplaced
    | constraint => exact .constraint value.unplaced

end TableSettings

theorem token_unplaced (tree : TokenTree) (place : Nat) (token : Token)
    (same : tree.unplaced = (TokenTree.token place token).unplaced) :
    ∃ other, tree = .token other token := by
  cases tree with
  | token other found =>
      simp only [TokenTree.unplaced, TokenTree.token.injEq, true_and] at same
      exact ⟨other, by rw [same]⟩
  | group => simp [TokenTree.unplaced] at same

theorem starts_alike (entry : Entry) (rest trees others : List TokenTree)
    (starts : entry.Starts rest trees)
    (same : trees.map TokenTree.unplaced = others.map TokenTree.unplaced) :
    ∃ (other : Entry) (left : List TokenTree), other.Starts left others ∧
      entry.unplaced = other.unplaced ∧ rest.map TokenTree.unplaced = left.map TokenTree.unplaced := by
  cases starts with
  | spelled place sign joint written =>
      obtain ⟨first, _, rfl, one, after⟩ := List.map_eq_cons_iff.mp same.symm
      obtain ⟨second, _, rfl, two, behind⟩ := List.map_eq_cons_iff.mp after
      obtain ⟨third, left, rfl, three, more⟩ := List.map_eq_cons_iff.mp behind
      obtain ⟨_, rfl⟩ := token_unplaced _ _ _ one
      obtain ⟨_, rfl⟩ := token_unplaced _ _ _ two
      obtain ⟨start, rfl⟩ := token_unplaced _ _ _ three
      exact ⟨⟨entry.name, start, entry.value.value⟩, left, .spelled _ _ joint written, rfl,
        more.symm⟩

theorem entries_alike (trees : List TokenTree) (entries : List Entry) (listed : Entries trees entries)
    (others : List TokenTree)
    (same : trees.map TokenTree.unplaced = others.map TokenTree.unplaced) :
    ∃ found, Entries others found ∧ entries.map Entry.unplaced = found.map Entry.unplaced := by
  induction listed generalizing others with
  | nil =>
      obtain rfl := List.map_eq_nil_iff.mp same.symm
      exact ⟨[], .nil, rfl⟩
  | last entry trees starts =>
      obtain ⟨other, left, started, alike, rest⟩ := starts_alike entry _ _ others starts same
      obtain rfl := List.map_eq_nil_iff.mp rest.symm
      exact ⟨[other], .last other others started, by simp [alike]⟩
  | cons entry trees comma joint rest entries starts _ ih =>
      obtain ⟨other, _, started, alike, after⟩ := starts_alike entry _ _ others starts same
      obtain ⟨first, left, rfl, separator, behind⟩ := List.map_eq_cons_iff.mp after.symm
      obtain ⟨_, rfl⟩ := token_unplaced _ _ _ separator
      obtain ⟨found, later, all⟩ := ih left behind.symm
      exact ⟨other :: found, .cons other others _ joint left found started later, by simp [alike, all]⟩

theorem holds_alike (body other : AttributeBody) (same : body.unplaced = other.unplaced)
    (entries : List Entry) (holds : body.Holds entries) :
    ∃ found, other.Holds found ∧ entries.map Entry.unplaced = found.map Entry.unplaced := by
  obtain ⟨finish, inner, rfl, listed⟩ := holds
  cases other with
  | list last trees =>
      have same : inner.map TokenTree.unplaced = trees.map TokenTree.unplaced := by
        simpa [AttributeBody.unplaced, unplaced_trees] using same
      obtain ⟨found, later, all⟩ := entries_alike inner entries listed trees same
      exact ⟨found, ⟨last, trees, rfl, later⟩, all⟩
  | _ => simp [AttributeBody.unplaced] at same

theorem held_alike (bodies : List AttributeBody) (lists : List (List Entry))
    (held : List.Forall₂ AttributeBody.Holds bodies lists) (others : List AttributeBody)
    (same : bodies.map AttributeBody.unplaced = others.map AttributeBody.unplaced) :
    ∃ found, List.Forall₂ AttributeBody.Holds others found ∧
      lists.flatten.map Entry.unplaced = found.flatten.map Entry.unplaced := by
  induction held generalizing others with
  | nil =>
      obtain rfl := List.map_eq_nil_iff.mp same.symm
      exact ⟨[], .nil, rfl⟩
  | cons holds _ ih =>
      obtain ⟨other, left, rfl, one, more⟩ := List.map_eq_cons_iff.mp same.symm
      obtain ⟨entries, found, alike⟩ := holds_alike _ other one.symm _ holds
      obtain ⟨lists, each, all⟩ := ih left more.symm
      exact ⟨entries :: lists, .cons found each, by simp [alike, all]⟩

theorem lists_alike (keys : AnnotationKeys) (attributes others : List Attribute)
    (same : attributes.map Attribute.unplaced = others.map Attribute.unplaced)
    (entries : List Entry) (lists : TableSettings.Lists keys attributes entries) :
    ∃ found, TableSettings.Lists keys others found ∧
      entries.map Entry.unplaced = found.map Entry.unplaced := by
  obtain ⟨⟨lists, held, rfl⟩, valid⟩ := lists
  have bodies : (under keys.ddl attributes).map AttributeBody.unplaced =
      (under keys.ddl others).map AttributeBody.unplaced := by
    rw [← under_unplaced, same, under_unplaced]
  obtain ⟨found, each, alike⟩ := held_alike _ lists held _ bodies
  refine ⟨found.flatten, ⟨⟨found, each, rfl⟩, ?_⟩, alike⟩
  have valid : ∀ e ∈ lists.flatten.map Entry.unplaced, TableSettings.Valid e := by
    simpa only [List.forall_mem_map, TableSettings.valid_unplaced] using valid
  rw [alike] at valid
  simpa only [List.forall_mem_map, TableSettings.valid_unplaced] using valid

/-! ### Structs -/

theorem declares_unplaced (keys : AnnotationKeys) (struct : Struct) :
    struct.unplaced.declares keys = struct.declares keys := by
  have own : (struct.attributes.map Attribute.unplaced).any (·.name? = some keys.ddl) =
      struct.attributes.any (·.name? = some keys.ddl) := by
    rw [List.any_map]
    rfl
  have fields : ((struct.fields?.map (·.map Field.unplaced)).getD []).any
        (fun field => field.attributes.any fun found => found.name?.any keys.has) =
      (struct.fields?.getD []).any
        fun field => field.attributes.any fun found => found.name?.any keys.has := by
    cases struct.fields? with
    | none => rfl
    | some fields =>
        simp only [Option.map_some, Option.getD_some, List.any_map]
        congr 1
        funext field
        exact List.any_map
  exact congrArg₂ (· || ·) own fields

namespace Struct

variable (keys : AnnotationKeys) (dialect : Dialect) (struct : Struct)

theorem makes_unplaced (fields : List Field) (entries : List Entry)
    (draft : TableDraft) :
    struct.unplaced.Makes keys dialect (fields.map Field.unplaced) (entries.map Entry.unplaced) draft ↔
      struct.Makes keys dialect fields entries draft := by
  have listed (name : String) := TableSettings.values_unplaced name entries
  have name : Origin.tableName struct.unplaced (.ofEntries (entries.map Entry.unplaced)) =
      Origin.tableName struct (.ofEntries entries) := by
    simp only [Origin.tableName, TableSettings.ofEntries, listed]
    rfl
  have names : (TableSettings.ofEntries (entries.map Entry.unplaced)).primaryKey =
      (TableSettings.ofEntries entries).primaryKey := by
    simp only [TableSettings.ofEntries, listed]
  have given_iff (columns : List Column) :
      List.Forall₂ (Field.Gives keys · dialect ·)
          ((fields.map Field.unplaced).filter (Field.kept keys)) columns ↔
        List.Forall₂ (Field.Gives keys · dialect ·) (fields.filter (Field.kept keys)) columns := by
    rw [Field.filter_kept_unplaced, List.forall₂_map_left_iff]
    simp only [Field.gives_unplaced]
  have fine_iff : (∀ field ∈ fields.map Field.unplaced,
        field.flagged keys = true → field.kept keys = true) ↔
      ∀ field ∈ fields, field.flagged keys = true → field.kept keys = true := by
    simp
  have key_iff := Field.key_unplaced keys fields
  constructor
  · intro makes
    cases makes with
    | made columns key indexes fragments given fine found indexed distinct constrained =>
        rw [name, listed] at indexed
        rw [listed] at constrained
        rw [names, key_iff] at found
        rw [name]
        exact .made columns key indexes fragments ((given_iff columns).mp given) (fine_iff.mp fine)
          found indexed distinct constrained
  · intro makes
    cases makes with
    | made columns key indexes fragments given fine found indexed distinct constrained =>
        rw [← name, ← listed] at indexed
        rw [← listed] at constrained
        rw [← names, ← key_iff] at found
        rw [← name]
        exact .made columns key indexes fragments ((given_iff columns).mpr given) (fine_iff.mpr fine)
          found indexed distinct constrained

theorem extracts_alike (other : Struct) (same : struct.unplaced = other.unplaced)
    (draft : TableDraft) (extracts : struct.Extracts keys dialect draft) :
    other.Extracts keys dialect draft := by
  obtain ⟨fields, entries, named, fine, lists, makes⟩ := extracts
  have both : struct.fields?.map (·.map Field.unplaced) = other.fields?.map (·.map Field.unplaced) :=
    congrArg Struct.fields? same
  rw [named, Option.map_some] at both
  obtain ⟨others, found, alike⟩ := Option.map_eq_some_iff.mp both.symm
  obtain ⟨texts, listed, all⟩ :=
    lists_alike keys _ _ (congrArg Struct.attributes same) entries lists
  refine ⟨others, texts, found, ?_, listed, ?_⟩
  · rw [← Field.readable_unplaced, alike, Field.readable_unplaced]
    exact fine
  · rw [← makes_unplaced, ← same, alike, ← all, makes_unplaced]
    exact makes

end Struct

end SchemaDrift.Code
