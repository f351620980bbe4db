import SchemaDrift.Code.Item
import SchemaDrift.Proofs.Code.Placement
/-!
The tables of a file. They are those of its declarations, in their order and through all modules;
whatever else stands in the file does not matter.
-/

set_option autoImplicit false

namespace SchemaDrift.Code

/-! ### Declarations -/

mutual

def Item.structs : Item → List Struct
  | .struct declaration => [declaration]
  | .module items => structsOf items
  | .other => []

def structsOf : List Item → List Struct
  | [] => []
  | item :: items => item.structs ++ structsOf items

end

def declarations (keys : AnnotationKeys) (items : List Item) : List Struct :=
  (structsOf items).filter (Struct.declares keys)

namespace Origin

variable (origin : Origin)

mutual

theorem item_tables_iff (distinct : origin.keys.Distinct) (item : Item)
    (drafts : List TableDraft) : origin.itemTables item = .ok drafts ↔
      List.Forall₂ (Struct.Extracts origin.keys origin.dialect)
        (item.structs.filter (Struct.declares origin.keys)) drafts := by
  cases item with
  | struct declaration =>
      rw [itemTables, map_ok, Item.structs]
      cases declares : declaration.declares origin.keys with
      | true =>
          simp only [table_iff origin distinct declaration declares]
          rw [List.filter_cons_of_pos declares, List.filter_nil, List.forall₂_cons_left_iff]
          simp only [List.forall₂_nil_left_iff]
          constructor
          · rintro ⟨_, ⟨draft, extracts, rfl⟩, rfl⟩
            exact ⟨draft, [], extracts, rfl, rfl⟩
          · rintro ⟨draft, _, extracts, rfl, rfl⟩
            exact ⟨some draft, ⟨draft, extracts, rfl⟩, rfl⟩
      | false =>
          rw [other_without_table origin distinct declaration declares,
            List.filter_cons_of_neg (by simp [declares]), List.filter_nil, List.forall₂_nil_left_iff]
          constructor
          · rintro ⟨_, same, rfl⟩
            cases same
            rfl
          · rintro rfl
            exact ⟨none, rfl, rfl⟩
  | module items => exact tables_iff distinct items drafts
  | other =>
      rw [itemTables, Item.structs, List.filter_nil, List.forall₂_nil_left_iff]
      exact ⟨fun same => (Except.ok.inj same).symm, fun same => by rw [same]⟩

theorem tables_iff (distinct : origin.keys.Distinct) (items : List Item)
    (drafts : List TableDraft) : origin.tables items = .ok drafts ↔
      List.Forall₂ (Struct.Extracts origin.keys origin.dialect)
        (declarations origin.keys items) drafts := by
  cases items with
  | nil =>
      rw [Origin.tables, declarations, structsOf, List.filter_nil, List.forall₂_nil_left_iff]
      exact ⟨fun same => (Except.ok.inj same).symm, fun same => by rw [same]⟩
  | cons item items =>
      rw [declarations, structsOf, List.filter_append, pairs_append]
      constructor
      · intro read
        obtain ⟨first, here, read⟩ := (bind_ok _ _ _).mp read
        obtain ⟨rest, behind, read⟩ := (bind_ok _ _ _).mp read
        cases read
        exact ⟨first, rest, (item_tables_iff distinct item first).mp here,
          (tables_iff distinct items rest).mp behind, rfl⟩
      · rintro ⟨first, rest, here, behind, rfl⟩
        exact (bind_ok _ _ _).mpr ⟨first, (item_tables_iff distinct item first).mpr here,
          (bind_ok _ _ _).mpr ⟨rest, (tables_iff distinct items rest).mpr behind, rfl⟩⟩

end

end Origin

/-! ### Errors -/

namespace Struct

variable (keys : AnnotationKeys) (struct : Struct)

def ListsKey (names : List String) : Prop :=
  ∃ entries, TableSettings.Lists keys struct.attributes entries ∧
    (TableSettings.ofEntries entries).primaryKey = some names

-- What is wrong with a primary key: it is given in both forms, no field of a listed name is kept, or
-- a field in it is excluded.
inductive KeyFault : Prop
  | twice (names : List String) (fields : List Field) (field : Field)
      (listed : struct.ListsKey keys names) (named : struct.fields? = some fields)
      (member : field ∈ fields) (flagged : field.flagged keys = true)
  | unknown (names : List String) (name : String) (listed : struct.ListsKey keys names)
      (among : name ∈ names) (absent : ∀ fields, struct.fields? = some fields →
        ∀ field ∈ fields, plainName field.name = name → field.kept keys = false)
  | excluded (fields : List Field) (field : Field) (named : struct.fields? = some fields)
      (member : field ∈ fields) (flagged : field.flagged keys = true)
      (excluded : field.kept keys = false)

theorem fault_refused (dialect : Dialect) (fault : struct.KeyFault keys) (draft : TableDraft) :
    ¬ struct.Extracts keys dialect draft := by
  rintro ⟨fields, entries, named, _, lists, makes⟩
  have listed_key (names : List String) (listed : struct.ListsKey keys names) :
      (TableSettings.ofEntries entries).primaryKey = some names := by
    obtain ⟨others, again, same⟩ := listed
    rw [TableSettings.entries_unique keys _ entries others lists again, same]
  cases makes with
  | made columns key indexes fragments given flagged_kept found indexed distinct constrained =>
  cases fault with
  | twice names others field listed present member flagged =>
      rw [named] at present
      cases present
      rw [listed_key names listed] at found
      cases found with
      | listed _ _ unflagged _ => simp [unflagged field member] at flagged
  | unknown names name listed among absent =>
      rw [listed_key names listed] at found
      cases found with
      | listed _ _ _ each =>
          obtain ⟨column, _, field, first, _⟩ := partner_of_left _ _ _ each name among
          obtain ⟨member, kept⟩ := List.mem_filter.mp (List.mem_of_find?_eq_some first)
          simp [absent fields named field member (by simpa using List.find?_some first)] at kept
  | excluded others field present member flagged excluded =>
      rw [named] at present
      cases present
      simp [flagged_kept field member flagged] at excluded

theorem listing_declares (names : List String) (listed : struct.ListsKey keys names) :
    struct.declares keys = true := by
  obtain ⟨entries, lists, some⟩ := listed
  cases empty : (under keys.ddl struct.attributes).isEmpty with
  | true =>
      rw [TableSettings.no_entries keys _ empty entries lists] at some
      cases some
  | false =>
      rw [under_empty, Bool.not_eq_false'] at empty
      rw [declares, empty, Bool.true_or]

theorem flag_declares (fields : List Field) (field : Field) (named : struct.fields? = some fields)
    (member : field ∈ fields) (flagged : field.flagged keys = true) :
    struct.declares keys = true := by
  have carried : field.attributes.any (·.name? = some keys.primaryKey) = true := by
    by_contra absent
    have none_under : under keys.primaryKey field.attributes = [] := by
      rw [← List.isEmpty_iff, under_empty, Bool.eq_false_iff.mpr absent]
      rfl
    simp [Field.flagged, Field.annotations, FieldAnnotations.summary, FieldAnnotations.flags,
      none_under] at flagged
  obtain ⟨found, among, name⟩ := List.any_eq_true.mp carried
  have any : found.name?.any keys.has = true := by
    rw [of_decide_eq_true name]
    simp [AnnotationKeys.has]
  rw [declares, named, Option.getD_some, Bool.or_eq_true]
  exact .inr (List.any_eq_true.mpr ⟨field, member, List.any_eq_true.mpr ⟨found, among, any⟩⟩)

theorem fault_declares (fault : struct.KeyFault keys) : struct.declares keys = true := by
  cases fault with
  | twice names _ _ listed => exact listing_declares keys struct names listed
  | unknown names _ listed => exact listing_declares keys struct names listed
  | excluded fields field named member flagged =>
      exact flag_declares keys struct fields field named member flagged

end Struct

/-! ### Items in between -/

-- The second list has the items of the first one, wherever they stand, and between them others, in
-- and out of modules, none of which holds a declaration.
inductive Inserted (keys : AnnotationKeys) : List Item → List Item → Prop
  | nil : Inserted keys [] []
  | between (item : Item) (items others : List Item)
      (plain : ∀ s ∈ item.structs, s.declares keys = false) :
      Inserted keys items others → Inserted keys items (item :: others)
  | struct (one two : Struct) (items others : List Item) (same : one.unplaced = two.unplaced) :
      Inserted keys items others → Inserted keys (.struct one :: items) (.struct two :: others)
  | module (inner within items others : List Item) :
      Inserted keys inner within → Inserted keys items others →
      Inserted keys (.module inner :: items) (.module within :: others)
  | other (items others : List Item) :
      Inserted keys items others → Inserted keys (.other :: items) (.other :: others)

theorem inserted_declarations (keys : AnnotationKeys) (items others : List Item)
    (inserted : Inserted keys items others) :
    (declarations keys items).map Struct.unplaced = (declarations keys others).map Struct.unplaced := by
  induction inserted with
  | nil => rfl
  | between item items others plain _ ih =>
      have skipped : item.structs.filter (Struct.declares keys) = [] :=
        List.filter_eq_nil_iff.mpr fun s member => by simp [plain s member]
      simpa [declarations, structsOf, skipped] using ih
  | struct one two items others same _ ih =>
      have alike : one.declares keys = two.declares keys := by
        rw [← declares_unplaced, same, declares_unplaced]
      simp only [declarations, structsOf, Item.structs, List.filter_append, List.map_append] at ih ⊢
      rw [ih]
      cases declares : two.declares keys <;> simp [alike, declares, same]
  | module inner within items others _ _ first second =>
      simp only [declarations, structsOf, Item.structs, List.filter_append, List.map_append]
        at first second ⊢
      rw [first, second]
  | other items others _ ih => simpa [declarations, structsOf, Item.structs] using ih

theorem extracted_alike (keys : AnnotationKeys) (dialect : Dialect) (structs : List Struct)
    (drafts : List TableDraft) (extracted : List.Forall₂ (Struct.Extracts keys dialect) structs drafts)
    (others : List Struct) (same : structs.map Struct.unplaced = others.map Struct.unplaced) :
    List.Forall₂ (Struct.Extracts keys dialect) others drafts := by
  induction extracted generalizing others with
  | nil =>
      obtain rfl := List.map_eq_nil_iff.mp same.symm
      exact .nil
  | cons first _ ih =>
      obtain ⟨other, left, rfl, one, more⟩ := List.map_eq_cons_iff.mp same.symm
      exact .cons (Struct.extracts_alike keys dialect _ other one.symm _ first) (ih left more.symm)

/-! ### Files -/

theorem read_iff (origin : Origin) (file : File) (valid : origin.keys.validate = .ok ())
    (parsed : origin.parse (content origin.text) = .ok file) (drafts : List TableDraft) :
    origin.read = .ok drafts ↔ List.Forall₂ (Struct.Extracts origin.keys origin.dialect)
      (declarations origin.keys file.items) drafts := by
  rw [← Origin.tables_iff origin (valid_keys_distinct origin.keys valid), Origin.read, parsed]
  rfl

-- Reading gives one draft for each declaration and nothing else. It fails where a primary key is
-- faulty, and what is inserted between the declarations changes nothing.
theorem declarations_extracted (origin : Origin) (file : File)
    (valid : origin.keys.validate = .ok ())
    (parsed : origin.parse (content origin.text) = .ok file) :
    (∀ drafts, origin.read = .ok drafts ↔
      List.Forall₂ (Struct.Extracts origin.keys origin.dialect)
        (declarations origin.keys file.items) drafts) ∧
    (∀ struct ∈ structsOf file.items, struct.KeyFault origin.keys →
      ∃ error, origin.read = .error error) ∧
    (∀ (text : List Char) (other : File), origin.parse (content text) = .ok other →
      Inserted origin.keys file.items other.items →
      ∀ drafts, { origin with text }.read = .ok drafts ↔ origin.read = .ok drafts) := by
  have extracted := read_iff origin file valid parsed
  refine ⟨extracted, ?_, ?_⟩
  · intro struct member fault
    cases result : origin.read with
    | error error => exact ⟨error, rfl⟩
    | ok drafts =>
        have declaration : struct ∈ declarations origin.keys file.items :=
          List.mem_filter.mpr ⟨member, Struct.fault_declares origin.keys struct fault⟩
        obtain ⟨draft, _, extracts⟩ :=
          partner_of_left _ _ _ ((extracted drafts).mp result) struct declaration
        exact absurd extracts (Struct.fault_refused origin.keys struct origin.dialect fault draft)
  · intro text other read inserted drafts
    have alike := inserted_declarations origin.keys file.items other.items inserted
    rw [extracted, read_iff { origin with text } other valid read]
    constructor
    · exact fun each => extracted_alike _ _ _ drafts each _ alike.symm
    · exact fun each => extracted_alike _ _ _ drafts each _ alike

/-! ### Samples -/

mutual

def TokenTree.decEq : (a b : TokenTree) → Decidable (a = b)
  | .token start token, .token place other =>
    decidable_of_iff (start = place ∧ token = other) (by simp)
  | .token .., .group .. => isFalse (by simp)
  | .group .., .token .. => isFalse (by simp)
  | .group start finish delimiter inner, .group place last other within =>
    have := decEqTrees inner within
    decidable_of_iff (start = place ∧ finish = last ∧ delimiter = other ∧ inner = within) (by simp)

def decEqTrees : (a b : List TokenTree) → Decidable (a = b)
  | [], [] => isTrue rfl
  | [], _ :: _ => isFalse (by simp)
  | _ :: _, [] => isFalse (by simp)
  | a :: as, b :: bs =>
    have := a.decEq b
    have := decEqTrees as bs
    decidable_of_iff (a = b ∧ as = bs) (by simp)

end

instance : DecidableEq TokenTree := TokenTree.decEq

theorem parsed_in_steps (text : List Char) (trees : List TokenTree) (file : File)
    (cut : (tokenTrees text).toOption = some trees)
    (read : File.ofTrees (4 * text.length + 4) trees = .ok file) : File.parse text = .ok file := by
  rw [File.parse, ok_of_option _ _ cut]
  exact read

namespace Tag

def text : List Char := "struct Tag\x7b#[pk]id:i64\x7d".toList

def origin : Origin := { dialect := .postgres, text }

def trees (start : Nat) : List TokenTree :=
  [.token start (.word "struct"), .token (start + 7) (.word "Tag"),
    .group (start + 10) (start + 22) .brace
      [.token (start + 11) (.mark '#' false),
        .group (start + 12) (start + 15) .bracket [.token (start + 13) (.word "pk")],
        .token (start + 16) (.word "id"), .token (start + 18) (.mark ':' false),
        .token (start + 19) (.word "i64")]]

def struct (start : Nat) : Struct where
  attributes := []
  name := "Tag"
  start := start + 7
  fields? := some
    [{ attributes := [{ start := start + 11, name? := some "pk", body := .none }]
       name := "id"
       start := start + 16
       type := .path false false [.mk "i64" none]
       typeText := "i64" }]

def draft : TableDraft where
  name := "tag"
  columns := [{ name := "id", type := { base := .bigInt }, annotations := [("pk", "true")] }]
  primaryKeys := [{ columns := ["id"], kind := .primaryKey }]

def file : File := { items := [.struct (struct 0)] }

theorem parsed : File.parse (content origin.text) = .ok file :=
  parsed_in_steps text (trees 0) file (by decide +kernel) (by cbv)

def extended : List Char := "struct Bin;struct Tag\x7b#[pk]id:i64\x7d".toList

def bin : Struct := { attributes := [], name := "Bin", start := 7, fields? := none }

def extendedFile : File := { items := [.struct bin, .struct (struct 11)] }

theorem extended_parsed : File.parse (content extended) = .ok extendedFile :=
  parsed_in_steps extended
    ([.token 0 (.word "struct"), .token 7 (.word "Bin"), .token 10 (.mark ';' false)] ++ trees 11)
    extendedFile (by decide +kernel) (by cbv)

theorem extended_inserted : Inserted {} file.items extendedFile.items :=
  .between (.struct bin) _ _ (by decide) <| .struct (struct 0) (struct 11) _ _ rfl .nil

end Tag

theorem tag_extracted : Tag.origin.keys.validate = .ok () ∧
    Tag.origin.parse (content Tag.origin.text) = .ok Tag.file ∧
    Tag.origin.read = .ok [Tag.draft] ∧ (Tag.struct 0).Extracts {} .postgres Tag.draft ∧
    { Tag.origin with text := Tag.extended }.read = .ok [Tag.draft] := by
  have valid : Tag.origin.keys.validate = .ok () := ok_of_option _ _ (by decide +kernel)
  obtain ⟨extracted, _, inserted⟩ := declarations_extracted Tag.origin Tag.file valid Tag.parsed
  have read : Tag.origin.read = .ok [Tag.draft] := ok_of_option _ _ (by decide +kernel)
  have again := (inserted Tag.extended Tag.extendedFile Tag.extended_parsed Tag.extended_inserted
    [Tag.draft]).mpr read
  have each : List.Forall₂ (Struct.Extracts {} .postgres) [Tag.struct 0] [Tag.draft] :=
    (extracted [Tag.draft]).mp read
  obtain ⟨first, _⟩ := List.forall₂_cons.mp each
  exact ⟨valid, Tag.parsed, read, first, again⟩

-- A constraint can declare the primary key as well, though no field is flagged and none is listed.
namespace Keyed

def text : List Char := "#[ddl(constraint=\"PRIMARY KEY(id)\")]struct A\x7bid:i64\x7d".toList

def origin : Origin := { dialect := .postgres, text }

def setting : List TokenTree :=
  [.token 6 (.word "constraint"), .token 16 (.mark '=' false),
    .token 17 (.literal (.text "PRIMARY KEY(id)") "\"PRIMARY KEY(id)\"")]

def trees : List TokenTree :=
  [.token 0 (.mark '#' false),
    .group 1 35 .bracket [.token 2 (.word "ddl"), .group 5 34 .paren setting],
    .token 36 (.word "struct"), .token 43 (.word "A"),
    .group 44 51 .brace [.token 45 (.word "id"), .token 47 (.mark ':' false), .token 48 (.word "i64")]]

def field : Field where
  attributes := []
  name := "id"
  start := 45
  type := .path false false [.mk "i64" none]
  typeText := "i64"

def struct : Struct where
  attributes := [{ start := 0, name? := some "ddl", body := .list 34 setting }]
  name := "A"
  start := 43
  fields? := some [field]

def draft : TableDraft where
  name := "a"
  columns := [{ name := "id", type := { base := .bigInt } }]
  primaryKeys := [{ columns := ["id"], kind := .primaryKey }]

set_option maxRecDepth 4000 in
theorem parsed : File.parse (content origin.text) = .ok { items := [.struct struct] } :=
  parsed_in_steps text trees _ (by decide +kernel) (by cbv)

theorem lists : TableSettings.Lists {} struct.attributes [⟨"constraint", 17, "PRIMARY KEY(id)"⟩] := by
  have held : Entries setting [⟨"constraint", 17, "PRIMARY KEY(id)"⟩] :=
    .last ⟨"constraint", 17, "PRIMARY KEY(id)"⟩ setting
      (.spelled 6 16 false "\"PRIMARY KEY(id)\"")
  refine ⟨⟨[[⟨"constraint", 17, "PRIMARY KEY(id)"⟩]], .cons ⟨34, setting, rfl, held⟩ .nil, rfl⟩, ?_⟩
  simpa using TableSettings.Valid.constraint ⟨17, "PRIMARY KEY(id)"⟩

end Keyed

theorem fragment_gives_key :
    Keyed.origin.parse (content Keyed.origin.text) = .ok { items := [.struct Keyed.struct] } ∧
    Keyed.struct.fields? = some [Keyed.field] ∧ Keyed.field.flagged {} = false ∧
    (∀ names, ¬ Keyed.struct.ListsKey {} names) ∧ Keyed.origin.read = .ok [Keyed.draft] ∧
    Keyed.draft.primaryKeys = [{ columns := ["id"], kind := .primaryKey }] := by
  refine ⟨Keyed.parsed, rfl, by decide, ?_, ok_of_option _ _ (by decide +kernel), rfl⟩
  rintro names ⟨entries, lists, listed⟩
  rw [TableSettings.entries_unique {} _ entries _ lists Keyed.lists] at listed
  simp [TableSettings.ofEntries, TableSettings.values, TableSettings.texts] at listed

end SchemaDrift.Code
