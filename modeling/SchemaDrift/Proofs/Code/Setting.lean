import SchemaDrift.Proofs.Code.Annotation
/-!
What the attributes of a struct say. Between the brackets stand entries, each a name, an equal sign
and a string, with commas between them. The entries of all attributes count as one list.
-/

set_option autoImplicit false

namespace SchemaDrift.Code

structure Entry where
  name : String
  value : Quoted

inductive Entry.Starts (entry : Entry) (rest : List TokenTree) : List TokenTree → Prop
  | spelled (place sign : Nat) (joint : Bool) (written : String) :
      Starts entry rest
        (.token place (.word entry.name) :: .token sign (.mark '=' joint)
          :: .token entry.value.start (.literal (.text entry.value.value) written) :: rest)

-- A comma may also stand behind the last entry.
inductive Entries : List TokenTree → List Entry → Prop
  | nil : Entries [] []
  | last (entry : Entry) (trees : List TokenTree) : entry.Starts [] trees → Entries trees [entry]
  | cons (entry : Entry) (trees : List TokenTree) (comma : Nat) (joint : Bool)
      (rest : List TokenTree) (entries : List Entry) :
      entry.Starts (.token comma (.mark ',' joint) :: rest) trees →
      Entries rest entries → Entries trees (entry :: entries)

def AttributeBody.Holds (body : AttributeBody) (entries : List Entry) : Prop :=
  ∃ finish inner, body = .list finish inner ∧ Entries inner entries

namespace TableSettings

inductive Valid : Entry → Prop
  | table (value : Quoted) : value.value ≠ "" → Valid ⟨"table", value⟩
  | primaryKey (value : Quoted) : fieldNames value.value ≠ [] → Valid ⟨"primary_key", value⟩
  | index (value : Quoted) : Valid ⟨"index", value⟩
  | constraint (value : Quoted) : Valid ⟨"constraint", value⟩

def texts (name : String) (entries : List Entry) : List Quoted :=
  (entries.filter (·.name = name)).map Entry.value

def values (name : String) (entries : List Entry) : List String :=
  (texts name entries).map Quoted.value

-- The last table name and the last key count, and all indexes and constraints.
def ofEntries (entries : List Entry) : TableSettings where
  table := (values "table" entries).getLast?
  primaryKey := (values "primary_key" entries).getLast?.map fieldNames
  indexes := texts "index" entries
  constraints := texts "constraint" entries

theorem texts_snoc (name : String) (front : List Entry) (last : Entry) :
    texts name (front ++ [last]) =
      texts name front ++ if last.name = name then [last.value] else [] := by
  by_cases same : last.name = name <;> simp [texts, same]

/-! ### One entry -/

theorem drop_mark_iff (c : Char) (trees rest : List TokenTree) :
    Look.dropMarks? [c] trees = some rest ↔
      ∃ place joint, trees = .token place (.mark c joint) :: rest := by
  cases trees with
  | nil => simp [Look.dropMarks?]
  | cons tree trees =>
      cases tree with
      | group => simp [Look.dropMarks?]
      | token place found =>
          cases found with
          | mark d joint =>
              by_cases same : c = d
              · simp [Look.dropMarks?, same]
              · simp [Look.dropMarks?, same, Ne.symm same]
          | _ => simp [Look.dropMarks?]

theorem single_segment (finish count : Nat) (trees rest : List TokenTree)
    (dropped : dropSegments finish count trees = .ok (false, rest)) :
    rest = trees := by
  cases count with
  | zero =>
      cases dropped
      rfl
  | succ count =>
      unfold dropSegments at dropped
      split at dropped
      · cases dropped
        rfl
      · obtain ⟨_, _, longer⟩ := (bind_ok _ _ _).mp dropped
        cases longer
      · cases dropped

theorem key_named (finish start : Nat) (name : String) (trees rest : List TokenTree)
    (read : key finish trees = .ok (start, some name, rest)) :
    trees = .token start (.word name) :: rest := by
  unfold key at read
  split at read
  rename_i rooted others state
  split at read
  · cases read
  · obtain ⟨⟨longer, after⟩, segments, read⟩ := (bind_ok _ _ _).mp read
    simp only [Bool.or_eq_true, Except.ok.injEq, Prod.mk.injEq, Option.ite_none_left_eq_some,
      Option.some.injEq, not_or, Bool.not_eq_true] at read
    obtain ⟨rfl, ⟨⟨rfl, rfl⟩, rfl⟩, rfl⟩ := read
    obtain rfl := single_segment finish _ _ _ segments
    split at state
    · cases state
    · cases state
      rfl
  · cases read

theorem single_key (finish place : Nat) (name : String) (rest : List TokenTree)
    (single : Look.dropMarks? "::".toList rest = none) :
    key finish (.token place (.word name) :: rest) = .ok (place, some name, rest) := by
  have segments : dropSegments finish rest.length rest = .ok (false, rest) := by
    cases rest.length with
    | zero => rfl
    | succ count => rw [dropSegments, single]
  have plain : Look.dropMarks? "::".toList (.token place (.word name) :: rest) = none := by
    simp [Look.dropMarks?]
  simp only [key, plain, segments]
  rfl

theorem text_iff (finish : Nat) (trees rest : List TokenTree) (value : Quoted) :
    text finish trees = .ok (value, rest) ↔ ∃ sign joint written,
      trees = .token sign (.mark '=' joint)
        :: .token value.start (.literal (.text value.value) written) :: rest := by
  unfold text
  constructor
  · intro read
    split at read
    · cases read
    · rename_i start string written trees dropped
      cases read
      obtain ⟨sign, joint, rfl⟩ := (drop_mark_iff _ _ _).mp dropped
      exact ⟨sign, joint, written, rfl⟩
    · cases read
  · rintro ⟨sign, joint, written, rfl⟩
    simp [Look.dropMarks?]

theorem add_iff (before next : TableSettings) (entries : List Entry)
    (same : before = ofEntries entries) (start : Nat) (name : Option String)
    (value : Except Problem (Quoted × List TokenTree)) (rest : List TokenTree) :
    before.add start name value = .ok (next, rest) ↔
      ∃ entry : Entry, name = some entry.name ∧ value = .ok (entry.value, rest) ∧ Valid entry ∧
        next = ofEntries (entries ++ [entry]) := by
  subst same
  constructor
  · intro added
    unfold add at added
    split at added
    · obtain ⟨⟨found, _⟩, read, added⟩ := (bind_ok _ _ _).mp added
      dsimp only at added
      split at added
      · cases added
      · rename_i filled
        cases added
        exact ⟨⟨"table", found⟩, rfl, read, .table found filled,
          by simp [ofEntries, values, texts_snoc]⟩
    · obtain ⟨⟨found, _⟩, read, added⟩ := (bind_ok _ _ _).mp added
      dsimp only at added
      split at added
      · cases added
      · rename_i filled
        cases added
        exact ⟨⟨"primary_key", found⟩, rfl, read, .primaryKey found (by simpa using filled),
          by simp [ofEntries, values, texts_snoc]⟩
    · obtain ⟨⟨found, _⟩, read, added⟩ := (bind_ok _ _ _).mp added
      cases added
      exact ⟨⟨"index", found⟩, rfl, read, .index found, by simp [ofEntries, values, texts_snoc]⟩
    · obtain ⟨⟨found, _⟩, read, added⟩ := (bind_ok _ _ _).mp added
      cases added
      exact ⟨⟨"constraint", found⟩, rfl, read, .constraint found, by simp [ofEntries, values, texts_snoc]⟩
    · cases added
  · rintro ⟨entry, rfl, rfl, valid, rfl⟩
    cases valid with
    | table value filled =>
        refine (bind_ok _ _ _).mpr ⟨_, rfl, ?_⟩
        simp [filled, ofEntries, values, texts_snoc]
    | primaryKey value filled =>
        refine (bind_ok _ _ _).mpr ⟨_, rfl, ?_⟩
        simp [filled, ofEntries, values, texts_snoc]
    | index value =>
        refine (bind_ok _ _ _).mpr ⟨_, rfl, ?_⟩
        simp [ofEntries, values, texts_snoc]
    | constraint value =>
        refine (bind_ok _ _ _).mpr ⟨_, rfl, ?_⟩
        simp [ofEntries, values, texts_snoc]

theorem entry_iff (finish : Nat) (trees rest : List TokenTree) (before : List Entry)
    (next : TableSettings) :
    (∃ start name others, key finish trees = .ok (start, name, others) ∧
        (ofEntries before).add start name (text finish others) = .ok (next, rest)) ↔
      ∃ entry : Entry, entry.Starts rest trees ∧ Valid entry ∧ next = ofEntries (before ++ [entry]) := by
  constructor
  · rintro ⟨start, name, others, named, added⟩
    obtain ⟨entry, rfl, read, valid, rfl⟩ := (add_iff _ _ before rfl _ _ _ _).mp added
    obtain rfl := key_named finish start _ trees others named
    obtain ⟨sign, joint, written, rfl⟩ := (text_iff _ _ _ _).mp read
    exact ⟨entry, .spelled start sign joint written, valid, rfl⟩
  · rintro ⟨entry, starts, valid, rfl⟩
    cases starts with
    | spelled place sign joint written =>
        refine ⟨place, some entry.name, _, single_key finish place entry.name _ ?_, ?_⟩
        · cases joint <;> simp [Look.dropMarks?]
        exact (add_iff _ _ before rfl _ _ _ _).mpr
          ⟨entry, rfl, (text_iff _ _ _ _).mpr ⟨sign, joint, written, rfl⟩, valid, rfl⟩

/-! ### The entries of an attribute -/

theorem starts_shorter (entry : Entry) (rest trees : List TokenTree)
    (starts : entry.Starts rest trees) : rest.length < trees.length := by
  cases starts
  simp only [List.length_cons]
  omega

theorem entries_of_nothing (entries : List Entry) (listed : Entries [] entries) : entries = [] := by
  cases listed with
  | nil => rfl
  | last _ _ starts => cases starts
  | cons _ _ _ _ _ _ starts => cases starts

theorem no_entries_iff (before : List Entry) (next : TableSettings) :
    (Except.ok (ofEntries before) : Except Problem TableSettings) = .ok next ↔
      ∃ entries, Entries [] entries ∧ (∀ e ∈ entries, Valid e) ∧
        next = ofEntries (before ++ entries) := by
  constructor
  · intro same
    cases same
    exact ⟨[], .nil, List.forall_mem_nil _, by simp⟩
  · rintro ⟨entries, listed, _, rfl⟩
    rw [entries_of_nothing entries listed, List.append_nil]

theorem add_entries_iff (finish count : Nat) (trees : List TokenTree) (enough : trees.length ≤ count)
    (before : List Entry) (next : TableSettings) :
    addEntries finish count (ofEntries before) trees = .ok next ↔
      ∃ entries, Entries trees entries ∧ (∀ e ∈ entries, Valid e) ∧
        next = ofEntries (before ++ entries) := by
  -- What was read before is in the settings already, so it is kept general.
  induction count generalizing trees before next with
  | zero =>
      obtain rfl := List.length_eq_zero_iff.mp (Nat.le_zero.mp enough)
      exact no_entries_iff before next
  | succ count ih =>
      cases trees with
      | nil => exact no_entries_iff before next
      | cons tree trees =>
          have first := entry_iff finish (tree :: trees)
          unfold addEntries
          constructor
          · intro run
            obtain ⟨⟨start, name, others⟩, named, run⟩ := (bind_ok _ _ _).mp run
            obtain ⟨⟨settings, rest⟩, added, run⟩ := (bind_ok _ _ _).mp run
            obtain ⟨entry, starts, valid, rfl⟩ :=
              (first rest before settings).mp ⟨start, name, others, named, added⟩
            cases rest with
            | nil =>
                cases run
                exact ⟨[entry], .last entry _ starts, by simpa using valid, rfl⟩
            | cons separator rest =>
                dsimp only at run
                split at run
                · rename_i more dropped
                  obtain ⟨comma, joint, same⟩ := (drop_mark_iff _ _ _).mp dropped
                  rw [same] at starts
                  have shorter := starts_shorter entry _ _ starts
                  simp only [List.length_cons] at shorter enough
                  obtain ⟨entries, listed, fine, rfl⟩ :=
                    (ih more (by omega) (before ++ [entry]) next).mp run
                  exact ⟨entry :: entries, .cons entry _ comma joint more entries starts listed,
                    List.forall_mem_cons.mpr ⟨valid, fine⟩, by simp⟩
                · cases run
          · rintro ⟨entries, listed, fine, rfl⟩
            cases listed with
            | last entry _ starts =>
                obtain ⟨start, name, others, named, added⟩ := (first [] before _).mpr
                  ⟨entry, starts, fine entry (by simp), rfl⟩
                exact (bind_ok _ _ _).mpr ⟨_, named, (bind_ok _ _ _).mpr ⟨_, added, rfl⟩⟩
            | cons entry _ comma joint rest entries starts listed =>
                obtain ⟨valid, fine⟩ := List.forall_mem_cons.mp fine
                have shorter := starts_shorter entry _ _ starts
                simp only [List.length_cons] at shorter enough
                obtain ⟨start, name, others, named, added⟩ := (first _ before _).mpr
                  ⟨entry, starts, valid, rfl⟩
                refine (bind_ok _ _ _).mpr ⟨_, named, (bind_ok _ _ _).mpr ⟨_, added, ?_⟩⟩
                simp only [(drop_mark_iff _ _ _).mpr ⟨comma, joint, rfl⟩]
                exact (ih rest (by omega) (before ++ [entry]) _).mpr
                  ⟨entries, listed, fine, by simp⟩

/-! ### The entries of a struct -/

theorem add_attribute_iff (keys : AnnotationKeys) (start : Option TableSettings)
    (before : List Entry) (same : start.getD {} = ofEntries before) (found : Attribute)
    (named : found.name? = some keys.ddl) (next : Option TableSettings) :
    addAttribute keys start found = .ok next ↔
      ∃ entries, found.body.Holds entries ∧ (∀ e ∈ entries, Valid e) ∧
        next = some (ofEntries (before ++ entries)) := by
  rw [addAttribute, if_pos named]
  cases body : found.body with
  | list finish inner =>
      dsimp only
      rw [same]
      refine (map_ok _ _ _).trans ?_
      constructor
      · rintro ⟨settings, added, rfl⟩
        obtain ⟨entries, listed, fine, rfl⟩ :=
          (add_entries_iff finish _ inner le_rfl before settings).mp added
        exact ⟨entries, ⟨finish, inner, rfl, listed⟩, fine, rfl⟩
      · rintro ⟨entries, ⟨_, _, same, listed⟩, fine, rfl⟩
        cases same
        exact ⟨_, (add_entries_iff finish _ inner le_rfl before _).mpr ⟨entries, listed, fine, rfl⟩,
          rfl⟩
  | _ => simp [AttributeBody.Holds]

theorem fold_attributes_iff (keys : AnnotationKeys) (attributes : List Attribute)
    (start : Option TableSettings) (before : List Entry) (same : start.getD {} = ofEntries before)
    (found : Option TableSettings) :
    attributes.foldlM (addAttribute keys) start = .ok found ↔
      ∃ lists, List.Forall₂ AttributeBody.Holds (under keys.ddl attributes) lists ∧
        (∀ e ∈ lists.flatten, Valid e) ∧ found = if (under keys.ddl attributes).isEmpty then start
          else some (ofEntries (before ++ lists.flatten)) := by
  induction attributes generalizing start before with
  | nil =>
      simp only [under, List.filter_nil, List.map_nil, List.forall₂_nil_left_iff]
      constructor
      · intro run
        cases run
        exact ⟨[], rfl, List.forall_mem_nil _, rfl⟩
      · rintro ⟨_, rfl, _, rfl⟩
        rfl
  | cons head attributes ih =>
      rw [List.foldlM_cons, bind_ok]
      by_cases named : head.name? = some keys.ddl
      · have listed : under keys.ddl (head :: attributes) =
            head.body :: under keys.ddl attributes := by simp [under, named]
        have absorbed (entries : List Entry) (lists : List (List Entry))
            (held : List.Forall₂ AttributeBody.Holds (under keys.ddl attributes) lists) :
            (if (under keys.ddl attributes).isEmpty then some (ofEntries (before ++ entries))
              else some (ofEntries (before ++ entries ++ lists.flatten))) =
              some (ofEntries (before ++ (entries :: lists).flatten)) := by
          split
          · rename_i empty
            rw [List.isEmpty_iff.mp empty] at held
            cases held
            simp
          · simp
        simp only [listed, List.isEmpty_cons, Bool.false_eq_true, if_false]
        constructor
        · rintro ⟨next, added, run⟩
          obtain ⟨entries, holds, valid, rfl⟩ :=
            (add_attribute_iff keys start before same head named next).mp added
          obtain ⟨lists, held, others, rfl⟩ := (ih _ (before ++ entries) rfl).mp run
          exact ⟨entries :: lists, .cons holds held, List.forall_mem_append.mpr ⟨valid, others⟩,
            absorbed entries lists held⟩
        · rintro ⟨_, all, valid, rfl⟩
          obtain ⟨entries, lists, holds, held, rfl⟩ := List.forall₂_cons_left_iff.mp all
          obtain ⟨valid, others⟩ := List.forall_mem_append.mp valid
          exact ⟨_, (add_attribute_iff keys start before same head named _).mpr
              ⟨entries, holds, valid, rfl⟩,
            (ih _ (before ++ entries) rfl).mpr
              ⟨lists, held, others, (absorbed entries lists held).symm⟩⟩
      · have skipped : under keys.ddl (head :: attributes) = under keys.ddl attributes := by
          simp [under, named]
        rw [skipped, ← ih start before same]
        simp [addAttribute, named]

structure Lists (keys : AnnotationKeys) (attributes : List Attribute) (entries : List Entry) :
    Prop where
  held : ∃ lists, List.Forall₂ AttributeBody.Holds (under keys.ddl attributes) lists ∧
    entries = lists.flatten
  valid : ∀ e ∈ entries, Valid e

theorem settings_iff (keys : AnnotationKeys) (attributes : List Attribute)
    (found : Option TableSettings) :
    ofAttributes keys attributes = .ok found ↔ ∃ entries, Lists keys attributes entries ∧
      found = if (under keys.ddl attributes).isEmpty then none else some (ofEntries entries) := by
  refine (fold_attributes_iff keys attributes none [] rfl found).trans ?_
  constructor
  · rintro ⟨lists, held, valid, same⟩
    exact ⟨lists.flatten, ⟨⟨lists, held, rfl⟩, valid⟩, same⟩
  · rintro ⟨entries, ⟨⟨lists, held, rfl⟩, valid⟩, same⟩
    exact ⟨lists, held, valid, same⟩

theorem no_entries (keys : AnnotationKeys) (attributes : List Attribute)
    (empty : (under keys.ddl attributes).isEmpty = true) (entries : List Entry)
    (lists : Lists keys attributes entries) : entries = [] := by
  obtain ⟨⟨held, listed, rfl⟩, _⟩ := lists
  rw [List.isEmpty_iff.mp empty] at listed
  cases listed
  rfl

theorem entries_unique (keys : AnnotationKeys) (attributes : List Attribute)
    (entries others : List Entry) (lists : Lists keys attributes entries)
    (again : Lists keys attributes others) : ofEntries entries = ofEntries others := by
  cases empty : (under keys.ddl attributes).isEmpty with
  | true =>
      rw [no_entries keys attributes empty entries lists,
        no_entries keys attributes empty others again]
  | false =>
      have read := (settings_iff keys attributes _).mpr ⟨entries, lists, rfl⟩
      rw [(settings_iff keys attributes _).mpr ⟨others, again, rfl⟩] at read
      simpa [empty] using read.symm

end TableSettings

end SchemaDrift.Code
