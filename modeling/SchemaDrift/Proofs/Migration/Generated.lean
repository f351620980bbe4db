import SchemaDrift.Migration.Basic
import SchemaDrift.Proofs.Ddl.Legible
import SchemaDrift.Proofs.Migration.Loaded
import SchemaDrift.Proofs.Plan.Empty
/-!
The statements that are generated for a source, compared with the source again. There is nothing to
do if they are read back, for which it is enough that the texts in the canonical image are legible;
names that are words of the grammar can keep them from it.
-/

set_option autoImplicit false

namespace SchemaDrift

theorem planned_images (dialect : Dialect) (source destination : Schema) (plan : Plan)
    (planned : diff dialect source destination = .ok plan) : ∃ S D,
      dialect.canonicalize source = .ok S ∧ dialect.canonicalize destination = .ok D := by
  obtain ⟨S, first, rest⟩ := (bind_ok _ _ _).mp planned
  obtain ⟨D, second, _⟩ := (bind_ok _ _ _).mp rest
  exact ⟨S, D, (map_error_ok _ _ _).mp first, (map_error_ok _ _ _).mp second⟩

theorem loaded_diff (settings : Settings) (workspace : Workspace) (source destination : Source)
    (desired : Schema) (plan : Plan) (loaded : source.load settings workspace = .ok desired) :
    settings.diff workspace source destination = .ok plan ↔ ∃ current,
      destination.load settings workspace = .ok current ∧
        diff settings.dialect desired current = .ok plan := by
  unfold Settings.diff
  simp only [bind_ok, map_error_ok, loaded, Except.ok.injEq, exists_eq_left']

theorem generated_diffs_clean_iff (settings : Settings) (workspace : Workspace) (source : Source)
    (schema : Schema) (text : String) (loaded : source.load settings workspace = .ok schema)
    (generated : settings.generate workspace source = .ok text) :
    settings.diff workspace source (.ddlText text) = .ok {} ↔ settings.dialect.ReadsBack schema := by
  have valid := load_validated settings workspace source schema loaded
  have printed : settings.dialect.printSchema schema = .ok text := by
    obtain ⟨same, found, print⟩ := (bind_ok _ _ _).mp generated
    rw [loaded] at found
    cases found
    exact print
  rw [loaded_diff settings workspace source (.ddlText text) schema {} loaded]
  constructor
  · rintro ⟨again, parsed, planned⟩
    obtain ⟨image, copy, first, second⟩ := planned_images settings.dialect schema again {} planned
    exact ⟨text, again, image, copy, printed, parsed, first, second, same_of_empty settings.dialect
      schema again image copy valid (parse_validated _ _ again parsed) first second planned⟩
  · rintro ⟨other, again, image, copy, print, parsed, first, second, same⟩
    rw [printed] at print
    cases print
    have againValid := parse_validated settings.dialect text.toList again parsed
    have imageWf := image_well_formed settings.dialect schema image valid first
    have copyWf := image_well_formed settings.dialect again copy againValid second
    exact ⟨again, parsed, empty_of_same settings.dialect schema again image copy valid againValid first
      second ((schema_equivalent_iff copy image copyWf imageWf).mp same).symm⟩

-- Generated statements give no work if the texts of the canonical image are legible: names, defaults
-- and checks, and definitions that are written as they stand.
theorem generated_diffs_clean (settings : Settings) (workspace : Workspace) (source : Source)
    (schema : Schema) (text : String) (loaded : source.load settings workspace = .ok schema)
    (generated : settings.generate workspace source = .ok text) :
    ∃ image, settings.dialect.canonicalize schema = .ok image ∧
      ((∀ t ∈ image.tables, settings.dialect.Legible t) →
        settings.diff workspace source (.ddlText text) = .ok {}) := by
  have valid := load_validated settings workspace source schema loaded
  have writable := load_writable settings workspace source schema loaded
  obtain ⟨same, found, print⟩ := (bind_ok _ _ _).mp generated
  rw [loaded] at found
  cases found
  obtain ⟨image, canonical, _⟩ := (bind_ok _ _ _).mp print
  obtain ⟨_, _, back⟩ := legible_read_back settings.dialect schema image valid canonical writable
  refine ⟨image, canonical, fun legible => ?_⟩
  exact (generated_diffs_clean_iff settings workspace source schema text loaded generated).mpr
    (back legible)

-- Notes whose state is defined as it stands, and what Spanner is told to create for them.
namespace Notes

def settings : Settings := { dialect := .spanner }

def source : Source := .rustText
  ("struct Note \x7b #[pk] id: i64, #[ddl = \"STRING(80) NOT NULL DEFAULT ('new')\"] state: String, "
    ++ "title: Option<String> \x7d")

def state : ColumnFragment where
  type := { base := .varchar, length := some (.fixed 80) }
  nullable := false
  default := some "'new'"

def note : Table where
  name := "note"
  columns :=
    [{ name := "id", type := { base := .bigInt }, annotations := [("pk", "true")] },
      { state.named "state" with
        annotations := [("ddl", "STRING(80) NOT NULL DEFAULT ('new')")]
        rawDefinition := some "STRING(80) NOT NULL DEFAULT ('new')" },
      { name := "title", type := { base := .text }, nullable := true }]
  primaryKey := some (.primaryKey ["id"])
  ordinal := 0

def schema : Schema where
  tables := [note]

def script : String :=
  "CREATE TABLE note (\n    id INT64 NOT NULL,\n    state STRING(80) NOT NULL DEFAULT ('new'),\n"
    ++ "    title STRING(MAX)\n) PRIMARY KEY (id);\n"

def keyed : String := "struct Note { #[pk] id: i64, key: Option<String> }"

def keyedScript : String :=
  "CREATE TABLE note (\n    id INT64 NOT NULL,\n    key STRING(MAX)\n) PRIMARY KEY (id);\n"

end Notes

theorem notes_diff_clean :
    Notes.source.load Notes.settings {} = .ok Notes.schema ∧
      Notes.settings.generate {} Notes.source = .ok Notes.script ∧
        Notes.settings.diff {} Notes.source (.ddlText Notes.script) = .ok {} := by
  have loaded : Notes.source.load Notes.settings {} = .ok Notes.schema := by decide +kernel
  have generated : Notes.settings.generate {} Notes.source = .ok Notes.script := by decide +kernel
  have canonical : Dialect.spanner.canonicalize Notes.schema = .ok Notes.schema :=
    ok_of_option _ _ (by decide +kernel)
  obtain ⟨image, same, clean⟩ := generated_diffs_clean Notes.settings {} Notes.source Notes.schema
    Notes.script loaded generated
  rw [show Notes.settings.dialect = .spanner from rfl, canonical] at same
  cases same
  have apart : Dialect.spanner.NamesApart Notes.note := by
    refine ⟨fun _ => by decide +kernel, ?_, List.forall_mem_nil _⟩
    simp only [Notes.note, List.forall_mem_cons]
    exact ⟨fun _ => by decide +kernel, fun _ => by decide +kernel, fun _ => by decide +kernel,
      List.forall_mem_nil _⟩
  have read : Dialect.spanner.parseColumn "STRING(80) NOT NULL DEFAULT ('new')".toList
      = .ok Notes.state := ok_of_option _ _ (by decide +kernel)
  have legible : Dialect.spanner.Legible Notes.note := by
    refine ⟨?_, ?_, List.forall_mem_nil _, fun _ => apart⟩
    · simp [Notes.note]
    · simp only [Notes.note, List.forall_mem_cons]
      refine ⟨by simp, ?_, by simp, List.forall_mem_nil _⟩
      rintro raw ⟨⟩
      refine ⟨by decide +kernel, ⟨Notes.state, read, rfl⟩, ?_⟩
      exact ok_of_option _ _ (by decide +kernel)
  exact ⟨loaded, generated, clean (List.forall_mem_singleton.mpr legible)⟩

-- Spanner does not quote `key`, and a definition that starts with it is read as one of an index.
theorem key_column_is_refused : ¬∀ settings workspace text generated,
    Settings.check settings = .ok settings →
    settings.generate workspace (.rustText text) = .ok generated →
    settings.diff workspace (.rustText text) (.ddlText generated) = .ok {} := by
  intro always
  have generated : Notes.settings.generate {} (.rustText Notes.keyed) = .ok Notes.keyedScript := by
    decide +kernel
  have refused : (Notes.settings.diff {} (.rustText Notes.keyed) (.ddlText Notes.keyedScript)).isOk
      = false := by
    decide +kernel
  rw [always Notes.settings {} Notes.keyed Notes.keyedScript (by decide +kernel) generated] at refused
  cases refused

end SchemaDrift
