import SchemaDrift.Proofs.Schema.Frame
/-!
What an operation says about the schema that it is applied to. What it adds must not be there, and
what it takes away must be; but of a column that is altered and of an index that is dropped only the
name is looked at, so a stale description of them passes.
-/

set_option autoImplicit false

namespace SchemaDrift

namespace Operation

-- The schema holds what the operation takes away, as its payload describes it, and nothing by the
-- name of what it adds.
def Fits (schema : Schema) : Operation → Prop
  | createTable table => table.name ∉ schema.tableNames
  | dropTable name => name ∈ schema.tableNames
  | addColumn name column => ∃ t, schema.table? name = some t ∧ column.name ∉ t.columnNames
  | dropColumn name column => ∃ t, schema.table? name = some t ∧ column ∈ t.columnNames
  | alterColumnType name source _ => ∃ t, schema.table? name = some t ∧
      ∃ c, t.column? source.name = some c ∧ source.sameDefinition c = true
  | addConstraint name _ => name ∈ schema.tableNames
  | dropConstraint name c => ∃ t, schema.table? name = some t ∧
      ∃ d ∈ t.primaryKey.toList ++ t.constraints, d.structurallyEq c = true
  | addIndex name index => ∃ t, schema.table? name = some t ∧ index.name ∉ t.indexes.map Index.name
  | dropIndex name index => ∃ t, schema.table? name = some t ∧
      ∃ i ∈ t.indexes, i.name = index.name ∧ i.structurallyEq index = true

def Describes (schema : Schema) : Operation → Prop
  | alterColumnType name source _ => ∀ t, schema.table? name = some t →
      ∀ c, t.column? source.name = some c → source.sameDefinition c = true
  | dropIndex name index => ∀ t, schema.table? name = some t →
      ∀ i ∈ t.indexes, i.name = index.name → i.structurallyEq index = true
  | _ => True

inductive Restates : Operation → Operation → Prop
  | alter (table : String) (source other target : Column) (named : other.name = source.name) :
      Restates (.alterColumnType table source target) (.alterColumnType table other target)
  | dropIndex (table : String) (index other : Index) (named : other.name = index.name) :
      Restates (.dropIndex table index) (.dropIndex table other)

end Operation

theorem column_present (t : Table) (name : String) (present : name ∈ t.columnNames) :
    ∃ c, t.column? name = some c := by
  obtain ⟨c, member, named⟩ := List.mem_map.mp present
  rw [← Option.isSome_iff_exists, Table.column?, List.find?_isSome]
  exact ⟨c, member, by simp [named]⟩

/-! ### What is looked at -/

theorem becomes_fits_iff (schema : Schema) (op : Operation) (t u : Table) (wf : t.WellFormed)
    (inPlace : op.inPlace = true) (found : schema.table? op.table = some t)
    (becomes : t.Becomes op u) : op.Fits schema ↔ op.Describes schema := by
  obtain ⟨draft, changed, sound, _⟩ := becomes
  cases changed with
  | untouched _ whole =>
      rw [inPlace] at whole
      cases whole
  | addColumn name column fresh => exact iff_of_true ⟨t, found, fresh⟩ trivial
  | dropColumn name column present => exact iff_of_true ⟨t, found, present⟩ trivial
  | alterColumn name source target same present =>
      obtain ⟨c, there⟩ := column_present t source.name (same ▸ present)
      constructor
      · rintro ⟨v, found', d, there', fits⟩ s found'' e there''
        cases found'.symm.trans found''
        cases there'.symm.trans there''
        exact fits
      · exact fun describes => ⟨t, found, c, there, describes t found c there⟩
  | addKey name c primary | addConstraint name c other =>
      exact iff_of_true ((has_table_iff schema name).mp ((has_table_some schema name).mpr ⟨t, found⟩))
        trivial
  | dropKey name c rest primary erased =>
      obtain ⟨front, d, back, whole, _, hit, _⟩ := erase_first_some _ _ _ erased
      have member : d ∈ t.primaryKey.toList := by
        rw [show t.primaryKey.toList = front ++ d :: back from whole]
        simp
      exact iff_of_true ⟨t, found, d, List.mem_append.mpr (.inl member), hit⟩ trivial
  | dropConstraint name c rest other erased =>
      obtain ⟨front, d, back, whole, _, hit, _⟩ := erase_first_some _ _ _ erased
      have member : d ∈ t.constraints := by
        rw [show t.constraints = front ++ d :: back from whole]
        simp
      exact iff_of_true ⟨t, found, d, List.mem_append.mpr (.inr member), hit⟩ trivial
  | addIndex name index =>
      have distinct : ((t.indexes ++ [index]).map Index.name).Nodup := sound.indexesDistinct
      rw [List.map_append, List.nodup_append] at distinct
      exact iff_of_true ⟨t, found, fun taken => distinct.2.2 _ taken index.name (by simp) rfl⟩ trivial
  | dropIndex name index present =>
      obtain ⟨i, member, named⟩ := List.mem_map.mp present
      have unique := wf.sound.indexesDistinct
      constructor
      · rintro ⟨v, found', j, inside, own, fits⟩ s found'' k within same
        cases found'.symm.trans found''
        cases found.symm.trans found'
        have alike : j = k := List.inj_on_of_nodup_map unique inside within (own.trans same.symm)
        exact alike ▸ fits
      · exact fun describes => ⟨t, found, i, member, named, describes t found i member named⟩

theorem applied_fits_iff (rules : ApplyRules) (schema next : Schema) (op : Operation)
    (wf : schema.WellFormed) (applied : schema.applyOne rules op = .ok next) :
    op.Fits schema ↔ op.Describes schema := by
  by_cases creates : ∃ t, op = .createTable t
  · obtain ⟨t, rfl⟩ := creates
    exact iff_of_true (create_appends rules schema next wf t applied).1 trivial
  · cases other_step rules schema next wf op creates applied with
    | create t => exact absurd ⟨t, rfl⟩ creates
    | drop name t found _ =>
        exact iff_of_true ((has_table_iff schema name).mp ((has_table_some schema name).mpr ⟨t, found⟩))
          trivial
    | change _ t u inPlace found becomes =>
        have own := (table_found schema op.table t found).1
        exact becomes_fits_iff schema op t u (wf.tables t own) inPlace found becomes

theorem restated_applies (rules : ApplyRules) (schema next : Schema) (op other : Operation)
    (wf : schema.WellFormed) (restates : op.Restates other)
    (applied : schema.applyOne rules op = .ok next) : schema.applyOne rules other = .ok next := by
  obtain ⟨step, resolved, _⟩ := (apply_one_iff rules schema next op wf
    (by cases restates <;> trivial)).mp applied
  rw [apply_one_iff rules schema next other wf (by cases restates <;> trivial)]
  cases restates with
  | alter table source other target named =>
      refine ⟨?_, resolved, by simp [Operation.newReferences]⟩
      cases step with
      | change _ t u _ found becomes =>
          obtain ⟨draft, changed, sound, built⟩ := becomes
          cases changed with
          | untouched _ whole => cases whole
          | alterColumn _ _ _ same present =>
              exact .change _ t u rfl found
                ⟨_, .alterColumn table other target (named.trans same) present, sound, built⟩
  | dropIndex table index other named =>
      refine ⟨?_, resolved, by simp [Operation.newReferences]⟩
      cases step with
      | change _ t u _ found becomes =>
          obtain ⟨draft, changed, sound, built⟩ := becomes
          cases changed with
          | untouched _ whole => cases whole
          | dropIndex _ _ present =>
              have drops : t.toDraft.Changed (.dropIndex table other) _ :=
                .dropIndex table other (named ▸ present)
              rw [named] at drops
              exact .change _ t u rfl found ⟨_, drops, sound, built⟩

-- An operation that is accepted fits the schema, but for what it says of a column that it alters or an
-- index that it drops. What it says of them makes no difference.
theorem accepted_fits_iff (rules : ApplyRules) (schema next : Schema) (op : Operation)
    (valid : schema.Validated) (applied : schema.apply rules [op] = .ok next) :
    (op.Fits schema ↔ op.Describes schema) ∧
      ∀ other, op.Restates other → schema.apply rules [other] = .ok next := by
  have wf := (validated_iff_well_formed schema).mp valid
  rw [apply_single_ok] at applied
  exact ⟨applied_fits_iff rules schema next op wf applied, fun other restates =>
    (apply_single_ok _ _ _ _).mpr (restated_applies rules schema next op other wf restates applied)⟩

namespace Meter

def value (base : BaseType) : Column := { name := "value", type := { base } }

def taken : Column := { name := "taken", type := { base := .timestamp } }

def schema (base : BaseType) (indexes : List Index) : Schema where
  tables := [{ name := "reading", columns := [value base, taken], indexes, ordinal := 0 }]

def recent : Index := .ascending "recent" ["taken"]

def widening (source : BaseType) : Operation :=
  .alterColumnType "reading" (value source) (value .decimal)

def drop (columns : List String) : Operation :=
  .dropIndex "reading" (.ascending "recent" columns)

end Meter

theorem meter_widens :
    (Meter.schema .bigInt [Meter.recent]).Validated ∧
      (Meter.schema .bigInt [Meter.recent]).apply {} [Meter.widening .bigInt]
        = .ok (Meter.schema .decimal [Meter.recent]) ∧
      (Meter.widening .bigInt).Fits (Meter.schema .bigInt [Meter.recent]) ∧
      (Meter.widening .bigInt).Restates (Meter.widening .text) ∧
      (Meter.schema .bigInt [Meter.recent]).apply {} [Meter.widening .text]
        = .ok (Meter.schema .decimal [Meter.recent]) := by
  have valid : (Meter.schema .bigInt [Meter.recent]).Validated :=
    ⟨(Meter.schema .bigInt [Meter.recent]).toDraft, by decide, rfl⟩
  have restates : (Meter.widening .bigInt).Restates (Meter.widening .text) := .alter _ _ _ _ rfl
  obtain ⟨fits, restated⟩ := accepted_fits_iff {} _ (Meter.schema .decimal [Meter.recent])
    (Meter.widening .bigInt) valid rfl
  refine ⟨valid, rfl, fits.mpr ?_, restates, restated _ restates⟩
  rintro t found c there
  cases found
  cases there
  rfl

-- The value was no text, and the index is not one on values.
theorem stale_payloads_pass :
    (Meter.schema .bigInt [Meter.recent]).Validated ∧
      (Meter.schema .bigInt [Meter.recent]).apply {} [Meter.widening .text]
        = .ok (Meter.schema .decimal [Meter.recent]) ∧
      ¬(Meter.widening .text).Fits (Meter.schema .bigInt [Meter.recent]) ∧
      (Meter.schema .bigInt [Meter.recent]).apply {} [Meter.drop ["value"]]
        = .ok (Meter.schema .bigInt []) ∧
      ¬(Meter.drop ["value"]).Fits (Meter.schema .bigInt [Meter.recent]) := by
  refine ⟨⟨(Meter.schema .bigInt [Meter.recent]).toDraft, by decide, rfl⟩, rfl, ?_, rfl, ?_⟩
  · rintro ⟨t, found, c, there, same⟩
    cases found
    cases there
    exact absurd same (by decide)
  · rintro ⟨t, found, i, member, _, same⟩
    cases found
    cases List.mem_singleton.mp member
    exact absurd same (by decide)

end SchemaDrift
