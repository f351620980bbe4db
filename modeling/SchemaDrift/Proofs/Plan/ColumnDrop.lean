import SchemaDrift.Proofs.Plan.Kept
import SchemaDrift.Proofs.Plan.Reference
/-!
When the drop of a column can be replayed. The columns dropped before may leave the table with this
one only, and a check that stays may name it; nothing else is in the way.
-/

set_option autoImplicit false

namespace SchemaDrift

/-! ### Columns are dropped before others are added -/

theorem column_stage_order (dialect : Dialect) (cur des : Table) (ops : List Operation)
    (staged : Diff.columnStage dialect cur des = .ok ops) :
    ops.Pairwise fun a b => a.addedNames = 0 ∨ b.droppedNames = 0 := by
  obtain ⟨changes, rfl, altered, _⟩ := column_stage_ok dialect cur des ops staged
  have drops : ∀ op ∈ Diff.columnDrops cur des, op.addedNames = 0 := by
    intro op member
    obtain ⟨c, _, rfl⟩ := List.mem_map.mp member
    rfl
  have alters : ∀ op ∈ changes, op.addedNames = 0 := by
    intro op member
    obtain ⟨_, _, _, _, _, rfl⟩ := altered op member
    rfl
  have adds : ∀ op ∈ Diff.columnAdditions cur des, op.droppedNames = 0 := by
    intro op member
    obtain ⟨c, _, rfl⟩ := List.mem_map.mp member
    rfl
  have first : ∀ op ∈ Diff.columnDrops cur des ++ changes, op.addedNames = 0 :=
    List.forall_mem_append.mpr ⟨drops, alters⟩
  refine List.pairwise_append.mpr ⟨?_, ?_, fun a ma b _ => .inl (first a ma)⟩
  · exact List.pairwise_of_forall_mem_list fun a ma b _ => .inl (first a ma)
  · exact List.pairwise_of_forall_mem_list fun a _ b mb => .inr (adds b mb)

theorem table_stages_order (dialect : Dialect) (cur des : Table) (stages : Stages)
    (staged : Diff.tableStages dialect cur des = .ok stages) :
    stages.operations.Pairwise fun a b => a.addedNames = 0 ∨ b.droppedNames = 0 := by
  obtain ⟨changes, columns, alike⟩ := column_operations dialect cur des stages staged
    (Option.guard (·.subject = .column)) fun op other => by simp [Option.guard, other]
  have own : ∀ op ∈ changes, op.subject = .column := fun op member =>
    stage_three_subject op (column_stage_turns dialect cur des changes columns op member).1
  have columnPart : stages.operations.filter (·.subject = .column) = changes := by
    rw [List.filterMap_eq_filter] at alike
    rw [alike]
    exact List.filter_eq_self.mpr fun op member => by simpa using own op member
  have order := column_stage_order dialect cur des changes columns
  rw [← columnPart, List.pairwise_filter] at order
  refine order.imp fun {a b} both => ?_
  by_cases first : a.subject = .column
  · by_cases second : b.subject = .column
    · exact both (by simpa using first) (by simpa using second)
    · exact .inr (Account.names.apart b second).1
  · exact .inl (Account.names.apart a first).2

theorem remaining_columns (dialect : Dialect) (front ops : List Operation) (n x : String)
    (cur des u : Table) (stages : Stages) (curWf : cur.WellFormed) (desWf : des.WellFormed)
    (staged : Diff.tableStages dialect cur des = .ok stages)
    (whole : stages.operations = front.filter (·.table = n) ++ .dropColumn n x :: ops)
    (run : cur.Run (front.filter (·.table = n)) u) (name : String) :
    name ∈ u.columnNames ↔ name ∈ cur.columnNames ∧ .dropColumn n name ∉ front := by
  have order := table_stages_order dialect cur des stages staged
  have owes := table_stages_owe dialect cur des stages curWf desWf staged
  rw [whole] at order owes
  have unadded : total Operation.addedNames (front.filter (·.table = n)) = 0 :=
    total_empty _ _ fun o member => by
      refine ((List.pairwise_append.mp order).2.2 o member _ List.mem_cons_self).resolve_right ?_
      exact Multiset.singleton_ne_zero x
  have balance := run_balance Account.names cur u curWf _ _ _ run owes.names
  simp only [Account.names, unadded, add_zero] at balance
  have dropped : name ∈ total Operation.droppedNames (front.filter (·.table = n)) ↔
      .dropColumn n name ∈ front := by
    rw [mem_total]
    constructor
    · rintro ⟨o, member, own⟩
      obtain ⟨inside, table⟩ := List.mem_filter.mp member
      cases o with
      | dropColumn m gone =>
          have same : m = n := of_decide_eq_true table
          rw [← same, show name = gone from Multiset.mem_singleton.mp own]
          exact inside
      | _ => cases own
    · intro inside
      exact ⟨_, List.mem_filter.mpr ⟨inside, decide_eq_true rfl⟩,
        Multiset.mem_singleton_self name⟩
  have disjoint := (Multiset.nodup_add.mp
    (balance ▸ Multiset.coe_nodup.mpr curWf.sound.columnsDistinct)).2.2
  rw [← Multiset.mem_coe, ← Multiset.mem_coe (l := cur.columnNames), ← dropped, ← balance,
    Multiset.mem_add]
  constructor
  · exact fun present => ⟨.inl present, fun gone => Multiset.disjoint_left.mp disjoint present gone⟩
  · rintro ⟨either, kept⟩
    exact either.resolve_right kept

theorem remaining_column (dialect : Dialect) (front ops : List Operation) (n x : String)
    (cur des u : Table) (stages : Stages) (curWf : cur.WellFormed) (desWf : des.WellFormed)
    (staged : Diff.tableStages dialect cur des = .ok stages)
    (whole : stages.operations = front.filter (·.table = n) ++ .dropColumn n x :: ops)
    (run : cur.Run (front.filter (·.table = n)) u) :
    (∃ y ∈ u.columns, y.name ≠ x) ↔
      ∃ y ∈ cur.columns, y.name ≠ x ∧ .dropColumn n y.name ∉ front := by
  have remains := remaining_columns dialect front ops n x cur des u stages curWf desWf staged
    whole run
  constructor
  · rintro ⟨y, member, other⟩
    obtain ⟨old, kept⟩ := (remains y.name).mp (List.mem_map_of_mem member)
    obtain ⟨z, inside, same⟩ := List.mem_map.mp old
    exact ⟨z, inside, by rw [same]; exact other, by rw [same]; exact kept⟩
  · rintro ⟨y, member, other, kept⟩
    obtain ⟨z, inside, same⟩ := List.mem_map.mp
      ((remains y.name).mpr ⟨List.mem_map_of_mem member, kept⟩)
    exact ⟨z, inside, by rw [same]; exact other⟩

theorem early_ungained (ops : List Operation) (early : ∀ o ∈ ops, o.stage ≤ 3) :
    ops.filterMap Operation.gained? = [] := by
  refine List.filterMap_eq_nil_iff.mpr fun o member => ?_
  have before := early o member
  cases o with
  | addConstraint n c =>
      simp only [Operation.stage] at before
      split at before <;> omega
  | _ => rfl

/-! ### What stands in the way -/

theorem lists_spared (existing names : List String) (x : String) (lists : Lists existing names)
    (spared : x ∉ names) : Lists (existing.filter (· ≠ x)) names := by
  refine ⟨lists.1, lists.2.1, fun name member => List.mem_filter.mpr ⟨lists.2.2 name member, ?_⟩⟩
  have other : name ≠ x := fun same => spared (same ▸ member)
  simpa using other

theorem fits_without (existing : List String) (x : String) (c : Constraint) (fits : c.Fits existing) :
    c.Fits (existing.filter (· ≠ x)) ↔ x ∉ c.columns := by
  constructor
  · rintro ⟨⟨_, empty⟩ | ⟨_, _, within⟩, _⟩ member
    · rw [empty] at member
      cases member
    · simpa using (List.mem_filter.mp (within x member)).2
  · exact fun spared => ⟨fits.columns.imp_right fun lists => lists_spared existing c.columns x lists
      spared, fits.arity⟩

section Due

variable (u des : Table) (n x : String) (ops : List Operation) (wf : u.WellFormed)
  (desWf : des.WellFormed) (owes : u.Owes (.dropColumn n x :: ops) des)

include owes

theorem drop_column_late : ∀ o ∈ .dropColumn n x :: ops, 2 ≤ o.stage :=
  late_rest u des _ ops 2 owes (by simp [Operation.stage])

theorem dropped_unlisted : x ∉ des.columnNames := owes.serves _ List.mem_cons_self

include wf desWf

theorem dropped_outside_key (key : Constraint) (found : u.primaryKey = some key) :
    x ∉ key.columns := by
  intro listed
  have declared : key ∈ u.declared := List.mem_append.mpr (.inl (by simp [found]))
  obtain ⟨d, wanted, same⟩ :=
    late_declared u des _ owes (drop_column_late u des n x ops owes) key declared
  have columns := same_key u des wf desWf key d found wanted same
  have primary : d.isPrimaryKey = true := by
    rw [← shape_primary_key, same, shape_primary_key,
      wf.placed.keys key (by simp [Table.toDraft, found])]
  have goalKey := declared_key des desWf d wanted primary
  have goalLists := desWf.sound.keys d (by simp [Table.toDraft, goalKey])
  rw [key_columns u key found, key_columns des d goalKey] at columns
  exact dropped_unlisted u des n x ops owes (goalLists.2.2 x (columns ▸ listed))

omit wf in
theorem dropped_outside_indexes (index : Index) (own : index ∈ u.indexes) :
    x ∉ index.columnNames := by
  intro listed
  have balance := late_indexes u des _ owes (drop_column_late u des n x ops owes)
  have present : index.shape ∈ tally Index.shape des.indexes := by
    rw [← balance]
    exact Multiset.mem_add.mpr (.inl ((mem_tally _ _ _).mpr ⟨index, own, rfl⟩))
  obtain ⟨j, wanted, same⟩ := (mem_tally _ _ _).mp present
  have columns : j.columnNames = index.columnNames :=
    congrArg (List.map IndexColumn.name) (Prod.mk.inj same).2
  exact dropped_unlisted u des n x ops owes
    ((desWf.sound.indexes j wanted).2.2 x (columns ▸ listed))

theorem drop_column_sound :
    TableDraft.Sound { u.toDraft with columns := u.toDraft.columns.filter (·.name ≠ x) } ↔
      (∃ y ∈ u.columns, y.name ≠ x) ∧ ∀ k ∈ u.constraints, x ∉ k.columns := by
  have names : TableDraft.columnNames
      { u.toDraft with columns := u.toDraft.columns.filter (·.name ≠ x) }
      = u.columnNames.filter (· ≠ x) := by
    rw [TableDraft.columnNames, Table.columnNames, List.filter_map]
    rfl
  constructor
  · intro sound
    obtain ⟨y, member⟩ := List.exists_mem_of_ne_nil _ sound.inhabited
    obtain ⟨inside, other⟩ := List.mem_filter.mp member
    refine ⟨⟨y, inside, by simpa using other⟩, fun k own => ?_⟩
    have fits := sound.constraints k own
    rw [names] at fits
    exact (fits_without _ x k (wf.sound.constraints k own)).mp fits
  · rintro ⟨⟨y, inside, other⟩, spared⟩
    have sub : (u.columnNames.filter (· ≠ x)).Sublist u.columnNames := List.filter_sublist
    refine ⟨wf.sound.named, ?_, ?_, ?_, wf.sound.singleKey, ?_, ?_, wf.sound.indexesDistinct, ?_⟩
    · exact List.ne_nil_of_mem (List.mem_filter.mpr ⟨inside, by simpa using other⟩)
    · rw [names]
      exact fun empty => wf.sound.columnsNamed (sub.subset empty)
    · rw [names]
      exact wf.sound.columnsDistinct.sublist sub
    · intro key member
      have found : u.primaryKey = some key := by simpa [Table.toDraft] using member
      rw [names]
      exact lists_spared _ _ x (wf.sound.keys key member)
        (dropped_outside_key u des n x ops wf desWf owes key found)
    · intro k own
      rw [names]
      exact (fits_without _ x k (wf.sound.constraints k own)).mpr (spared k own)
    · intro index own
      rw [names]
      exact lists_spared _ _ x (wf.sound.indexes index own)
        (dropped_outside_indexes u des n x ops desWf owes index own)

end Due

section Drop

variable (dialect : Dialect) (source destination reached : Schema) (front rest : List Operation)
  (n x : String) (cut : Cut dialect source destination front (.dropColumn n x :: rest) reached)

include cut

theorem drop_column_resolves (u v des : Table) (found : reached.table? v.name = some u)
    (named : v.name = n) (wanted : source.table? n = some des) (unwanted : x ∉ des.columnNames)
    (names : v.columnNames = u.columnNames.filter (· ≠ x)) (t : Table) (member : t ∈ reached.tables)
    (c : Constraint) (own : c ∈ t.constraints) (r : Reference) (points : c.reference? = some r) :
    (reached.withTable v).Resolves r := by
  have wf := cut_reached dialect source destination reached front _ cut
  refine with_table_resolves reached u v r found (wf.resolved t member c own r points) ?_
  intro target name listed present
  rw [names]
  refine List.mem_filter.mpr ⟨present, ?_⟩
  have second : 2 ≤ (Operation.dropColumn n x).stage := by simp [Operation.stage]
  rcases cut_reference dialect source destination reached front rest _ cut second t member c own r
    points with ⟨s, ⟨goal, looked, columns⟩, same, sameColumns⟩ | ⟨dropped, _⟩
  · rw [same, target, named, wanted] at looked
    cases looked
    have other : name ≠ x := fun gone => unwanted (gone ▸ columns name (sameColumns ▸ listed))
    simpa using other
  · -- Tables are dropped before columns are.
    have late := (cut_stages dialect source destination reached front rest _ cut).2 _ dropped
    simp [Operation.stage] at late

theorem drop_column_iff : ∃ cur des, destination.table? n = some cur ∧ source.table? n = some des ∧
    ((∃ next, reached.applyOne dialect.applyRules (.dropColumn n x) = .ok next) ↔
      (∃ y ∈ cur.columns, y.name ≠ x ∧ .dropColumn n y.name ∉ front) ∧
        ∀ k ∈ Diff.kept cur des, x ∉ k.columns) := by
  obtain ⟨cur, des, u, stages, existed, wanted, found, staged, whole, run, owes⟩ :=
    cut_kept dialect source destination reached front rest _ cut (by simp [Operation.stage])
      (by simp [Operation.stage])
  have wf := cut_reached dialect source destination reached front _ cut
  have payload := cut_payload dialect source destination reached front _ cut (.dropColumn n x) (by simp)
  have uWf := wf.tables u (table_found reached n u found).1
  have curWf := cut.destinationWf.tables cur (table_found destination n cur existed).1
  have desWf := cut.sourceWf.tables des (table_found source n des wanted).1
  have constraints : u.constraints = Diff.kept cur des := by
    have ungained := early_ungained _
      (front_stages dialect source destination reached front rest _ cut n)
    have balance := kept_and_gained dialect cur des stages curWf desWf staged u _ _ whole run
      (drop_column_late u des n x _ owes)
    rw [balance]
    exact (congrArg _ ungained).trans (List.append_nil _)
  have columns := remaining_column dialect front _ n x cur des u stages curWf desWf staged whole run
  refine ⟨cur, des, existed, wanted, ?_⟩
  rw [← columns, ← constraints, ← drop_column_sound u des n x _ uWf desWf owes]
  constructor
  · rintro ⟨next, applied⟩
    obtain ⟨step, _⟩ := (apply_one_iff _ reached next _ wf payload).mp applied
    cases step with
    | change _ t v _ looked becomes =>
        cases found.symm.trans looked
        obtain ⟨draft, changed, sound, _⟩ := becomes
        cases changed with
        | untouched _ whole => cases whole
        | dropColumn => exact sound
  · intro sound
    have becomes : u.Becomes (.dropColumn n x) (TableDraft.toTable
        { u.toDraft with columns := u.toDraft.columns.filter (·.name ≠ x) } 0) :=
      ⟨_, .dropColumn n x (due_column u des _ n x owes), sound, rfl⟩
    generalize made : TableDraft.toTable
      { u.toDraft with columns := u.toDraft.columns.filter (·.name ≠ x) } 0 = v at becomes
    have named : v.name = n := by rw [← made]; exact (table_found reached n u found).2
    have names : v.columnNames = u.columnNames.filter (· ≠ x) := by
      rw [← made, built_column_names, TableDraft.columnNames, Table.columnNames, List.filter_map]
      rfl
    have fits := drop_column_resolves dialect source destination reached front rest n x cut u v des
      (named ▸ found) named wanted (dropped_unlisted u des n x _ owes) names
    refine ⟨reached.withTable v, (apply_one_iff _ reached _ _ wf payload).mpr
      ⟨.change _ u v rfl found becomes, fun t inside c own r points => ?_,
        by simp [Operation.newReferences]⟩⟩
    rcases with_table_mem reached v t inside with same | ⟨old, _⟩
    · rw [same, ← made] at own
      exact fits u (table_found reached n u found).1 c own r points
    · exact fits t old c own r points

end Drop

-- The drop of a column can be carried out unless nothing else is left of the table, since columns
-- are added only afterwards, or a check that stays still names the column.
theorem column_drop_continues_iff (dialect : Dialect) (source destination S D M : Schema)
    (plan : Plan) (front rest : List Operation) (n x : String) (sourceValid : source.Validated)
    (destinationValid : destination.Validated) (sourceImage : dialect.canonicalize source = .ok S)
    (destinationImage : dialect.canonicalize destination = .ok D)
    (planned : diff dialect source destination = .ok plan)
    (parts : plan.operations = front ++ .dropColumn n x :: rest)
    (applied : D.apply dialect.applyRules front = .ok M) :
    ∃ cur des, D.table? n = some cur ∧ S.table? n = some des ∧
      ((∃ next, M.apply dialect.applyRules [.dropColumn n x] = .ok next) ↔
        (∃ y ∈ cur.columns, y.name ≠ x ∧ .dropColumn n y.name ∉ front) ∧
          ∀ k ∈ Diff.kept cur des, x ∉ k.columns) := by
  have cut := cut_of_diff dialect source destination S D M plan front _ sourceValid destinationValid
    sourceImage destinationImage planned parts applied
  simp only [apply_single_ok]
  exact drop_column_iff dialect S D M front rest n x cut

theorem shop_drops_phones : ∃ M,
    Shop.before.apply Dialect.spanner.applyRules (Shop.plan.operations.take 2) = .ok M ∧
      ∃ next, M.apply Dialect.spanner.applyRules [.dropColumn "customer" "phone"] = .ok next := by
  have reached : ∃ M, Shop.before.apply Dialect.spanner.applyRules (Shop.plan.operations.take 2)
      = .ok M := ⟨_, rfl⟩
  obtain ⟨M, applied⟩ := reached
  obtain ⟨cur, des, existed, wanted, condition⟩ := column_drop_continues_iff .spanner Shop.after
    Shop.before Shop.after Shop.before M Shop.plan (Shop.plan.operations.take 2)
    (Shop.plan.operations.drop 3) "customer" "phone" Shop.after_validated Shop.before_validated rfl rfl
    Shop.planned rfl applied
  have old : Shop.customer = cur := Option.some.inj existed
  have new : Shop.renewed = des := Option.some.inj wanted
  subst old new
  refine ⟨M, applied, condition.mpr ⟨⟨Shop.number "id", ?_⟩, ?_⟩⟩ <;> decide

/-! ### A table whose only column is renamed -/

namespace Renaming

def named (column : String) : Schema where
  tables := [{ name := "t", columns := [Shop.number column], ordinal := 0 }]

def plan : Plan where
  operations := [.dropColumn "t" "a", .addColumn "t" (Shop.number "b")]

end Renaming

theorem renaming_stops : (Renaming.named "b").Validated ∧ (Renaming.named "a").Validated ∧
    Dialect.postgres.canonicalize (Renaming.named "a") = .ok (Renaming.named "a") ∧
    diff .postgres (Renaming.named "b") (Renaming.named "a") = .ok Renaming.plan ∧
    (Renaming.named "a").apply Dialect.postgres.applyRules [.dropColumn "t" "a"]
      = .error (.validation "t" .noColumns) :=
  ⟨⟨(Renaming.named "b").toDraft, by decide, rfl⟩, ⟨(Renaming.named "a").toDraft, by decide, rfl⟩,
    rfl, by cbv, rfl⟩

end SchemaDrift
