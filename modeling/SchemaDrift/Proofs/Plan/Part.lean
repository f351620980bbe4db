import SchemaDrift.Proofs.Plan.Order
import SchemaDrift.Proofs.Plan.Table
import SchemaDrift.Proofs.Schema.Lookup
/-!
The part of a plan that concerns one table. It depends on whether the table exists before, after, or
both, and no operation of the plan stands outside these parts.
-/

set_option autoImplicit false

namespace SchemaDrift

open CreationOrder Stages

def Operation.created? : Operation → Option Table
  | createTable table => some table
  | _ => none

-- What a table loses before it is dropped itself.
def Diff.leaving (dialect : Dialect) (dropped : String → Bool) (table : Table) : List Operation :=
  (blocking dropped table).map (.dropConstraint table.name)
    ++ if dialect.dropsIndexesWithTable then [] else table.indexes.map (.dropIndex table.name)

def Diff.deferred (pending : String → Bool) (table : Table) : List Operation :=
  (blocking pending table).map (.addConstraint table.name)

-- The operations on a table, given the table before and after.
inductive TablePlan (dialect : Dialect) (dropped : String → Bool) :
    Option Table → Option Table → List Operation → Prop
  | unknown : TablePlan dialect dropped none none []
  | kept (cur des : Table) (stages : Stages) (staged : Diff.tableStages dialect cur des = .ok stages) :
      TablePlan dialect dropped (some cur) (some des) stages.operations
  | dropped (cur : Table) : TablePlan dialect dropped (some cur) none
      (Diff.leaving dialect dropped cur ++ [.dropTable cur.name])
  | created (des : Table) (pending : String → Bool) : TablePlan dialect dropped none (some des)
      (.createTable (without des (blocking pending des)) :: Diff.deferred pending des)

/-! ### The three groups of stages -/

def Diff.creation (turn : Table × (String → Bool)) : Stages where
  creations := [.createTable (without turn.1 (blocking turn.2 turn.1))]
  foreignKeyAdditions := Diff.deferred turn.2 turn.1

theorem creation_stages_concat (tables : List Table) : ∃ turns,
    Arranged (tables.map Table.name) [] tables turns (creationOrder tables) ∧
      Diff.creationStages tables = concat (turns.map Diff.creation) := by
  obtain ⟨turns, arranged⟩ := of_remaining_arranged (tables.map Table.name) [] tables
  refine ⟨turns, arranged, ?_⟩
  have joined : concat (turns.map Diff.creation) =
      { creations := (turns.map fun turn => without turn.1 (blocking turn.2 turn.1)).map .createTable
        foreignKeyAdditions := turns.flatMap fun turn =>
          (blocking turn.2 turn.1).map (.addConstraint turn.1.name) } := by
    clear arranged
    induction turns with
    | nil => rfl
    | cons turn turns ih =>
        change Diff.creation turn ++ concat (turns.map Diff.creation) = _
        rw [ih]
        rfl
  rw [joined, ← arranged.placed, ← arranged.deferred]
  rfl

theorem foreign_key_filtered (table : Table) (pending : String → Bool) (c : Constraint)
    (member : c ∈ blocking pending table) : c ∈ table.constraints ∧ c.isForeignKey = true := by
  obtain ⟨key, _⟩ := List.mem_filter.mp member
  exact List.mem_filter.mp key

theorem creation_all (turn : Table × (String → Bool)) :
    (Diff.creation turn).All fun i op => op.stage = i ∧ op.table = turn.1.name := by
  constructor
  case creations =>
    intro op member
    rw [List.mem_singleton.mp member]
    exact ⟨rfl, rfl⟩
  case foreignKeyAdditions =>
    intro op member
    obtain ⟨c, inside, rfl⟩ := List.mem_map.mp member
    exact ⟨by simp [Operation.stage, (foreign_key_filtered _ _ c inside).2], rfl⟩
  all_goals simp [Diff.creation]

theorem drop_stages_all (dialect : Dialect) (dropped : String → Bool) (table : Table) :
    (Diff.dropStages dialect dropped table).All fun i op => op.stage = i ∧ op.table = table.name := by
  constructor
  case foreignKeyDrops =>
    intro op member
    obtain ⟨c, inside, rfl⟩ := List.mem_map.mp member
    exact ⟨by simp [Operation.stage, (foreign_key_filtered table dropped c inside).2], rfl⟩
  case drops =>
    intro op member
    dsimp only [Diff.dropStages] at member
    split at member
    · cases member
    · obtain ⟨index, _, rfl⟩ := List.mem_map.mp member
      exact ⟨rfl, rfl⟩
  case tableDrops =>
    intro op member
    rw [List.mem_singleton.mp member]
    exact ⟨rfl, rfl⟩
  all_goals simp [Diff.dropStages]

theorem drop_stages_operations (dialect : Dialect) (dropped : String → Bool) (table : Table) :
    (Diff.dropStages dialect dropped table).operations
      = Diff.leaving dialect dropped table ++ [.dropTable table.name] := by
  simp only [operations, Diff.dropStages, Diff.leaving, List.append_nil]
  rfl

section Whole

variable (dialect : Dialect) (source destination : Schema) (stages : Stages)
  (sourceWf : source.WellFormed) (destinationWf : destination.WellFormed)

def Diff.droppedNames (source destination : Schema) (name : String) : Bool :=
  destination.hasTable name && !source.hasTable name

def Diff.newTables (source destination : Schema) : List Table :=
  source.tables.filter (!destination.hasTable ·.name)

def Diff.Common (dialect : Dialect) (destination : Schema) (des : Table) (stages : Stages) : Prop :=
  (∃ cur, destination.table? des.name = some cur ∧ Diff.tableStages dialect cur des = .ok stages) ∨
    destination.table? des.name = none ∧ stages = {}

theorem stages_ok (staged : Diff.stages dialect source destination = .ok stages) :
    ∃ each, stages = Diff.creationStages (Diff.newTables source destination)
        ++ concat ((destination.tables.filter (Diff.droppedNames source destination ·.name)).map
          (Diff.dropStages dialect (Diff.droppedNames source destination)))
        ++ concat each ∧
      List.Forall₂ (Diff.Common dialect destination) source.tables each := by
  obtain ⟨each, common, same⟩ := (bind_ok _ _ _).mp staged
  cases same
  refine ⟨each, rfl, ((map_m_ok _ _ _).mp common).imp fun des s made => ?_⟩
  cases found : destination.table? des.name with
  | none =>
      rw [found] at made
      cases made
      exact .inr ⟨found, rfl⟩
  | some cur =>
      rw [found] at made
      exact .inl ⟨cur, found, made⟩

include sourceWf destinationWf

theorem common_all (des : Table) (member : des ∈ source.tables) (s : Stages)
    (common : Diff.Common dialect destination des s) :
    s.All fun i op => op.stage = i ∧ op.table = des.name ∧ op.subject ≠ .table := by
  rcases common with ⟨cur, found, staged⟩ | ⟨_, rfl⟩
  · obtain ⟨inside, _⟩ := table_found destination des.name cur found
    refine all_mono _ _ s (table_stages_turn dialect cur des s (destinationWf.tables cur inside)
      (sourceWf.tables des member) staged) fun i op facts => ⟨facts.1, facts.2.1, fun about => ?_⟩
    have turn := facts.2.2
    cases op with
    | createTable | dropTable => exact turn
    | _ => cases about
  · exact all_empty _

theorem stages_all (staged : Diff.stages dialect source destination = .ok stages) :
    stages.All fun i op => op.stage = i := by
  obtain ⟨each, rfl, pairs⟩ := stages_ok dialect source destination stages staged
  obtain ⟨turns, _, joined⟩ := creation_stages_concat (Diff.newTables source destination)
  refine all_append _ _ _ (all_append _ _ _ ?_ ?_) ?_
  · rw [joined]
    refine all_concat _ _ fun s member => ?_
    obtain ⟨turn, _, rfl⟩ := List.mem_map.mp member
    exact all_mono _ _ _ (creation_all turn) fun _ _ facts => facts.1
  · refine all_concat _ _ fun s member => ?_
    obtain ⟨table, _, rfl⟩ := List.mem_map.mp member
    exact all_mono _ _ _ (drop_stages_all dialect _ table) fun _ _ facts => facts.1
  · refine all_concat _ _ fun s member => ?_
    obtain ⟨des, inside, common⟩ := partner_of_right _ _ _ pairs s member
    exact all_mono _ _ _ (common_all dialect source destination sourceWf destinationWf des inside s
      common) fun _ _ facts => facts.1

/-! ### One table -/

omit sourceWf in
theorem drops_on (name : String) :
    (concat ((destination.tables.filter (Diff.droppedNames source destination ·.name)).map
      (Diff.dropStages dialect (Diff.droppedNames source destination)))).on name =
      match destination.table? name with
      | some cur => if source.hasTable name then {}
        else Diff.dropStages dialect (Diff.droppedNames source destination) cur
      | none => {} := by
  have own (table : Table) : All (fun _ op => op.table = table.name)
      (Diff.dropStages dialect (Diff.droppedNames source destination) table) :=
    all_mono _ _ _ (drop_stages_all dialect _ table) fun _ _ facts => facts.2
  have pairs (tables : List Table) : List.Forall₂ (fun table s => s =
      Diff.dropStages dialect (Diff.droppedNames source destination) table) tables
      (tables.map (Diff.dropStages dialect (Diff.droppedNames source destination))) := by
    simp [List.forall₂_map_right_iff, List.forall₂_same]
  have absent (missing : name ∉ (destination.tables.filter
      (Diff.droppedNames source destination ·.name)).map Table.name) :=
    on_concat_absent name Table.name _ _ _ (pairs _) (fun table _ s same => same ▸ own table) missing
  cases found : destination.table? name with
  | none =>
      refine absent fun member => ?_
      obtain ⟨table, inside, named⟩ := List.mem_map.mp member
      refine (table_none_iff destination name).mp found ?_
      exact List.mem_map.mpr ⟨table, (List.mem_filter.mp inside).1, named⟩
  | some cur =>
      obtain ⟨inside, named⟩ := table_found destination name cur found
      cases kept : source.hasTable name with
      | true =>
          refine absent fun member => ?_
          obtain ⟨table, filtered, same⟩ := List.mem_map.mp member
          have gone := (List.mem_filter.mp filtered).2
          simp [Diff.droppedNames, same, kept] at gone
      | false =>
          have dropped : cur ∈ destination.tables.filter
              (Diff.droppedNames source destination ·.name) := by
            refine List.mem_filter.mpr ⟨inside, ?_⟩
            simp [Diff.droppedNames, named, kept, (has_table_some destination name).mpr ⟨cur, found⟩]
          have distinct := destinationWf.distinct.sublist
            ((List.filter_sublist (p := fun t : Table =>
              Diff.droppedNames source destination t.name)).map Table.name)
          have present := on_concat_present Table.name _ _ _ (pairs _)
            (fun table _ s same => same ▸ own table) distinct cur dropped
          rw [← named]
          exact present

omit destinationWf in
theorem creations_on (turns : List (Table × (String → Bool))) (name : String)
    (perm : (turns.map Prod.fst).Perm (Diff.newTables source destination)) :
    match destination.table? name, source.table? name with
    | none, some des =>
      ∃ pending, (concat (turns.map Diff.creation)).on name = Diff.creation (des, pending)
    | _, _ => (concat (turns.map Diff.creation)).on name = {} := by
  have own (turn : Table × (String → Bool)) :
      All (fun _ op => op.table = turn.1.name) (Diff.creation turn) :=
    all_mono _ _ _ (creation_all turn) fun _ _ facts => facts.2
  have pairs : List.Forall₂ (fun turn s => s = Diff.creation turn) turns
      (turns.map Diff.creation) := by
    simp [List.forall₂_map_right_iff, List.forall₂_same]
  have names : (turns.map fun turn => turn.1.name).Perm
      ((Diff.newTables source destination).map Table.name) := by
    have mapped := perm.map Table.name
    rw [List.map_map] at mapped
    exact mapped
  have absent (missing : name ∉ (Diff.newTables source destination).map Table.name) :
      (concat (turns.map Diff.creation)).on name = {} :=
    on_concat_absent name (fun turn => turn.1.name) _ _ _ pairs (fun turn _ s same => same ▸ own turn)
      (fun member => missing (names.subset member))
  have old (cur : Table) (found : destination.table? name = some cur) :
      (concat (turns.map Diff.creation)).on name = {} := by
    refine absent fun member => ?_
    obtain ⟨table, inside, same⟩ := List.mem_map.mp member
    have fresh := (List.mem_filter.mp inside).2
    simp [same, (has_table_some destination name).mpr ⟨cur, found⟩] at fresh
  cases before : destination.table? name with
  | some cur => exact old cur before
  | none =>
      cases after : source.table? name with
      | none =>
          refine absent fun member => ?_
          obtain ⟨table, inside, same⟩ := List.mem_map.mp member
          refine (table_none_iff source name).mp after ?_
          exact List.mem_map.mpr ⟨table, (List.mem_filter.mp inside).1, same⟩
      | some des =>
          obtain ⟨inside, named⟩ := table_found source name des after
          have missing := (has_table_none destination name).mpr before
          have fresh : des ∈ Diff.newTables source destination :=
            List.mem_filter.mpr ⟨inside, by simp [named, missing]⟩
          obtain ⟨⟨table, pending⟩, turn, same⟩ := List.mem_map.mp (perm.symm.subset fresh)
          have distinct : (turns.map fun turn => turn.1.name).Nodup :=
            names.nodup_iff.mpr (sourceWf.distinct.sublist (List.filter_sublist.map Table.name))
          refine ⟨pending, ?_⟩
          have present := on_concat_present (fun turn : Table × (String → Bool) => turn.1.name) _ _ _
            pairs (fun turn _ s same => same ▸ own turn) distinct _ turn
          change table = des at same
          subst same
          rw [← named]
          exact present

theorem plan_on_table (name : String)
    (staged : Diff.stages dialect source destination = .ok stages) :
    TablePlan dialect (Diff.droppedNames source destination) (destination.table? name)
      (source.table? name) (stages.operations.filter (·.table = name)) := by
  obtain ⟨each, rfl, pairs⟩ := stages_ok dialect source destination stages staged
  obtain ⟨turns, arranged, joined⟩ := creation_stages_concat (Diff.newTables source destination)
  have created := creations_on source destination sourceWf turns name arranged.perm
  have dropped := drops_on dialect source destination destinationWf name
  have own (des : Table) (member : des ∈ source.tables) (s : Stages)
      (common : Diff.Common dialect destination des s) : All (fun _ op => op.table = des.name) s :=
    all_mono _ _ s (common_all dialect source destination sourceWf destinationWf des member s common)
      fun _ _ facts => facts.2.1
  rw [← on_operations, on_append, on_append, joined]
  cases after : source.table? name with
  | none =>
      have common := on_concat_absent name Table.name _ _ _ pairs own
        ((table_none_iff source name).mp after)
      have missing := (has_table_none source name).mpr after
      cases before : destination.table? name with
      | none =>
          rw [before, after] at created
          rw [before] at dropped
          rw [created, dropped, common]
          exact .unknown
      | some cur =>
          rw [before, after] at created
          rw [before, missing] at dropped
          rw [created, dropped, common, append_empty, empty_append]
          dsimp only
          rw [if_neg Bool.false_ne_true, drop_stages_operations]
          exact .dropped cur
  | some des =>
      obtain ⟨inside, named⟩ := table_found source name des after
      have common := on_concat_present Table.name _ _ _ pairs own sourceWf.distinct des inside
      have present := (has_table_some source name).mpr ⟨des, after⟩
      rw [named] at common
      unfold Diff.Common at common
      rw [named] at common
      cases before : destination.table? name with
      | none =>
          rw [before, after] at created
          obtain ⟨pending, created⟩ := created
          rw [before] at dropped common
          rw [created, dropped, (common.resolve_left (by simp)).2, append_empty, append_empty]
          exact .created des pending
      | some cur =>
          rw [before, after] at created
          rw [before, present] at dropped
          rw [before] at common
          obtain ⟨old, same, staged⟩ := common.resolve_right (by simp)
          cases same
          rw [created, dropped]
          exact .kept cur des _ staged

/-! ### The tables that a plan creates -/

theorem created_tables (staged : Diff.stages dialect source destination = .ok stages) :
    stages.operations.filterMap Operation.created?
      = (creationOrder (Diff.newTables source destination)).tables := by
  have sorted := stages_all dialect source destination stages sourceWf destinationWf staged
  obtain ⟨each, rfl, pairs⟩ := stages_ok dialect source destination stages staged
  have other (l : List Operation) (i : Nat) (stage : ∀ op ∈ l, op.stage = i) (late : i ≠ 5) :
      l.filterMap Operation.created? = [] := by
    refine List.filterMap_eq_nil_iff.mpr fun op member => ?_
    cases op with
    | createTable => exact absurd (stage _ member).symm late
    | _ => rfl
  have none (l : List Stages) (all : ∀ s ∈ l, s.creations = []) : (concat l).creations = [] := by
    induction l with
    | nil => rfl
    | cons s l ih =>
        change s.creations ++ (concat l).creations = []
        rw [all s (by simp), ih fun t member => all t (by simp [member])]
        rfl
  have dropped := none ((destination.tables.filter (Diff.droppedNames source destination ·.name)).map
    (Diff.dropStages dialect (Diff.droppedNames source destination))) fun s member => by
      obtain ⟨table, _, rfl⟩ := List.mem_map.mp member
      rfl
  have common := none each fun s member => by
    obtain ⟨des, inside, made⟩ := partner_of_right _ _ _ pairs s member
    have all := common_all dialect source destination sourceWf destinationWf des inside s made
    refine List.eq_nil_iff_forall_not_mem.mpr fun op own => ?_
    obtain ⟨stage, _, apart⟩ := all.creations op own
    cases op with
    | createTable => exact apart rfl
    | addConstraint n c | dropConstraint n c =>
        simp only [Operation.stage] at stage
        split at stage <;> omega
    | _ => simp [Operation.stage] at stage
  simp only [operations, List.filterMap_append, other _ 0 sorted.foreignKeyDrops (by decide),
    other _ 1 sorted.drops (by decide), other _ 2 sorted.tableDrops (by decide),
    other _ 3 sorted.columnChanges (by decide), other _ 4 sorted.additions (by decide),
    other _ 6 sorted.foreignKeyAdditions (by decide), List.nil_append, List.append_nil]
  simp only [stages_append, Stages.append, dropped, common, List.append_nil, Diff.creationStages,
    List.filterMap_map]
  exact List.filterMap_some

end Whole

end SchemaDrift
