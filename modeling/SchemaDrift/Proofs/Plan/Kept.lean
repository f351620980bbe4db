import SchemaDrift.Proofs.Plan.Cut
/-!
What a plan leaves in place. The constraints of a table that stays are, at any time after the drops,
those that outlived them followed by those added so far.
-/

set_option autoImplicit false

namespace SchemaDrift

def strike (l : List Constraint) (c : Constraint) : List Constraint :=
  (eraseFirst? (·.structurallyEq c) l).getD l

namespace Operation

def struck? : Operation → Option Constraint
  | dropConstraint _ c => if c.isPrimaryKey then none else some c
  | _ => none

def gained? : Operation → Option Constraint
  | addConstraint _ c => if c.isPrimaryKey then none else some c
  | _ => none

def constraintsAfter (op : Operation) (l : List Constraint) : List Constraint :=
  op.struck?.elim l (strike l) ++ op.gained?.toList

end Operation

def Diff.kept (current desired : Table) : List Constraint :=
  let removed := (unmatched Constraint.structurallyEq current.constraints desired.constraints).1
  (removed.filter Constraint.isForeignKey ++ removed.filter (!·.isForeignKey)).foldl strike
    current.constraints

def Diff.gained (current desired : Table) : List Constraint :=
  let added := (unmatched Constraint.structurallyEq current.constraints desired.constraints).2
  added.filter (!·.isForeignKey) ++ added.filter Constraint.isForeignKey

theorem struck_key (n : String) (c : Constraint) (primary : c.isPrimaryKey = true) :
    (Operation.dropConstraint n c).struck? = none := by
  rw [Operation.struck?, if_pos primary]

theorem struck_other (n : String) (c : Constraint) (other : c.isPrimaryKey = false) :
    (Operation.dropConstraint n c).struck? = some c := by
  rw [Operation.struck?, other, if_neg Bool.false_ne_true]

theorem gained_key (n : String) (c : Constraint) (primary : c.isPrimaryKey = true) :
    (Operation.addConstraint n c).gained? = none := by
  rw [Operation.gained?, if_pos primary]

theorem gained_other (n : String) (c : Constraint) (other : c.isPrimaryKey = false) :
    (Operation.addConstraint n c).gained? = some c := by
  rw [Operation.gained?, other, if_neg Bool.false_ne_true]

section Listed

variable (n : String) (l : List Constraint)

theorem struck_drops (other : ∀ c ∈ l, c.isPrimaryKey = false) :
    (l.map (Operation.dropConstraint n)).filterMap Operation.struck? = l := by
  rw [List.filterMap_map]
  exact (List.filterMap_congr fun c member => struck_other n c (other c member)).trans
    List.filterMap_some

theorem struck_adds : (l.map (Operation.addConstraint n)).filterMap Operation.struck? = [] := by
  rw [List.filterMap_map]
  exact List.filterMap_eq_nil_iff.mpr fun _ _ => rfl

theorem gained_adds (other : ∀ c ∈ l, c.isPrimaryKey = false) :
    (l.map (Operation.addConstraint n)).filterMap Operation.gained? = l := by
  rw [List.filterMap_map]
  exact (List.filterMap_congr fun c member => gained_other n c (other c member)).trans
    List.filterMap_some

theorem gained_drops : (l.map (Operation.dropConstraint n)).filterMap Operation.gained? = [] := by
  rw [List.filterMap_map]
  exact List.filterMap_eq_nil_iff.mpr fun _ _ => rfl

end Listed

theorem constraints_same (op : Operation) (l : List Constraint) (struck : op.struck? = none)
    (gained : op.gained? = none) : op.constraintsAfter l = l := by
  rw [Operation.constraintsAfter, struck, gained]
  exact List.append_nil l

theorem becomes_constraints (t u : Table) (op : Operation) (becomes : t.Becomes op u) :
    u.constraints = op.constraintsAfter t.constraints := by
  obtain ⟨draft, changed, _, rfl⟩ := becomes
  cases changed with
  | untouched _ whole => cases op <;> first | exact (constraints_same _ _ rfl rfl).symm | cases whole
  | addColumn | dropColumn | alterColumn | addIndex | dropIndex =>
      exact (constraints_same _ _ rfl rfl).symm
  | addKey table c primary => exact (constraints_same _ _ rfl (gained_key table c primary)).symm
  | dropKey table c rest primary erased =>
      exact (constraints_same _ _ (struck_key table c primary) rfl).symm
  | addConstraint table c other =>
      rw [Operation.constraintsAfter, gained_other table c other]
      rfl
  | dropConstraint table c rest other erased =>
      have left : strike t.constraints c = rest := by
        rw [strike, show eraseFirst? (·.structurallyEq c) t.constraints = some rest from erased,
          Option.getD_some]
      rw [Operation.constraintsAfter, struck_other table c other, Option.elim_some, left]
      exact (List.append_nil rest).symm

theorem run_constraints (t u : Table) (ops : List Operation) (run : t.Run ops u) :
    u.constraints = ops.foldl (fun l op => op.constraintsAfter l) t.constraints := by
  induction run with
  | nil t => rfl
  | cons becomes rest ih => rw [ih, List.foldl_cons, becomes_constraints _ _ _ becomes]

theorem fold_constraints (ops : List Operation) (l : List Constraint)
    (sorted : ops.Pairwise fun a b => a.stage ≤ b.stage) :
    ops.foldl (fun l op => op.constraintsAfter l) l
      = (ops.filterMap Operation.struck?).foldl strike l ++ ops.filterMap Operation.gained? := by
  induction ops generalizing l with
  | nil => exact (List.append_nil l).symm
  | cons op ops ih =>
      obtain ⟨later, sorted⟩ := List.pairwise_cons.mp sorted
      rw [List.foldl_cons, ih _ sorted, Operation.constraintsAfter]
      cases struck : op.struck? with
      | some c =>
          have none : op.gained? = none := by
            cases op with
            | dropConstraint => rfl
            | _ => cases struck
          rw [none, List.filterMap_cons_some struck, List.filterMap_cons_none none, List.foldl_cons]
          simp
      | none =>
          cases gained : op.gained? with
          | none =>
              rw [List.filterMap_cons_none struck, List.filterMap_cons_none gained]
              simp
          | some c =>
              have stage : 4 ≤ op.stage := by
                cases op with
                | addConstraint =>
                    simp only [Operation.stage]
                    split <;> omega
                | _ => cases gained
              have none : ops.filterMap Operation.struck? = [] := by
                refine List.filterMap_eq_nil_iff.mpr fun o member => ?_
                have after := stage.trans (later o member)
                cases o with
                | dropConstraint n d =>
                    simp only [Operation.stage] at after
                    split at after <;> omega
                | _ => rfl
              rw [List.filterMap_cons_none struck, List.filterMap_cons_some gained, none]
              simp

section Stages

variable (dialect : Dialect) (cur des : Table) (stages : Stages) (curWf : cur.WellFormed)
  (desWf : des.WellFormed) (staged : Diff.tableStages dialect cur des = .ok stages)

include curWf desWf staged

theorem table_stages_struck : (stages.operations.filterMap Operation.struck?).foldl strike
    cur.constraints = Diff.kept cur des := by
  rw [constraint_operations dialect cur des stages staged Operation.struck? curWf desWf
    (fun op other => by cases op <;> first | rfl | exact absurd rfl other)
    fun n c primary => ⟨struck_key n c primary, rfl⟩]
  have sub := unmatched_sublist Constraint.structurallyEq cur.constraints des.constraints
  have drops (l : List Constraint) (inside : l.Sublist cur.constraints) :=
    struck_drops des.name l fun c member => curWf.placed.constraints c (inside.subset member)
  simp only [Diff.constraintStages, Diff.kept, Stages.operations, List.append_nil,
    List.filterMap_append, struck_adds, drops _ (List.filter_sublist.trans sub.1)]

theorem table_stages_gained : stages.operations.filterMap Operation.gained? = Diff.gained cur des := by
  rw [constraint_operations dialect cur des stages staged Operation.gained? curWf desWf
    (fun op other => by cases op <;> first | rfl | exact absurd rfl other)
    fun n c primary => ⟨rfl, gained_key n c primary⟩]
  have sub := unmatched_sublist Constraint.structurallyEq cur.constraints des.constraints
  have adds (l : List Constraint) (inside : l.Sublist des.constraints) :=
    gained_adds des.name l fun c member => desWf.placed.constraints c (inside.subset member)
  simp only [Diff.constraintStages, Diff.gained, Stages.operations, List.append_nil,
    List.nil_append, List.filterMap_append, gained_drops, adds _ (List.filter_sublist.trans sub.2)]

-- After the drops the constraints are those that outlived them and those added so far.
theorem kept_and_gained (u : Table) (front back : List Operation)
    (whole : stages.operations = front ++ back) (run : cur.Run front u)
    (late : ∀ op ∈ back, 2 ≤ op.stage) :
    u.constraints = Diff.kept cur des ++ front.filterMap Operation.gained? := by
  have sorted := operations_sorted _ (all_mono _ (fun i op => op.stage = i) _
    (table_stages_turn dialect cur des stages curWf desWf staged) fun _ _ facts => facts.1)
  have struck := table_stages_struck dialect cur des stages curWf desWf staged
  have none : back.filterMap Operation.struck? = [] := by
    refine List.filterMap_eq_nil_iff.mpr fun op member => ?_
    have after := late op member
    cases op with
    | dropConstraint n c =>
        simp only [Operation.stage] at after
        split at after <;> omega
    | _ => rfl
  rw [whole] at sorted
  rw [whole, List.filterMap_append, none, List.append_nil] at struck
  rw [run_constraints cur u front run, fold_constraints front _ (List.pairwise_append.mp sorted).1,
    struck]

end Stages

section Cut

variable (dialect : Dialect) (source destination reached : Schema) (front rest : List Operation)
  (op : Operation) (cut : Cut dialect source destination front (op :: rest) reached)

include cut

theorem cut_kept (early : 2 < op.stage) (late : op.stage < 5) :
    ∃ cur des u stages, destination.table? op.table = some cur ∧
      source.table? op.table = some des ∧ reached.table? op.table = some u ∧
      Diff.tableStages dialect cur des = .ok stages ∧
      stages.operations
        = front.filter (·.table = op.table) ++ op :: rest.filter (·.table = op.table) ∧
      cur.Run (front.filter (·.table = op.table)) u ∧
      u.Owes (op :: rest.filter (·.table = op.table)) des := by
  cases cut_next dialect source destination reached front rest op cut with
  | kept cur des u stages existed wanted found staged whole run owes =>
      exact ⟨cur, des, u, stages, existed, wanted, found, staged, whole, run, owes⟩
  | created des _ pending _ first _ _ _ whole _ _ =>
      have own : op ∈ Diff.deferred pending des := by rw [whole]; simp
      obtain ⟨c, split, rfl⟩ := List.mem_map.mp own
      simp [Operation.stage, (foreign_key_filtered des pending c split).2] at late
  | awaited _ _ _ _ creates => exact absurd late (by simp [creates, Operation.stage])
  | leaving cur _ _ _ _ own =>
      have stage := leaving_stages dialect _ cur op own
      omega
  | dropped _ _ _ _ _ drops => exact absurd early (by simp [drops, Operation.stage])

end Cut

end SchemaDrift
