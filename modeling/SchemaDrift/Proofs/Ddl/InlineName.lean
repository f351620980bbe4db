import Mathlib.Data.List.Induction
import SchemaDrift.Ddl.Document
import SchemaDrift.Proofs.Result
/-!
Names of the constraints that are declared on a column. A name waits for the next constraint, and the
clauses that are no constraints leave it waiting. So a constraint has the name of the clause in front
of it unless such clauses stand between it and a name.
-/

set_option autoImplicit false

namespace SchemaDrift.Ddl

open Grammar (Tree)

def ColumnClause.isNeutral : ColumnClause → Bool
  | constraintName _ | constraint _ => false
  | _ => true

def clauseTrees (tree : Tree) : List Tree := (tree.all .columnClause).flatMap Tree.children

-- A clause that declares a constraint, with the clauses in front of it.
structure Declaration where
  front : List ColumnClause
  kind : ConstraintKind
deriving DecidableEq

def declarations (front : List ColumnClause) : List ColumnClause → List Declaration
  | [] => []
  | .constraint kind :: clauses =>
    { front, kind } :: declarations (front ++ [.constraint kind]) clauses
  | clause :: clauses => declarations (front ++ [clause]) clauses

def directName (front : List ColumnClause) : Option String :=
  match front.getLast? with
  | some (.constraintName name) => some name
  | _ => none

def nextName (name : Option String) : ColumnClause → Option String
  | .constraintName name => some name
  | .constraint _ => none
  | _ => name

def waitingName (front : List ColumnClause) : Option String := front.foldl nextName none

def namesDropped (dialect : Dialect) (kind : ConstraintKind) : Bool :=
  kind = .primaryKey && dialect ≠ .postgres

structure Declaration.NamedDirectly (dialect : Dialect) (columns : List String)
    (declaration : Declaration) (constraint : Constraint) : Prop where
  kind : constraint.kind = declaration.kind
  columns : constraint.columns = columns
  name : constraint.name =
    if namesDropped dialect declaration.kind then none else directName declaration.front

-- Nothing stands between a name and the constraint that takes it.
def NamesAtOnce (dialect : Dialect) (clauses : List ColumnClause) : Prop :=
  ∀ before name middle kind back,
    clauses = before ++ .constraintName name :: middle ++ .constraint kind :: back →
      (∀ clause ∈ middle, clause.isNeutral = true) →
        middle = [] ∨ namesDropped dialect kind = true

/-! ### Declarations -/

theorem declarations_cons (front clauses : List ColumnClause) (clause : ColumnClause)
    (d : Declaration) : d ∈ declarations front (clause :: clauses) ↔
      clause = .constraint d.kind ∧ d.front = front ∨ d ∈ declarations (front ++ [clause]) clauses := by
  cases clause with
  | constraint kind =>
      rw [declarations, List.mem_cons]
      obtain ⟨own, other⟩ := d
      simp only [Declaration.mk.injEq, ColumnClause.constraint.injEq]
      tauto
  | nullable | default | constraintName | autoIncrement => simp [declarations]

theorem mem_declarations (front clauses : List ColumnClause) (d : Declaration) :
    d ∈ declarations front clauses ↔ ∃ inner back,
      clauses = inner ++ .constraint d.kind :: back ∧ d.front = front ++ inner := by
  induction clauses generalizing front with
  | nil => simp [declarations]
  | cons clause clauses ih =>
      rw [declarations_cons, ih]
      constructor
      · rintro (⟨rfl, own⟩ | ⟨inner, back, rfl, own⟩)
        · exact ⟨[], clauses, rfl, by simp [own]⟩
        · exact ⟨clause :: inner, back, rfl, by simp [own]⟩
      · rintro ⟨inner, back, same, own⟩
        cases inner with
        | nil =>
            cases same
            exact .inl ⟨rfl, by simpa using own⟩
        | cons first inner =>
            cases same
            exact .inr ⟨inner, back, rfl, by simpa using own⟩

/-! ### Names that wait -/

theorem waiting_name_snoc (front : List ColumnClause) (clause : ColumnClause) :
    waitingName (front ++ [clause]) = nextName (waitingName front) clause := by
  simp [waitingName, List.foldl_append]

theorem direct_name_snoc (front : List ColumnClause) (clause : ColumnClause) :
    directName (front ++ [clause]) = nextName none clause := by
  cases clause <;> simp [directName, nextName]

theorem next_name_neutral (name : Option String) (clause : ColumnClause)
    (neutral : clause.isNeutral = true) : nextName name clause = name := by
  cases clause <;> first | rfl | cases neutral

theorem waiting_name_neutral (front middle : List ColumnClause)
    (neutral : ∀ clause ∈ middle, clause.isNeutral = true) :
    waitingName (front ++ middle) = waitingName front := by
  induction middle using List.reverseRecOn with
  | nil => rw [List.append_nil]
  | append_singleton middle last ih =>
      rw [← List.append_assoc, waiting_name_snoc, next_name_neutral _ _ (neutral last (by simp))]
      exact ih fun clause member => neutral clause (by simp [member])

theorem waiting_name_iff (front : List ColumnClause) (name : String) :
    waitingName front = some name ↔ ∃ before middle,
      front = before ++ .constraintName name :: middle ∧
        ∀ clause ∈ middle, clause.isNeutral = true := by
  constructor
  · intro waits
    induction front using List.reverseRecOn with
    | nil => cases waits
    | append_singleton front last ih =>
        rw [waiting_name_snoc] at waits
        by_cases neutral : last.isNeutral = true
        · rw [next_name_neutral _ _ neutral] at waits
          obtain ⟨before, middle, rfl, quiet⟩ := ih waits
          refine ⟨before, middle ++ [last], by simp, ?_⟩
          simpa [or_imp, forall_and, neutral] using quiet
        · cases last with
          | constraintName given =>
              cases waits
              exact ⟨front, [], rfl, by simp⟩
          | constraint => cases waits
          | nullable | default | autoIncrement => exact absurd rfl neutral
  · rintro ⟨before, middle, rfl, neutral⟩
    rw [List.append_cons, waiting_name_neutral _ _ neutral, waiting_name_snoc, nextName]

theorem direct_name_waits (front : List ColumnClause) (name : String)
    (direct : directName front = some name) : waitingName front = some name := by
  induction front using List.reverseRecOn with
  | nil => cases direct
  | append_singleton front last _ =>
      rw [direct_name_snoc] at direct
      rw [waiting_name_snoc]
      cases last with
      | constraintName => exact direct
      | constraint | nullable | default | autoIncrement => cases direct

theorem names_at_once_iff (dialect : Dialect) (clauses : List ColumnClause) :
    NamesAtOnce dialect clauses ↔ ∀ d ∈ declarations [] clauses,
      namesDropped dialect d.kind = true ∨ waitingName d.front = directName d.front := by
  constructor
  · intro atOnce d member
    obtain ⟨inner, back, rfl, own⟩ := (mem_declarations [] clauses d).mp member
    rw [own, List.nil_append]
    cases waits : waitingName inner with
    | none =>
        cases direct : directName inner with
        | none => exact .inr rfl
        | some name =>
            rw [direct_name_waits inner name direct] at waits
            cases waits
    | some name =>
        obtain ⟨before, middle, rfl, neutral⟩ := (waiting_name_iff inner name).mp waits
        rcases atOnce before name middle d.kind back (by simp) neutral with rfl | dropped
        · exact .inr (direct_name_snoc before (.constraintName name)).symm
        · exact .inl dropped
  · rintro each before name middle kind back rfl neutral
    have member := (mem_declarations [] _ ⟨before ++ .constraintName name :: middle, kind⟩).mpr
      ⟨_, back, rfl, rfl⟩
    rcases each _ member with dropped | same
    · exact .inr dropped
    · refine .inl ?_
      dsimp only at same
      rw [(waiting_name_iff _ name).mpr ⟨before, middle, rfl, neutral⟩] at same
      obtain rfl | ⟨others, last, rfl⟩ := middle.eq_nil_or_concat'
      · rfl
      · rw [← List.cons_append, ← List.append_assoc, direct_name_snoc,
          next_name_neutral _ _ (neutral last (by simp))] at same
        cases same

/-! ### Whole columns -/

theorem with_name_fields (dialect : Dialect) (columns : List String) (kind : ConstraintKind)
    (name : Option String) :
    withName dialect { columns, kind } name =
      { columns, kind, name := if namesDropped dialect kind then none else name } := by
  cases name with
  | none => rw [ite_self, withName]
  | some name =>
      simp only [withName, namesDropped, Constraint.isPrimaryKey, Bool.and_eq_true, decide_eq_true_eq]
      split <;> rfl

theorem add_clauses_constraints (dialect : Dialect) (columns : List String)
    (front clauses : List ColumnClause) (fragment : ColumnFragment) :
    (addClauses dialect columns (waitingName front) fragment clauses).constraints =
      fragment.constraints ++ (declarations front clauses).map fun d =>
        withName dialect { columns, kind := d.kind } (waitingName d.front) := by
  induction clauses generalizing front fragment with
  | nil => simp [addClauses, declarations]
  | cons clause clauses ih =>
      have next := ih (front ++ [clause])
      rw [waiting_name_snoc] at next
      cases clause with
      | constraint kind =>
          refine (next { fragment with constraints := fragment.constraints ++
            [withName dialect { columns, kind } (waitingName front)] }).trans ?_
          rw [List.append_assoc]
          rfl
      | nullable | default | constraintName | autoIncrement => exact next _

theorem column_body_constraints (dialect : Dialect) (columns : List String) (tree : Tree)
    (fragment : ColumnFragment) (read : columnBody dialect columns tree = .ok fragment) :
    ∃ clauses, (clauseTrees tree).mapM (columnClause dialect) = .ok clauses ∧
      fragment.constraints = (declarations [] clauses).map fun d =>
        withName dialect { columns, kind := d.kind } (waitingName d.front) := by
  unfold columnBody at read
  obtain ⟨spelled, _, typed⟩ := (bind_ok _ _ _).mp read
  obtain ⟨type, _, followed⟩ := (bind_ok _ _ _).mp typed
  obtain ⟨clauses, mapped, same⟩ := (bind_ok _ _ _).mp followed
  cases same
  exact ⟨clauses, mapped, add_clauses_constraints dialect columns [] clauses _⟩

-- The names attach to the right clauses exactly where they are taken at once.
theorem inline_names_direct_iff (dialect : Dialect) (columns : List String) (tree : Tree)
    (fragment : ColumnFragment) (read : columnBody dialect columns tree = .ok fragment) :
    ∃ clauses, (clauseTrees tree).mapM (columnClause dialect) = .ok clauses ∧
      (List.Forall₂ (Declaration.NamedDirectly dialect columns) (declarations [] clauses)
        fragment.constraints ↔ NamesAtOnce dialect clauses) := by
  obtain ⟨clauses, mapped, constraints⟩ := column_body_constraints dialect columns tree fragment read
  refine ⟨clauses, mapped, ?_⟩
  rw [names_at_once_iff, constraints, List.forall₂_map_right_iff, List.forall₂_same]
  refine forall₂_congr fun d _ => ?_
  rw [with_name_fields]
  constructor
  · rintro ⟨_, _, name⟩
    by_cases dropped : namesDropped dialect d.kind = true
    · exact .inl dropped
    · rw [if_neg dropped, if_neg dropped] at name
      exact .inr name
  · rintro (dropped | same)
    · exact ⟨rfl, rfl, by rw [if_pos dropped, if_pos dropped]⟩
    · exact ⟨rfl, rfl, by rw [same]⟩

def columnClauses (dialect : Dialect) (text : List Char) : Except SchemaError (List ColumnClause) := do
  (clauseTrees (← parse .columnFragment text)).mapM (columnClause dialect)

theorem column_parsed (dialect : Dialect) (text : List Char) (fragment : ColumnFragment)
    (clauses : List ColumnClause) (parsed : dialect.parseColumn text = .ok fragment)
    (read : columnClauses dialect text = .ok clauses) :
    ∃ tree, parse .columnFragment text = .ok tree ∧ columnBody dialect [] tree = .ok fragment ∧
      (clauseTrees tree).mapM (columnClause dialect) = .ok clauses := by
  obtain ⟨tree, found, body⟩ := (bind_ok _ _ _).mp parsed
  obtain ⟨other, again, mapped⟩ := (bind_ok _ _ _).mp read
  rw [found] at again
  cases again
  exact ⟨tree, found, body, mapped⟩

namespace Balance

def text : List Char := "BIGINT NOT NULL CONSTRAINT Covered CHECK (a >= 0) DEFAULT 0 UNIQUE".toList

def clauses : List ColumnClause :=
  [.nullable false, .constraintName "Covered", .constraint (.check "a >= 0"), .default (some "0"),
    .constraint .unique]

def fragment : ColumnFragment where
  type := { base := .bigInt }
  nullable := false
  default := some "0"
  constraints := [{ name := some "Covered", columns := [], kind := .check "a >= 0" },
    { columns := [], kind := .unique }]

end Balance

theorem balance_named_directly : ∃ tree, parse .columnFragment Balance.text = .ok tree ∧
    columnBody .mysql [] tree = .ok Balance.fragment ∧
      List.Forall₂ (Declaration.NamedDirectly .mysql []) (declarations [] Balance.clauses)
        Balance.fragment.constraints := by
  obtain ⟨tree, parsed, body, mapped⟩ := column_parsed .mysql Balance.text Balance.fragment
    Balance.clauses (by decide +kernel) (by decide +kernel)
  obtain ⟨clauses, read, direct⟩ := inline_names_direct_iff .mysql [] tree Balance.fragment body
  rw [mapped] at read
  cases read
  exact ⟨tree, parsed, body, direct.mpr ((names_at_once_iff .mysql _).mpr (by decide))⟩

-- The name of NOT NULL is given to the key that comes after it.
theorem name_passes_to_key : ¬∀ (dialect : Dialect) (text : List Char) (tree : Tree)
    (fragment : ColumnFragment) (clauses : List ColumnClause),
    parse .columnFragment text = .ok tree → columnBody dialect [] tree = .ok fragment →
      (clauseTrees tree).mapM (columnClause dialect) = .ok clauses →
        List.Forall₂ (Declaration.NamedDirectly dialect []) (declarations [] clauses)
          fragment.constraints := by
  intro always
  obtain ⟨tree, parsed, body, mapped⟩ := column_parsed .postgres
    "BIGINT CONSTRAINT present NOT NULL UNIQUE".toList
    { type := { base := .bigInt }, nullable := false
      constraints := [{ name := some "present", columns := [], kind := .unique }] }
    [.constraintName "present", .nullable false, .constraint .unique]
    (by decide +kernel) (by decide +kernel)
  cases always .postgres _ tree _ _ parsed body mapped with
  | cons key _ => exact absurd key.name (by decide)

end SchemaDrift.Ddl
