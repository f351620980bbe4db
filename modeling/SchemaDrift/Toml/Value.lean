/-!
Values of TOML, and how the lines of a document build up tables.
-/

set_option autoImplicit false

namespace SchemaDrift.Toml

-- How a table came about, which decides what may still be added to it.
inductive Form where
  | header
  -- By a line for a table inside of it.
  | implied
  | dotted
  | inline
deriving DecidableEq, Repr

inductive Value where
  | text (value : String)
  | flag (value : Bool)
  -- A number, date or time; no setting has one.
  | scalar
  | list (elements : List Value)
  | table (form : Form) (members : List (String × Value))

structure Table where
  form : Form
  members : List (String × Value) := []

namespace Table

def toValue (table : Table) : Value := .table table.form table.members

def has (table : Table) (key : String) : Bool := table.members.any (·.1 = key)

def replace (key : String) (value : Value) : List (String × Value) → List (String × Value)
  | [] => [(key, value)]
  | (k, v) :: members =>
    if k = key then (key, value) :: members else (k, v) :: replace key value members

def put (table : Table) (key : String) (value : Value) : Table :=
  { table with members := replace key value table.members }

def change? (pointed : Bool) (f : Table → Option Table) : List String → Table → Option Table
  | [], table => f table
  | key :: path, table => match table.members.lookup key with
    | none => do
      let inner ← change? pointed f path { form := if pointed then .dotted else .implied }
      some (table.put key inner.toValue)
    | some (.table form members) =>
      if form = .inline ∨ (pointed ∧ form = .header) then none
      else do
        let inner ← change? pointed f path { form, members }
        some (table.put key inner.toValue)
    | some _ => none

-- Adds a value under a key that is not there yet. Below a key with points, the tables are made by
-- such keys only.
def add? (path : List String) (key : String) (value : Value) : Table → Option Table :=
  change? true (fun table =>
    if table.has key ∨ (path ≠ [] ∧ table.form ≠ .dotted) then none
    else some (table.put key value)) path

def opened? (path : List String) (key : String) : Table → Option Table :=
  change? false (fun table => match table.members.lookup key with
    | none => some (table.put key (.table .header []))
    | some (.table .implied members) => some (table.put key (.table .header members))
    | some _ => none) path

end Table

end SchemaDrift.Toml
