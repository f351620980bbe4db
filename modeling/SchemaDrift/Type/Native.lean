import SchemaDrift.Type.Basic
/-!
Types as a dialect spells them.
-/

set_option autoImplicit false

namespace SchemaDrift

inductive TypeArg where
  | number (n : Nat)
  | max
  | text (s : String)
deriving DecidableEq, Repr

def TypeArg.sql : TypeArg → String
  | number n => toString n
  | max => "MAX"
  | text s => s

def TypeArg.number? : TypeArg → Option Nat
  | number n => some n
  | _ => none

def TypeArg.length? : TypeArg → Option Length
  | number n => some (.fixed n)
  | max => some .max
  | text _ => none

structure NativeType where
  name : String
  args : List TypeArg := []
  -- `WITH TIME ZONE` is `some true`, `WITHOUT TIME ZONE` is `some false`.
  timeZone : Option Bool := none
  unsigned : Bool := false
  arrayDepth : Nat := 0
deriving DecidableEq, Repr

namespace NativeType

def plain (name : String) : NativeType := { name }

def sized (name : String) (n : Nat) : NativeType := { name, args := [.number n] }

-- A decimal type with its precision and scale; a scale without a precision is dropped.
def decimal (name : String) (precision scale : Option Nat) : NativeType :=
  match precision, scale with
  | some p, some s => { name, args := [.number p, .number s] }
  | some p, none => .sized name p
  | none, _ => .plain name

def array (spelled : NativeType) : NativeType :=
  { spelled with arrayDepth := spelled.arrayDepth + 1 }

def firstNumber (spelled : NativeType) : Option Nat := spelled.args[0]?.bind TypeArg.number?

def secondNumber (spelled : NativeType) : Option Nat := spelled.args[1]?.bind TypeArg.number?

def scalarSql (spelled : NativeType) : String :=
  let args := if spelled.args.isEmpty then ""
    else "(" ++ ", ".intercalate (spelled.args.map TypeArg.sql) ++ ")"
  let zone := match spelled.timeZone with
    | some true => " WITH TIME ZONE"
    | some false => " WITHOUT TIME ZONE"
    | none => ""
  spelled.name ++ args ++ zone ++ (if spelled.unsigned then " UNSIGNED" else "")

def sql (spelled : NativeType) : String :=
  spelled.scalarSql ++ String.join (List.replicate spelled.arrayDepth "[]")

end NativeType

-- A `CHAR` without a length holds one character.
def charType? : List TypeArg → Option ColumnType
  | [] => some { base := .char, length := some (.fixed 1) }
  | [.number n] => some { base := .char, length := some (.fixed n) }
  | _ => none

end SchemaDrift
