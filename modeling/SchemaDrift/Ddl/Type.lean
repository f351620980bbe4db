import SchemaDrift.Ddl.Name
import SchemaDrift.Type.Native
/-!
Reading native types.
-/

set_option autoImplicit false

namespace SchemaDrift.Ddl

open Grammar (Rule Tree)

def decimalValue (digits : List Char) : Nat :=
  digits.foldl (fun n c => 10 * n + (c.toNat - '0'.toNat)) 0

def typeArg (dialect : Dialect) (tree : Tree) : Except SchemaError TypeArg :=
  let text := Text.trim tree.text
  match tree.children with
  | .node .number .. :: _ =>
    if decimalValue text < UInt32.size then .ok (.number (decimalValue text))
    else .error (.unsupported dialect ("type argument " ++ String.ofList text))
  | .node (.keyword .max) .. :: _ => .ok .max
  | _ => .ok (.text (String.ofList text))

def scalarType (dialect : Dialect) (tree : Tree) : Except SchemaError NativeType := do
  let args ← ((tree.all .typeArgs).flatMap Tree.children).mapM (typeArg dialect)
  .ok
    { name := ((tree.first? .typeName).map upperText).getD ""
      args
      timeZone := (tree.first? .timeZone).map (·.has (.keyword .withWord))
      unsigned := tree.has (.keyword .unsigned)
      arrayDepth := (tree.all .arraySuffix).length }

def nativeType (dialect : Dialect) (tree : Tree) : Except SchemaError NativeType :=
  match tree.first? .arrayType, tree.first? .scalarType with
  | some array, _ => match array.first? .scalarType with
    | some scalar => (scalarType dialect scalar).map NativeType.array
    | none => .ok (.plain "")
  | none, some scalar => scalarType dialect scalar
  | none, none => .ok (.plain "")

end SchemaDrift.Ddl
