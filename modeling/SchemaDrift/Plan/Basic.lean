import SchemaDrift.Schema.Operation
/-!
Plans: operations in the order in which they are carried out.
-/

set_option autoImplicit false

namespace SchemaDrift

structure Plan where
  operations : List Operation := []
deriving DecidableEq, Repr

namespace Plan

def isEmpty (plan : Plan) : Bool := plan.operations.isEmpty

def size (plan : Plan) : Nat := plan.operations.length

def count (plan : Plan) (kind : OperationKind) : Nat :=
  plan.operations.countP (·.kind = kind)

def summary (plan : Plan) : String :=
  let kinds := OperationKind.all.filter fun kind => plan.count kind ≠ 0
  if kinds.isEmpty then "No changes"
  else ", ".intercalate (kinds.map fun kind => kind.describe (plan.count kind))

end Plan

end SchemaDrift
