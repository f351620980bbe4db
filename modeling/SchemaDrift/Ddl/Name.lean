import SchemaDrift.Dialect.Name
import SchemaDrift.Grammar.Failure
/-!
Reading names, and turning a failed match into a syntax error.
-/

set_option autoImplicit false

namespace SchemaDrift.Ddl

open Grammar (Rule Tree)

def upperText (tree : Tree) : String := Text.upperWords tree.text

def namePart (tree : Tree) : NamePart :=
  match tree.children with
  | [.node .quotedIdentifier _ _ (inner :: _)] => unquoted '"' inner
  | [.node .backtickIdentifier _ _ (inner :: _)] => unquoted '\x60' inner
  | _ => { text := String.ofList tree.text }
where
  unquoted (quote : Char) (inner : Tree) : NamePart :=
    { text := String.ofList (Text.undouble quote inner.text), quoted := true }

def identifier (dialect : Dialect) (tree : Tree) : String := dialect.fold (namePart tree)

def identifiers (dialect : Dialect) (tree : Tree) : List String :=
  (tree.all .identifier).map (identifier dialect)

def qualified (dialect : Dialect) (tree : Tree) : Except SchemaError String :=
  dialect.resolve ((tree.all .identifier).map namePart)

def syntaxErrorAt (input : List Char) (position length : Nat) (message : String) : SchemaError :=
  let offset := Text.byteLength (input.take position)
  .syntaxError (Text.locationAt input offset) offset length message

def syntaxErrorIn (input : List Char) (base : Nat) (failure : Grammar.Failure) : SchemaError :=
  syntaxErrorAt input (base + failure.position) 0 failure.message

def parse (rule : Rule) (input : List Char) : Except SchemaError Tree :=
  (Grammar.parse rule input).mapError (syntaxErrorIn input 0)

end SchemaDrift.Ddl
