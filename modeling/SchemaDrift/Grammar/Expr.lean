import SchemaDrift.Grammar.Layout
import SchemaDrift.Grammar.Rule
/-!
Parsing expressions: the right-hand sides of grammar rules.
-/

set_option autoImplicit false

namespace SchemaDrift.Grammar

inductive CharSet where
  | all
  | only (c : Char)
  | digit
  | identifierStart
  | identifier
  | blank
deriving DecidableEq, Repr

def CharSet.has : CharSet → Char → Bool
  | all, _ => true
  | only a, c => c = a
  | digit, c => c.isDigit
  | identifierStart, c => c.isAlpha || c = '_'
  | identifier, c => c.isAlphanum || c = '_' || c = '$'
  | blank, c => isSpace c

inductive Expr where
  | empty
  | finish
  | one (set : CharSet)
  | word (lower : List Char)
  | seq (a b : Expr)
  | alt (a b : Expr)
  | opt (a : Expr)
  | many (a : Expr)
  -- The items of a repetition after its first, each with the layout in front of it.
  | more (a : Expr)
  | notAt (a : Expr)
  | rule (r : Rule)
deriving DecidableEq, Repr

instance : Append Expr := ⟨.seq⟩

instance : OrOp Expr := ⟨.alt⟩

namespace Expr

def char (c : Char) : Expr := one (.only c)

def anyChar : Expr := one .all

def kw (word : Keyword) : Expr := rule (.keyword word)

def some (a : Expr) : Expr := a ++ many a

def commaList (a : Expr) : Expr := a ++ many (char ',' ++ a)

def parens (a : Expr) : Expr := char '(' ++ a ++ char ')'

def except (a : Expr) : Expr := notAt a ++ anyChar

def wholeWord (lower : String) : Expr := word lower.toList ++ notAt (one .identifier)

end Expr

-- How the parts of a rule follow each other.
inductive Layout where
  | free
  | tight
  -- The parts are adjacent, and the match has no parts of its own.
  | token
deriving DecidableEq, Repr

end SchemaDrift.Grammar
