import SchemaDrift.Grammar.Ddl
/-!
Matching a text against the grammar. Choices are ordered: the first alternative that matches is
taken, and repetitions take all they can.
-/

set_option autoImplicit false

namespace SchemaDrift.Grammar

-- A part of the input that a rule matched: all of `start` but `rest`.
inductive Tree where
  | node (rule : Rule) (start rest : List Char) (children : List Tree)

namespace Tree

def rule : Tree → Rule
  | node rule .. => rule

def start : Tree → List Char
  | node _ start .. => start

def children : Tree → List Tree
  | node _ _ _ children => children

def text : Tree → List Char
  | node _ start rest _ => start.take (start.length - rest.length)

def all (tree : Tree) (rule : Rule) : List Tree := tree.children.filter (·.rule = rule)

def first? (tree : Tree) (rule : Rule) : Option Tree := tree.children.find? (·.rule = rule)

def has (tree : Tree) (rule : Rule) : Bool := tree.children.any (·.rule = rule)

end Tree

inductive Outcome where
  | matched (rest : List Char) (trees : List Tree)
  | failed
  | exhausted

namespace Outcome

def andThen (outcome : Outcome) (next : List Char → List Tree → Outcome) : Outcome :=
  match outcome with
  | matched rest trees => next rest trees
  | failed => failed
  | exhausted => exhausted

@[macro_inline] def orElse (outcome : Outcome) (other : Outcome) : Outcome :=
  match outcome with
  | failed => other
  | outcome => outcome

def prepend (trees : List Tree) : Outcome → Outcome
  | matched rest more => matched rest (trees ++ more)
  | failed => failed
  | exhausted => exhausted

end Outcome

def Layout.skip : Layout → List Char → List Char
  | free, s => skipLayout s
  | tight, s | token, s => s

def Rule.layoutIn (rule : Rule) (outer : Layout) : Layout :=
  match rule.layout with
  | .free => outer
  | layout => layout

def Layout.keep (layout : Layout) (tree : Tree) : List Tree :=
  if layout = .token then [] else [tree]

def dropWord? : List Char → List Char → Option (List Char)
  | [], s => some s
  | _ :: _, [] => none
  | a :: word, c :: s => if c.toLower = a then dropWord? word s else none

def run : Nat → Layout → Expr → List Char → Outcome
  | 0, _, _, _ => .exhausted
  | fuel + 1, layout, e, s => match e with
    | .empty => .matched s []
    | .finish => if s = [] then .matched s [] else .failed
    | .one set => match s with
      | c :: rest => if set.has c then .matched rest [] else .failed
      | [] => .failed
    | .word lower => match dropWord? lower s with
      | some rest => .matched rest []
      | none => .failed
    | .seq a b => (run fuel layout a s).andThen fun rest trees =>
      (run fuel layout b (layout.skip rest)).prepend trees
    | .alt a b => (run fuel layout a s).orElse (run fuel layout b s)
    | .opt a => (run fuel layout a s).orElse (.matched s [])
    | .many a => ((run fuel layout a s).andThen fun rest trees =>
      (run fuel layout (.more a) rest).prepend trees).orElse (.matched s [])
    | .more a => ((run fuel layout a (layout.skip s)).andThen fun rest trees =>
      (run fuel layout (.more a) rest).prepend trees).orElse (.matched s [])
    | .notAt a => match run fuel layout a s with
      | .matched .. => .failed
      | .failed => .matched s []
      | .exhausted => .exhausted
    | .rule r => (run fuel (r.layoutIn layout) r.body s).andThen fun rest trees =>
      .matched rest (layout.keep (.node r s rest trees))

-- More than the depth to which rules nest without reading a character.
def nesting : Nat := 256

-- Enough fuel for a text: every `nesting` levels read at least one character.
def fuelFor (s : List Char) : Nat := (s.length + 2) * nesting

def parse? (r : Rule) (s : List Char) : Option Tree :=
  match run (fuelFor s) .free (.rule r) s with
  | .matched _ trees => trees.head?
  | _ => none

end SchemaDrift.Grammar
