import SchemaDrift.Grammar.Match
import SchemaDrift.Text.Position
/-!
Where a failed match stopped, and what would have let it go on: the rules that were tried at the
farthest position at which any rule was tried in vain.
-/

set_option autoImplicit false

namespace SchemaDrift.Grammar

-- The rules tried at one position of the input, given by what remains there.
structure Attempts where
  remaining : Nat
  expected : List Rule := []
  unexpected : List Rule := []

-- Is a failure wanted? A negation inside a negation makes a position of its own.
inductive Look where
  | plain
  | ahead
  | negated
deriving DecidableEq, Repr

def Look.negate : Look → Look
  | negated => ahead
  | _ => negated

namespace Attempts

def sizes (attempts : Attempts) (remaining : Nat) : Nat × Nat :=
  if remaining = attempts.remaining then (attempts.expected.length, attempts.unexpected.length)
  else (0, 0)

/-- Adds a rule tried at a position in place of the rules tried inside it, of which `before`
gives the numbers at the start. A single rule inside says more than the rule itself. -/
def record (attempts : Attempts) (r : Rule) (negated : Bool) (remaining : Nat)
    (before : Nat × Nat) : Attempts :=
  let (expected, unexpected) := attempts.sizes remaining
  if expected + unexpected = before.1 + before.2 + 1 then attempts
  else if attempts.remaining < remaining then attempts
  else
    let inner : Attempts :=
      if remaining = attempts.remaining then
        { attempts with
          expected := attempts.expected.take before.1
          unexpected := attempts.unexpected.take before.2 }
      else { remaining }
    if negated then { inner with unexpected := inner.unexpected ++ [r] }
    else { inner with expected := inner.expected ++ [r] }

end Attempts

def attempt : Nat → Layout → Look → Expr → List Char → Attempts → Attempts
  | 0, _, _, _, _, attempts => attempts
  | fuel + 1, layout, look, e, s, attempts => match e with
    | .empty | .finish | .one _ | .word _ => attempts
    | .seq a b =>
      let attempts := attempt fuel layout look a s attempts
      match run fuel layout a s with
      | .matched rest _ => attempt fuel layout look b (layout.skip rest) attempts
      | _ => attempts
    | .alt a b =>
      let attempts := attempt fuel layout look a s attempts
      match run fuel layout a s with
      | .failed => attempt fuel layout look b s attempts
      | _ => attempts
    | .opt a => attempt fuel layout look a s attempts
    | .many a =>
      let attempts := attempt fuel layout look a s attempts
      match run fuel layout a s with
      | .matched rest _ => attempt fuel layout look (.more a) rest attempts
      | _ => attempts
    | .more a =>
      let s := layout.skip s
      let attempts := attempt fuel layout look a s attempts
      match run fuel layout a s with
      | .matched rest _ => attempt fuel layout look (.more a) rest attempts
      | _ => attempts
    | .notAt a => attempt fuel layout look.negate a s attempts
    | .rule r =>
      let remaining := s.length
      let before := attempts.sizes remaining
      let attempts := attempt fuel (r.layoutIn layout) look r.body s attempts
      let wanted := match run fuel (r.layoutIn layout) r.body s with
        | .matched .. => look = .negated
        | _ => look ≠ .negated
      if layout = .token ∨ !wanted then attempts
      else attempts.record r (look = .negated) remaining before

def enumerate : List String → String
  | [] => ""
  | [a] => a
  | [a, b] => s!"{a} or {b}"
  | names => ", ".intercalate names.dropLast ++ ", or " ++ names.getLastD ""

def ruleNames (rules : List Rule) : List String :=
  (rules.mergeSort fun a b => (compare a b).isLE).eraseDups.map Rule.name

structure Failure where
  position : Nat
  message : String

def Attempts.message (attempts : Attempts) : String :=
  let expected := enumerate (ruleNames attempts.expected)
  let unexpected := enumerate (ruleNames attempts.unexpected)
  match attempts.unexpected.isEmpty, attempts.expected.isEmpty with
  | false, false => s!"unexpected {unexpected}; expected {expected}"
  | false, true => s!"unexpected {unexpected}"
  | true, false => s!"expected {expected}"
  | true, true => "unknown parsing error"

def failureOf (r : Rule) (s : List Char) : Failure :=
  let attempts :=
    attempt (fuelFor s) .free .plain (.rule r) s { remaining := s.length }
  { position := s.length - attempts.remaining, message := attempts.message }

def parse (r : Rule) (s : List Char) : Except Failure Tree :=
  match parse? r s with
  | some tree => .ok tree
  | none => .error (failureOf r s)

end SchemaDrift.Grammar
