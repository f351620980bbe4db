import SchemaDrift.Code.Token
import SchemaDrift.Text.IdentifierTable
/-!
Literals: strings with and without escapes, characters and numbers. Each function takes the text
from some place on and gives what follows the literal there, if there is one.
-/

set_option autoImplicit false

namespace SchemaDrift.Code.Literal

def word? : List Char → Option (List Char × List Char)
  | [] => none
  | c :: s =>
    if Text.isIdentifierStart c then
      some (c :: s.takeWhile Text.isIdentifierPart, s.dropWhile Text.isIdentifierPart)
    else none

-- Literals may end in an identifier without a blank between.
def dropSuffix (s : List Char) : List Char :=
  match word? s with
  | some (_, rest) => rest
  | none => s

def hexDigit? (c : Char) : Option Nat :=
  if c.isDigit then some (c.toNat - '0'.toNat)
  else if 'a' ≤ c ∧ c ≤ 'f' then some (c.toNat - 'a'.toNat + 10)
  else if 'A' ≤ c ∧ c ≤ 'F' then some (c.toNat - 'A'.toNat + 10)
  else none

/-! ### Strings -/

-- Strings of characters, of bytes, and of bytes that end at the first zero.
inductive Style where
  | text
  | bytes
  | terminated
deriving DecidableEq, Repr

def Style.allows : Style → Char → Bool
  | text, _ => true
  | bytes, c => c.toNat < 0x80
  | terminated, c => c ≠ '\x00'

def Style.escape? (style : Style) (c : Char) : Option Char :=
  match c with
  | 'n' => some '\n'
  | 'r' => some '\r'
  | 't' => some '\t'
  | '\\' | '\'' | '"' => some c
  | '0' => if style = .terminated then none else some '\x00'
  | _ => none

inductive Progress where
  | plain
  -- Behind a carriage return, which a line feed has to follow.
  | carriageReturn
  | backslash
  | hex
  | secondHex (first : Nat)
  | codeStart
  | code (value digits : Nat)
  | continuation
  | continuationReturn
deriving DecidableEq, Repr

inductive Step where
  | refuse
  | close
  | next (progress : Progress) (read : Option Char)
deriving DecidableEq, Repr

def plainStep (style : Style) (c : Char) : Step :=
  if c = '"' then .close
  else if c = '\\' then .next .backslash none
  else if c = '\r' then .next .carriageReturn none
  else if style.allows c then .next .plain (some c)
  else .refuse

-- A character given by its code; zero ends a terminated string.
def codeStep (style : Style) (value : Nat) : Step :=
  if value.isValidChar ∧ !(style = .terminated ∧ value = 0) then
    .next .plain (some (Char.ofNat value))
  else .refuse

def Progress.step (progress : Progress) (style : Style) (c : Char) : Step :=
  match progress with
  | plain => plainStep style c
  | carriageReturn => if c = '\n' then .next .plain (some '\n') else .refuse
  | backslash =>
    if c = 'x' then .next .hex none
    else if c = 'u' ∧ style ≠ .bytes then .next .codeStart none
    else if c = '\n' then .next .continuation none
    else if c = '\r' then .next .continuationReturn none
    else match style.escape? c with
      | some read => .next .plain (some read)
      | none => .refuse
  | hex => match hexDigit? c with
    | some digit =>
      if style = .text ∧ 8 ≤ digit then .refuse else .next (.secondHex digit) none
    | none => .refuse
  | secondHex first => match hexDigit? c with
    | some digit => codeStep style (first * 16 + digit)
    | none => .refuse
  | codeStart => if c = '\x7b' then .next (.code 0 0) none else .refuse
  | code value digits =>
    if c = '_' ∧ digits ≠ 0 then .next (.code value digits) none
    else if c = '\x7d' ∧ digits ≠ 0 then codeStep style value
    else match hexDigit? c with
      | some digit =>
        if digits < 6 then .next (.code (value * 16 + digit) (digits + 1)) none else .refuse
      | none => .refuse
  | continuation =>
    if c = ' ' ∨ c = '\t' ∨ c = '\n' then .next .continuation none
    else if c = '\r' then .next .continuationReturn none
    else plainStep style c
  | continuationReturn => if c = '\n' then .next .continuation none else .refuse

def quoted? (style : Style) (progress : Progress) : List Char → Option (List Char × List Char)
  | [] => none
  | c :: s => match progress.step style c with
    | .refuse => none
    | .close => some ([], s)
    | .next progress read =>
      (quoted? style progress s).map fun (value, rest) => (read.toList ++ value, rest)

-- The content of a raw string, which ends at a quote with as many `#` as at its start.
def rawContent? (style : Style) (hashes : Nat) : List Char → Option (List Char × List Char)
  | [] => none
  | c :: s =>
    if c = '"' ∧ s.take hashes = List.replicate hashes '#' then some ([], s.drop hashes)
    else if (c = '\r' ∧ s.head? ≠ some '\n') ∨ !style.allows c then none
    else (rawContent? style hashes s).map fun (value, rest) => (c :: value, rest)

def raw? (style : Style) (s : List Char) : Option (List Char × List Char) :=
  let hashes := (s.takeWhile (· = '#')).length
  match s.drop hashes with
  | '"' :: rest => if hashes ≤ 255 then rawContent? style hashes rest else none
  | _ => none

/-! ### Characters -/

def escaped? (style : Style) (progress : Progress) : List Char → Option (List Char)
  | [] => none
  | c :: s => match progress.step style c with
    | .next .continuation _ | .next .continuationReturn _ => none
    | .next _ (some _) => some s
    | .next progress none => escaped? style progress s
    | _ => none

def character? (style : Style) (s : List Char) : Option (List Char) :=
  let rest := match s with
    | [] => none
    | '\\' :: s => escaped? style .backslash s
    | c :: s => if style.allows c then some s else none
  match rest with
  | some ('\'' :: rest) => some rest
  | _ => none

/-! ### Numbers -/

structure Mantissa where
  hasPoint : Bool
  exponent : Option (List Char)
  rest : List Char

-- No second point and no identifier may follow the point.
def mantissa? (hasPoint : Bool) : List Char → Option Mantissa
  | [] => some { hasPoint, exponent := none, rest := [] }
  | c :: s =>
    if c.isDigit ∨ c = '_' then mantissa? hasPoint s
    else if c = '.' ∧ !hasPoint then
      if s.head?.any fun d => d = '.' || Text.isIdentifierStart d then none else mantissa? true s
    else
      let exponent := if c = 'e' ∨ c = 'E' then some s else none
      some { hasPoint, exponent, rest := c :: s }

def exponent? (signed valued : Bool) : List Char → Option (List Char)
  | [] => if valued then some [] else none
  | c :: s =>
    if c.isDigit then exponent? signed true s
    else if c = '_' then exponent? signed valued s
    else if valued then some (c :: s)
    else if (c = '+' ∨ c = '-') ∧ !signed then exponent? true false s
    else none

-- An identifier may end a number, but no other character of identifiers may follow.
def numberEnd? (s : List Char) : Option (List Char) :=
  let rest := dropSuffix s
  if rest.head?.any Text.isIdentifierPart then none else some rest

def float? (s : List Char) : Option (List Char) :=
  if !s.head?.any Char.isDigit then none
  else match mantissa? false s with
    | none => none
    | some m => match m.exponent with
      | none => if m.hasPoint then numberEnd? m.rest else none
      | some s => match exponent? false false s with
        | some rest => numberEnd? rest
        | none => if m.hasPoint then numberEnd? m.rest else none

def digits? (base : Nat) (found : Bool) : List Char → Option (List Char)
  | [] => if found then some [] else none
  | c :: s =>
    let finish := if found then some (c :: s) else none
    if c = '_' then if !found ∧ base = 10 then none else digits? base found s
    else match hexDigit? c with
      | some digit =>
        if digit < base then digits? base true s
        else if c.isDigit then none
        else finish
      | none => finish

def integer? (s : List Char) : Option (List Char) :=
  let digits := match s with
    | '0' :: 'x' :: s => digits? 16 false s
    | '0' :: 'o' :: s => digits? 8 false s
    | '0' :: 'b' :: s => digits? 2 false s
    | s => digits? 10 false s
  digits.bind numberEnd?

/-! ### All literals -/

def read? (s : List Char) : Option (LiteralKind × List Char) :=
  let text := fun (found : Option (List Char × List Char)) =>
    found.map fun (value, rest) => (LiteralKind.text (String.ofList value), dropSuffix rest)
  let other := fun (found : Option (List Char)) =>
    found.map fun rest => (LiteralKind.other, dropSuffix rest)
  let number := ((float? s).map fun rest => (LiteralKind.float, rest)).or
    ((integer? s).map fun rest => (LiteralKind.integer, rest))
  match s with
  | '"' :: rest => text (quoted? .text .plain rest)
  | 'r' :: rest => text (raw? .text rest)
  | 'b' :: '"' :: rest => other ((quoted? .bytes .plain rest).map (·.2))
  | 'b' :: 'r' :: rest => other ((raw? .bytes rest).map (·.2))
  | 'b' :: '\'' :: rest => other (character? .bytes rest)
  | 'c' :: '"' :: rest => other ((quoted? .terminated .plain rest).map (·.2))
  | 'c' :: 'r' :: rest => other ((raw? .terminated rest).map (·.2))
  | '\'' :: rest => other (character? .text rest)
  | _ => number

end SchemaDrift.Code.Literal
