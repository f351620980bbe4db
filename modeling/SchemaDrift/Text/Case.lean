import SchemaDrift.Text.CaseTable
/-!
Lower case, and the division of a name into words.
-/

set_option autoImplicit false

namespace SchemaDrift.Text

-- The lower-case form of a character, which for `İ` is two characters.
def lowerChar (c : Char) : List Char :=
  let n := c.toNat
  if n < 0x80 then [c.toLower]
  else if n = 0x130 then ['i', Char.ofNat 0x307]
  else match lowerRuns.find? fun (first, last, stride, _) => onRun n first last stride with
    | some (_, _, _, distance) => [Char.ofNat ((n : Int) + distance).toNat]
    | none => [c]

def isCased (c : Char) : Bool :=
  if c.toNat < 0x80 then c.isAlpha else inRanges casedRanges c.toNat

def isCaseIgnorable (c : Char) : Bool := inRanges caseIgnorableRanges c.toNat

def nextIsCased (s : List Char) : Bool :=
  match s.dropWhile isCaseIgnorable with
  | c :: _ => isCased c
  | [] => false

-- Lower case of `s`, where `before` holds in reverse what stands in front of it.
-- A capital sigma that ends a word becomes a final sigma.
def lowerAfter (before : List Char) : List Char → List Char
  | [] => []
  | c :: s =>
    let lower :=
      if c = 'Σ' then (if nextIsCased before && !nextIsCased s then ['ς'] else ['σ'])
      else lowerChar c
    lower ++ lowerAfter (c :: before) s

def lower (s : List Char) : List Char := lowerAfter [] s

-- A letter that is its own upper-case form and not its own lower-case form.
def isUpper (c : Char) : Bool :=
  if c.toNat < 0x80 then c.isUpper else c.toNat = 0x130 || onRuns upperLetters c.toNat

def isLower (c : Char) : Bool :=
  if c.toNat < 0x80 then c.isLower else onRuns lowerLetters c.toNat

def startsWord (a b : Char) (next : Option Char) : Bool :=
  (isLower a && isUpper b) || (isUpper a && b.isDigit) || (a.isDigit && isUpper b)
    || (a.isDigit && isLower b) || (isLower a && b.isDigit)
    || (isUpper a && isUpper b && next.any isLower)

def nameWords : List Char → List (List Char)
  | [] => [[]]
  | c :: s =>
    if c = '_' ∨ c = '-' ∨ c = ' ' then [] :: nameWords s
    else match s, nameWords s with
      | d :: rest, word :: words =>
        if startsWord c d rest.head? then [c] :: word :: words else (c :: word) :: words
      | _, word :: words => (c :: word) :: words
      | _, [] => [[c]]

def snakeCase (name : List Char) : List Char :=
  ['_'].intercalate ((nameWords name).filter (!·.isEmpty) |>.map lower)

end SchemaDrift.Text
