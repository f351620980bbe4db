import SchemaDrift.Text.Blank
import SchemaDrift.Toml.Value
/-!
Reading TOML. Each function takes the text from some place on and gives what it read there with
what follows; `none` stands for a malformed text.
-/

set_option autoImplicit false

namespace SchemaDrift.Toml

/-! ### Blanks -/

def isBlank (c : Char) : Bool := c = ' ' || c = '\t'

def dropBlanks (s : List Char) : List Char := s.dropWhile isBlank

def isPlain (c : Char) : Bool := c = '\t' || (0x20 ≤ c.toNat && c.toNat ≠ 0x7F)

def lineEnd? (s : List Char) : Option (List Char) :=
  let s := dropBlanks s
  let s := match s with
    | '#' :: s => s.dropWhile isPlain
    | s => s
  match s with
  | [] => some []
  | '\n' :: s | '\r' :: '\n' :: s => some s
  | _ => none

def dropLines : Nat → List Char → List Char
  | 0, s => s
  | rounds + 1, s =>
    let s := dropBlanks s
    match s with
    | [] => []
    | '#' :: _ | '\n' :: _ | '\r' :: _ => match lineEnd? s with
      | some rest => dropLines rounds rest
      | none => s
    | s => s

/-! ### Strings -/

def hexDigit? (c : Char) : Option Nat :=
  if c.isDigit then some (c.toNat - '0'.toNat)
  else if 'a' ≤ c ∧ c ≤ 'f' then some (c.toNat - 'a'.toNat + 10)
  else if 'A' ≤ c ∧ c ≤ 'F' then some (c.toNat - 'A'.toNat + 10)
  else none

def coded? (digits : List Char) : Option Char := do
  let code ← digits.foldlM (fun n c => (hexDigit? c).map (n * 16 + ·)) 0
  if code.isValidChar then some (Char.ofNat code) else none

def escape? : List Char → Option (Char × List Char)
  | 'b' :: s => some ('\x08', s)
  | 't' :: s => some ('\t', s)
  | 'n' :: s => some ('\n', s)
  | 'f' :: s => some ('\x0c', s)
  | 'r' :: s => some ('\r', s)
  | '"' :: s => some ('"', s)
  | '\\' :: s => some ('\\', s)
  | 'u' :: s => if s.length < 4 then none else (coded? (s.take 4)).map (·, s.drop 4)
  | 'U' :: s => if s.length < 8 then none else (coded? (s.take 8)).map (·, s.drop 8)
  | _ => none

def lineBreak? : List Char → Option (List Char)
  | '\n' :: s | '\r' :: '\n' :: s => some s
  | _ => none

-- The value of a string up to its closing quote. A quote of `"` allows escapes. Each of the rounds
-- reads a character.
def quoted? (quote : Char) : Nat → List Char → Option (List Char × List Char)
  | 0, _ => none
  | _, [] => none
  | rounds + 1, c :: s =>
    if c = quote then some ([], s)
    else if c = '\\' ∧ quote = '"' then do
      let (read, rest) ← escape? s
      let (value, rest) ← quoted? quote rounds rest
      some (read :: value, rest)
    else if isPlain c then (quoted? quote rounds s).map fun (value, rest) => (c :: value, rest)
    else none

def continuation? (s : List Char) : Option (List Char) :=
  (lineBreak? (dropBlanks s)).map fun rest =>
    rest.dropWhile fun c => isBlank c || c = '\n' || c = '\r'

def block? (quote : Char) : Nat → List Char → Option (List Char × List Char)
  | 0, _ => none
  | _, [] => none
  | rounds + 1, c :: s =>
    if c = quote ∧ s.take 2 = [quote, quote] then
      let more := ((s.drop 2).take 2).takeWhile (· = quote)
      some (more, s.drop (2 + more.length))
    else if c = '\\' ∧ quote = '"' then
      match continuation? s with
      | some rest => block? quote rounds rest
      | none => do
        let (read, rest) ← escape? s
        let (value, rest) ← block? quote rounds rest
        some (read :: value, rest)
    else match lineBreak? (c :: s) with
      | some rest => (block? quote rounds rest).map fun (value, rest) => ('\n' :: value, rest)
      | none =>
        if isPlain c then (block? quote rounds s).map fun (value, rest) => (c :: value, rest)
        else none

def string? (quote : Char) (s : List Char) : Option (String × List Char) :=
  let found := match s with
    | a :: b :: rest =>
      if a = quote ∧ b = quote then
        let rest := (lineBreak? rest).getD rest
        block? quote rest.length rest
      else quoted? quote s.length s
    | s => quoted? quote s.length s
  found.map fun (value, rest) => (String.ofList value, rest)

/-! ### Keys -/

def isBare (c : Char) : Bool := c.isAlphanum || c = '_' || c = '-'

def keyPart? (s : List Char) : Option (String × List Char) :=
  match s with
  | '"' :: s => (quoted? '"' s.length s).map fun (name, rest) => (String.ofList name, rest)
  | '\'' :: s => (quoted? '\'' s.length s).map fun (name, rest) => (String.ofList name, rest)
  | s =>
    let name := s.takeWhile isBare
    if name.isEmpty then none else some (String.ofList name, s.drop name.length)

def key? : Nat → List Char → Option (List String × String × List Char)
  | 0, _ => none
  | rounds + 1, s => do
    let (name, rest) ← keyPart? (dropBlanks s)
    match dropBlanks rest with
    | '.' :: rest =>
      let (path, last, rest) ← key? rounds rest
      some (name :: path, last, rest)
    | rest => some ([], name, rest)

/-! ### Values -/

def isScalar (c : Char) : Bool :=
  c.isAlphanum || c = '+' || c = '-' || c = '_' || c = '.' || c = ':'

def scalar? (s : List Char) : Option (Value × List Char) :=
  let text := s.takeWhile isScalar
  let rest := s.drop text.length
  if text.isEmpty then none
  else if text = "true".toList then some (.flag true, rest)
  else if text = "false".toList then some (.flag false, rest)
  else some (.scalar, rest)

mutual

def value? : Nat → List Char → Option (Value × List Char)
  | 0, _ => none
  | rounds + 1, s => match s with
    | '"' :: s => (string? '"' s).map fun (text, rest) => (.text text, rest)
    | '\'' :: s => (string? '\'' s).map fun (text, rest) => (.text text, rest)
    | '[' :: s => (elements? rounds s).map fun (values, rest) => (.list values, rest)
    | '\x7b' :: s => match dropBlanks s with
      | '\x7d' :: rest => some (.table .inline [], rest)
      | s => (members? rounds { form := .inline } s).map fun (table, rest) => (table.toValue, rest)
    | s => scalar? s

def elements? : Nat → List Char → Option (List Value × List Char)
  | 0, _ => none
  | rounds + 1, s => match dropLines s.length s with
    | ']' :: rest => some ([], rest)
    | s => do
      let (value, rest) ← value? rounds s
      match dropLines rest.length rest with
      | ']' :: rest => some ([value], rest)
      | ',' :: rest =>
        let (values, rest) ← elements? rounds rest
        some (value :: values, rest)
      | _ => none

def members? : Nat → Table → List Char → Option (Table × List Char)
  | 0, _, _ => none
  | rounds + 1, table, s => do
    let (path, key, rest) ← key? s.length s
    match rest with
    | '=' :: rest =>
      let (value, rest) ← value? rounds (dropBlanks rest)
      let table ← table.add? path key value
      match dropBlanks rest with
      | '\x7d' :: rest => some (table, rest)
      | ',' :: rest => members? rounds table rest
      | _ => none
    | _ => none

end

/-! ### Documents -/

structure Progress where
  root : Table := { form := .header }
  current : List String := []

-- A line that opens a table, behind its bracket. No setting is a list of tables, so two brackets
-- are refused.
def headerLine? (progress : Progress) (s : List Char) : Option (Progress × List Char) := do
  let (path, key, rest) ← key? s.length s
  match rest with
  | ']' :: rest =>
    let root ← progress.root.opened? path key
    some ({ root, current := path ++ [key] }, ← lineEnd? rest)
  | _ => none

def memberLine? (progress : Progress) (s : List Char) : Option (Progress × List Char) := do
  let (path, key, rest) ← key? s.length s
  match rest with
  | '=' :: rest =>
    let s := dropBlanks rest
    let (value, rest) ← value? (s.length + 1) s
    let root ← Table.change? false (Table.add? path key value) progress.current progress.root
    some ({ progress with root }, ← lineEnd? rest)
  | _ => none

def lines? : Nat → Progress → List Char → Option Table
  | 0, _, _ => none
  | rounds + 1, progress, s => match dropBlanks s with
    | [] => some progress.root
    | '#' :: _ | '\n' :: _ | '\r' :: _ => (lineEnd? s).bind (lines? rounds progress)
    | '[' :: s => (headerLine? progress s).bind fun (progress, rest) => lines? rounds progress rest
    | s => (memberLine? progress s).bind fun (progress, rest) => lines? rounds progress rest

def document? (text : List Char) : Option Table :=
  let text := Text.dropOrderMark text
  lines? (text.length + 1) {} text

end SchemaDrift.Toml
