/-!
JSON values and their text, indented by two spaces, with the members of objects sorted by name.
-/

set_option autoImplicit false

namespace SchemaDrift

inductive Json where
  | null
  | bool (value : Bool)
  | number (n : Nat)
  | string (text : String)
  | array (items : List Json)
  | object (members : List (String × Json))

namespace Json

def hexDigit (n : Nat) : Char := if n < 10 then Char.ofNat (48 + n) else Char.ofNat (87 + n)

def escapeChar (c : Char) : List Char :=
  match c with
  | '"' => ['\\', '"']
  | '\\' => ['\\', '\\']
  | '\n' => ['\\', 'n']
  | '\r' => ['\\', 'r']
  | '\t' => ['\\', 't']
  | '\x08' => ['\\', 'b']
  | '\x0c' => ['\\', 'f']
  | c =>
    if c.toNat < 32 then ['\\', 'u', '0', '0', hexDigit (c.toNat / 16), hexDigit (c.toNat % 16)]
    else [c]

def quote (text : String) : String :=
  String.ofList ('"' :: text.toList.flatMap escapeChar ++ ['"'])

def newLine (level : Nat) : String := "\n" ++ String.ofList (List.replicate (2 * level) ' ')

def block (opening closing : String) (level : Nat) (items : List String) : String :=
  if items.isEmpty then opening ++ closing
  else opening ++ newLine (level + 1) ++ ("," ++ newLine (level + 1)).intercalate items
    ++ newLine level ++ closing

def insertMember (member : String × String) : List (String × String) → List (String × String)
  | [] => [member]
  | m :: members =>
    if member.1 ≤ m.1 then member :: m :: members else m :: insertMember member members

mutual
def print (level : Nat) : Json → String
  | null => "null"
  | bool value => if value then "true" else "false"
  | number n => toString n
  | string text => quote text
  | array items => block "[" "]" level (printItems (level + 1) items)
  | object members =>
    block "\x7b" "\x7d" level
      (((printMembers (level + 1) members).foldr insertMember []).map fun (name, value) =>
        quote name ++ ": " ++ value)

def printItems (level : Nat) : List Json → List String
  | [] => []
  | item :: items => print level item :: printItems level items

def printMembers (level : Nat) : List (String × Json) → List (String × String)
  | [] => []
  | (name, value) :: members => (name, print level value) :: printMembers level members
end

def text (json : Json) : String := json.print 0

def strings (texts : List String) : Json := array (texts.map string)

end Json

end SchemaDrift
