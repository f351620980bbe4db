/-!
Tokens of Rust, and the trees that matching brackets make of them. Positions are numbers of
characters from the start of the text.
-/

set_option autoImplicit false

namespace SchemaDrift.Code

inductive LiteralKind where
  | text (value : String)
  | integer
  | float
  | other
deriving DecidableEq, Repr

inductive Token where
  -- An identifier or keyword; a raw identifier keeps its `r#`.
  | word (text : String)
  | lifetime (name : String)
  | literal (kind : LiteralKind) (text : String)
  -- A punctuation character; `joint` if another one follows it at once.
  | mark (c : Char) (joint : Bool)
deriving DecidableEq, Repr

inductive Delimiter where
  | paren
  | bracket
  | brace
deriving DecidableEq, Repr

inductive TokenTree where
  | token (start : Nat) (token : Token)
  -- What stands between two brackets, which are at `start` and `finish`.
  | group (start finish : Nat) (delimiter : Delimiter) (inner : List TokenTree)

def Token.text : Token → String
  | word text => text
  | lifetime name => "'" ++ name
  | literal _ text => text
  | mark c _ => c.toString

def Delimiter.opening : Delimiter → Char
  | paren => '('
  | bracket => '['
  | brace => '\x7b'

def Delimiter.closing : Delimiter → Char
  | paren => ')'
  | bracket => ']'
  | brace => '\x7d'

namespace TokenTree

def start : TokenTree → Nat
  | token start _ => start
  | group start .. => start

mutual

def text : TokenTree → String
  | token _ t => t.text
  | group _ _ delimiter inner =>
    delimiter.opening.toString ++ listText inner ++ delimiter.closing.toString

def listText : List TokenTree → String
  | [] => ""
  | tree :: trees => tree.text ++ listText trees

end

end TokenTree

def plainName (name : String) : String :=
  match name.toList with
  | 'r' :: '#' :: rest => String.ofList rest
  | _ => name

end SchemaDrift.Code
