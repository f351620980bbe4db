/-!
White space: which characters are blank, trimming, and cutting a text into words. Further what
stands around a text: quotes written twice, and the byte order mark.
-/

set_option autoImplicit false

namespace SchemaDrift.Text

def isBlank (c : Char) : Bool :=
  let n := c.toNat
  (0x09 ≤ n && n ≤ 0x0D) || n == 0x20 || n == 0x85 || n == 0xA0 || n == 0x1680
    || (0x2000 ≤ n && n ≤ 0x200A) || n == 0x2028 || n == 0x2029 || n == 0x202F || n == 0x205F
    || n == 0x3000

def trimStart (s : List Char) : List Char := s.dropWhile isBlank

def trimEnd (s : List Char) : List Char := (s.reverse.dropWhile isBlank).reverse

def trim (s : List Char) : List Char := trimEnd (trimStart s)

def fields (isSeparator : Char → Bool) : List Char → List (List Char)
  | [] => []
  | c :: s =>
    if isSeparator c then fields isSeparator s
    else match s with
      | [] => [[c]]
      | d :: _ =>
        if isSeparator d then [c] :: fields isSeparator s
        else match fields isSeparator s with
          | word :: words => (c :: word) :: words
          | [] => [[c]]

def words (s : List Char) : List (List Char) := fields isBlank s

def asciiUpper (s : List Char) : String := String.ofList (s.map Char.toUpper)

def asciiLower (s : List Char) : String := String.ofList (s.map Char.toLower)

def upperWords (s : List Char) : String := " ".intercalate ((words s).map asciiUpper)

def undouble (quote : Char) : List Char → List Char
  | [] => []
  | [c] => [c]
  | c :: d :: s =>
    if c = quote ∧ d = quote then quote :: undouble quote s else c :: undouble quote (d :: s)

def double (quote : Char) : List Char → List Char
  | [] => []
  | c :: s => if c = quote then quote :: quote :: double quote s else c :: double quote s

def dropOrderMark : List Char → List Char
  | '\ufeff' :: s => s
  | s => s

end SchemaDrift.Text
