import KeyControl.Json.Token
import KeyControl.Number.Layout
import KeyControl.Text.Utf8

/-!
# Writing JSON

The written form of a value is compact: its tokens follow each other without blanks.  In strings
only the quote, the backslash and the characters below U+0020 are escaped, so a written value holds
no line feed and every character above U+007F stands for itself.
-/

namespace KeyControl.Json

/-- Doubles are written positionally from `10 ^ -5` up to `10 ^ 16`, with digits on both sides of
the point, and otherwise with an exponent that has neither plus sign nor padding. -/
def layout : Layout :=
  ⟨-5, 16, false, 1⟩

/-- The digit of a value below sixteen, in lower case. -/
def hexDigit (n : Nat) : Char :=
  Nat.digitChar n

/-- A character as it stands in a written string. -/
def escape (c : Char) : List Char :=
  if c = '\x22' then ['\\', '\x22']
  else if c = '\\' then ['\\', '\\']
  else if c < ' ' then
    match c with
    | '\x08' => ['\\', 'b']
    | '\t' => ['\\', 't']
    | '\n' => ['\\', 'n']
    | '\x0c' => ['\\', 'f']
    | '\r' => ['\\', 'r']
    | c => ['\\', 'u', '0', '0', hexDigit (c.toNat / 16), hexDigit (c.toNat % 16)]
  else [c]

def quote (s : String) : List Char :=
  '\x22' :: (s.toList.flatMap escape ++ ['\x22'])

/-- The written form of a value without parts; arrays and objects have none of their own. -/
def writeScalar : Json → List Char
  | .null => ['n', 'u', 'l', 'l']
  | .bool true => ['t', 'r', 'u', 'e']
  | .bool false => ['f', 'a', 'l', 's', 'e']
  | .int n => integerText n
  | .num x => layout.write x.shortest
  | .str s => quote s
  | .arr _ => []
  | .obj _ => []

/-- The written form of a token. -/
def Token.write : Token → List Char
  | .openArray => ['[']
  | .closeArray => [']']
  | .openObject => ['\x7b']
  | .closeObject => ['\x7d']
  | .comma => [',']
  | .colon => [':']
  | .scalar v => writeScalar v

mutual

/-- The tokens of a value. -/
def tokens : Json → List Token
  | .arr [] => [.openArray, .closeArray]
  | .arr (v :: vs) => .openArray :: (tokens v ++ itemTokens vs)
  | .obj [] => [.openObject, .closeObject]
  | .obj ((k, v) :: es) =>
    .openObject :: .scalar (.str k) :: .colon :: (tokens v ++ entryTokens es)
  | v => [.scalar v]

/-- The tokens of the items after the first, and of the array's end. -/
def itemTokens : List Json → List Token
  | [] => [.closeArray]
  | v :: vs => .comma :: (tokens v ++ itemTokens vs)

/-- The tokens of the entries after the first, and of the object's end. -/
def entryTokens : List (String × Json) → List Token
  | [] => [.closeObject]
  | (k, v) :: es => .comma :: .scalar (.str k) :: .colon :: (tokens v ++ entryTokens es)

end

/-- The written form of a value. -/
def write (v : Json) : List Char :=
  (tokens v).flatMap Token.write

/-- The written form of a value in UTF-8. -/
def encode (v : Json) : Bytes :=
  Utf8.encode (write v)

end KeyControl.Json
