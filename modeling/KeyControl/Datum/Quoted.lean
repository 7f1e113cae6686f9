import KeyControl.Datum.Basic
import KeyControl.Number.Layout
import KeyControl.Text.CharacterClass

/-!
# Values in error texts

Error texts show foreign text in quotes, so that it can be told from the words around it.  The quote
is an apostrophe, unless the text holds an apostrophe and no double quote; the quote itself and the
backslash are escaped, and so is every character that is not printable.  Octets are shown in the
same way, with a `b` in front.

`Datum.quoted` shows a value: text in quotes, containers in their brackets, doubles in the fewest
digits that read back.  `Datum.plain` shows a value that stands alone: text without its quotes, and
an action by its name only.
-/

namespace KeyControl

/-! ## Text in quotes -/

namespace Quoted

def apostrophe : Nat := 0x27

def doubleQuote : Nat := 0x22

/-- The quote for a text, given by the numbers of its code points. -/
def mark (codes : List Nat) : Nat :=
  if codes.contains apostrophe && ! codes.contains doubleQuote then doubleQuote else apostrophe

/-- A number in lower-case hexadecimal digits, filled up with zeros to a width. -/
def hex (width n : Nat) : List Char :=
  let ds := Nat.toDigits 16 n
  List.replicate (width - ds.length) '0' ++ ds

/-- A number behind a backslash, in the shortest of the three forms that holds it. -/
def numbered (n : Nat) : List Char :=
  if n < 0x100 then '\\' :: 'x' :: hex 2 n
  else if n < 0x10000 then '\\' :: 'u' :: hex 4 n
  else '\\' :: 'U' :: hex 8 n

/-- A code point as it stands between quotes. -/
def escape (printable : Nat → Bool) (quote n : Nat) : List Char :=
  if n = quote ∨ n = 0x5C then ['\\', Char.ofNat n]
  else if n = 0x0A then ['\\', 'n']
  else if n = 0x0D then ['\\', 'r']
  else if n = 0x09 then ['\\', 't']
  else if printable n then [Char.ofNat n]
  else numbered n

/-- Code points in quotes. -/
def encode (printable : Nat → Bool) (codes : List Nat) : List Char :=
  let quote := mark codes
  Char.ofNat quote :: (codes.flatMap (escape printable quote) ++ [Char.ofNat quote])

end Quoted

/-- A text in quotes. -/
def Text.quoted (t : Text) : List Char :=
  Quoted.encode printableCode (t.map CodePoint.value)

/-- Octets in quotes; those that are printable ASCII are shown as characters. -/
def Bytes.quoted (bs : Bytes) : List Char :=
  'b' :: Quoted.encode (fun n => 0x20 ≤ n && n < 0x7F) (bs.map UInt8.toNat)

/-- A text in quotes is free of surrogates, so it is a string. -/
def Text.quotedString (t : Text) : String :=
  String.ofList t.quoted

/-! ## Values -/

/-- Doubles in error texts are positional from `10 ^ -4` up to `10 ^ 16`; an exponent has a sign and
at least two digits. -/
def Double.layout : Layout :=
  ⟨-4, 16, true, 2⟩

/-- A double as error texts show it. -/
def Double.text (x : Double) : List Char :=
  Double.layout.writeDouble x

namespace Datum

mutual

/-- A value as error texts show it. -/
def quoted : Datum → List Char
  | null => "None".toList
  | bool true => "True".toList
  | bool false => "False".toList
  | int n => integerText n
  | real x => x.text
  | text t => t.quoted
  | list [] => ['[', ']']
  | list (x :: xs) => '[' :: (quoted x ++ quotedItems xs ++ [']'])
  | tuple [] => ['(', ')']
  | tuple [x] => '(' :: (quoted x ++ [',', ')'])
  | tuple (x :: y :: xs) =>
    '(' :: (quoted x ++ (',' :: ' ' :: quoted y) ++ quotedItems xs ++ [')'])
  | table [] => ['\x7b', '\x7d']
  | table ((k, v) :: es) =>
    '\x7b' :: (quoted k ++ (':' :: ' ' :: quoted v) ++ quotedEntries es ++ ['\x7d'])
  | octets bs => bs.quoted
  | action a => ("<FakeKeyActionMessage." ++ a.name ++ ": '" ++ a.name ++ "'>").toList
  | foreign name =>
    (if name = "set" then "set()" else "<" ++ name ++ " object>").toList

def quotedItems : List Datum → List Char
  | [] => []
  | x :: xs => ',' :: ' ' :: (quoted x ++ quotedItems xs)

def quotedEntries : List (Datum × Datum) → List Char
  | [] => []
  | (k, v) :: es => ',' :: ' ' :: (quoted k ++ (':' :: ' ' :: quoted v) ++ quotedEntries es)

end

/-- A value that stands alone as plain text: text as it is, an action by its name, and anything else
as error texts show it. -/
def plain : Datum → Text
  | text t => t
  | action a => Text.ofString ("FakeKeyActionMessage." ++ a.name)
  | d => Text.ofChars d.quoted

end Datum

end KeyControl
