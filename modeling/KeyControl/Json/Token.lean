import KeyControl.Json.Basic
import KeyControl.Number.Numeral

/-!
# The tokens of a JSON text

A JSON text is a sequence of tokens: the six structural marks, and scalars, which are the words
`null`, `true`, `false`, numerals and strings.  `Mode.step?` is a machine that takes one character
at a time and gives out the tokens that the character completes.  A word or numeral has no closing
mark of its own: it ends where a blank, a mark or the text's end is met, and is judged as a whole
there.
-/

namespace KeyControl.Json

/-- A token: one of the structural marks, or a value without parts. -/
inductive Token where
  | openArray
  | closeArray
  | openObject
  | closeObject
  | comma
  | colon
  | scalar (value : Json)

/-- Where the machine stands.  Letters and characters collected are held newest first. -/
inductive Mode where
  /-- Between tokens. -/
  | between
  /-- In a word or numeral. -/
  | word (letters : List Char)
  /-- In a string. -/
  | quoted (done : List Char)
  /-- After a backslash. -/
  | escape (done : List Char)
  /-- In the hexadecimal digits of an escape, after a high surrogate or not. -/
  | unit (done : List Char) (high : Option Nat) (digits : Nat) (value : Nat)
  /-- After a high surrogate, where a backslash has to follow. -/
  | pairSlash (done : List Char) (high : Nat)
  /-- After a high surrogate and a backslash, where a `u` has to follow. -/
  | pairLetter (done : List Char) (high : Nat)
deriving DecidableEq

/-- Blanks between tokens: space, tab, line feed and carriage return. -/
def blank (c : Char) : Bool :=
  c == ' ' || c == '\t' || c == '\n' || c == '\r'

/-- The mark that a character is. -/
def mark? : Char → Option Token
  | '[' => some .openArray
  | ']' => some .closeArray
  | '\x7b' => some .openObject
  | '\x7d' => some .closeObject
  | ',' => some .comma
  | ':' => some .colon
  | _ => none

/-- The value of a word or numeral. -/
def ofWord? (letters : List Char) : Option Json :=
  if letters = ['n', 'u', 'l', 'l'] then some .null
  else if letters = ['t', 'r', 'u', 'e'] then some (.bool true)
  else if letters = ['f', 'a', 'l', 's', 'e'] then some (.bool false)
  else
    match Numeral.ofChars? letters with
    | some (.integer n) => some (.int n)
    | some (.decimal d) => d.toDouble?.map .num
    | none => none

/-- The character that a letter after a backslash stands for. -/
def unescape? : Char → Option Char
  | '\x22' => some '\x22'
  | '\\' => some '\\'
  | '/' => some '/'
  | 'b' => some '\x08'
  | 'f' => some '\x0c'
  | 'n' => some '\n'
  | 'r' => some '\r'
  | 't' => some '\t'
  | _ => none

/-- The value of a hexadecimal digit, in either case. -/
def hexDigit? (c : Char) : Option Nat :=
  if c.isDigit then some (c.toNat - 48)
  else if 'a' ≤ c ∧ c ≤ 'f' then some (c.toNat - 87)
  else if 'A' ≤ c ∧ c ≤ 'F' then some (c.toNat - 55)
  else none

/-- Go on after the last digit of an escape.  A high surrogate needs a low one behind it, and a low
one a high one before it. -/
def closeUnit? (done : List Char) (high : Option Nat) (value : Nat) : Option Mode :=
  match high with
  | none =>
    if 0xD800 ≤ value ∧ value < 0xDC00 then some (.pairSlash done value)
    else if 0xDC00 ≤ value ∧ value < 0xE000 then none
    else some (.quoted (Char.ofNat value :: done))
  | some h =>
    if 0xDC00 ≤ value ∧ value < 0xE000 then
      some (.quoted (Char.ofNat (0x10000 + (h - 0xD800) * 0x400 + (value - 0xDC00)) :: done))
    else none

/-- Take one character: the new mode, and the tokens that the character completes. -/
def Mode.step? : Mode → Char → Option (Mode × List Token)
  | .between, c =>
    if blank c then some (.between, [])
    else if c = '\x22' then some (.quoted [], [])
    else
      match mark? c with
      | some m => some (.between, [m])
      | none => some (.word [c], [])
  | .word letters, c =>
    if blank c then (ofWord? letters.reverse).map fun v => (.between, [.scalar v])
    else
      match mark? c with
      | some m => (ofWord? letters.reverse).map fun v => (.between, [.scalar v, m])
      | none => some (.word (c :: letters), [])
  | .quoted done, c =>
    if c = '\x22' then some (.between, [.scalar (.str (String.ofList done.reverse))])
    else if c = '\\' then some (.escape done, [])
    else if c < ' ' then none
    else some (.quoted (c :: done), [])
  | .escape done, c =>
    if c = 'u' then some (.unit done none 0 0, [])
    else (unescape? c).map fun d => (.quoted (d :: done), [])
  | .unit done high digits value, c =>
    match hexDigit? c with
    | none => none
    | some d =>
      if digits < 3 then some (.unit done high (digits + 1) (value * 16 + d), [])
      else (closeUnit? done high (value * 16 + d)).map fun m => (m, [])
  | .pairSlash done high, c => if c = '\\' then some (.pairLetter done high, []) else none
  | .pairLetter done high, c => if c = 'u' then some (.unit done (some high) 0 0, []) else none

/-- The tokens that the text's end completes, if it may end here. -/
def Mode.close? : Mode → Option (List Token)
  | .between => some []
  | .word letters => (ofWord? letters.reverse).map fun v => [.scalar v]
  | _ => none

end KeyControl.Json
