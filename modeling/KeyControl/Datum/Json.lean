import KeyControl.Datum.Basic
import KeyControl.Json.Writer

/-!
# Writing unchecked values as JSON

The writer is more lenient than the check of a message: tuples and sets become arrays, octets become
base64 text, actions their names, doubles that are not finite become null, and keys may be numbers
(also those that are not finite, by their names), octets and actions as well as text.  What it
cannot write is text with lone surrogates, values of other types, and keys that are null, truth
values or containers.
-/

namespace KeyControl

/-! ## Base64

Each three octets become four letters, and one or two left over are filled up with equals signs. -/

namespace Base64

/-- The letter of a number below 64. -/
def letter (n : Nat) : Char :=
  if n < 26 then Char.ofNat (65 + n)
  else if n < 52 then Char.ofNat (71 + n)
  else if n < 62 then Char.ofNat (n - 4)
  else if n = 62 then '+'
  else '/'

/-- The letters of octets, after letters already written, which are held newest first. -/
def encodeAfter (written : List Char) : Bytes → List Char
  | [] => written.reverse
  | [a] =>
    let n := a.toNat
    (['=', '=', letter (n % 4 * 16), letter (n / 4)] ++ written).reverse
  | [a, b] =>
    let n := a.toNat * 256 + b.toNat
    (['=', letter (n % 16 * 4), letter (n / 16 % 64), letter (n / 1024)] ++ written).reverse
  | a :: b :: c :: rest =>
    let n := (a.toNat * 256 + b.toNat) * 256 + c.toNat
    encodeAfter (letter (n % 64) :: letter (n / 64 % 64) :: letter (n / 4096 % 64) ::
      letter (n / 262144) :: written) rest

/-- The letters of octets. -/
def encode (bs : Bytes) : List Char :=
  encodeAfter [] bs

end Base64

/-! ## Values -/

namespace Datum

/-- The text that stands for a key. -/
def toKey? : Datum → Option String
  | text t => t.toString?.toOption
  | int n => some (String.ofList (integerText n))
  | real x => some (String.ofList (Json.layout.writeDouble x))
  | octets bs => some (String.ofList (Base64.encode bs))
  | action a => some a.name
  | _ => none

mutual

/-- The JSON value that is written for a value. -/
def toJson? : Datum → Option Json
  | null => some .null
  | bool b => some (.bool b)
  | int n => some (.int n)
  | real (.finite x) => some (.num x)
  | real _ => some .null
  | text t => t.toString?.toOption.map .str
  | list items => (toItems? items).map .arr
  | tuple items => (toItems? items).map .arr
  | table entries => (toEntries? entries).map .obj
  | octets bs => some (.str (String.ofList (Base64.encode bs)))
  | action a => some (.str a.name)
  | foreign name => if name = "set" then some (.arr []) else none

def toItems? : List Datum → Option (List Json)
  | [] => some []
  | x :: xs =>
    match toJson? x, toItems? xs with
    | some v, some vs => some (v :: vs)
    | _, _ => none

def toEntries? : List (Datum × Datum) → Option (List (String × Json))
  | [] => some []
  | (k, x) :: es =>
    match toKey? k, toJson? x, toEntries? es with
    | some key, some v, some fs => some ((key, v) :: fs)
    | _, _, _ => none

end

end Datum

end KeyControl
