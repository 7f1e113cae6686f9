import KeyControl.Bytes
import KeyControl.Json.Basic
import KeyControl.Text.CodePoint

/-!
# Values that nobody has checked yet

A `Datum` is whatever a caller, a decoded text or a credential store may hand over: JSON values, but
also tuples, tables with keys that are not text, octets, actions, text with lone surrogates,
doubles that are not finite, and values of other types, of which only the name of the type is known.
Messages are built from data by checking them; see `KeyControl.Message.Kind`.

A request that acts on a named virtual key says which of four actions to take.  On the wire an
`Action` is its bare name.
-/

namespace KeyControl

/-! ## Actions -/

/-- An action on a virtual key. -/
inductive Action where
  | press
  | release
  | tap
  | toggle
deriving DecidableEq

namespace Action

def all : List Action :=
  [press, release, tap, toggle]

/-- The name of an action on the wire. -/
def name : Action → String
  | press => "Press"
  | release => "Release"
  | tap => "Tap"
  | toggle => "Toggle"

/-- The action of a name. -/
def ofName? (s : String) : Option Action :=
  all.find? (·.name == s)

@[simp] theorem ofName?_name (a : Action) : ofName? a.name = some a := by
  cases a <;> decide

theorem name_of_ofName? {s : String} {a : Action} (h : ofName? s = some a) : a.name = s := by
  simpa using List.find?_some h

end Action

/-! ## Values -/

/-- An unchecked value. -/
inductive Datum where
  | null
  | bool (b : Bool)
  | int (n : Int)
  | real (x : Double)
  | text (t : Text)
  | list (items : List Datum)
  | tuple (items : List Datum)
  | table (entries : List (Datum × Datum))
  | octets (bs : Bytes)
  | action (a : Action)
  | foreign (typeName : String)
deriving Inhabited

namespace Datum

/-- The name of the type of a value, as error texts give it. -/
def typeName : Datum → String
  | null => "NoneType"
  | bool _ => "bool"
  | int _ => "int"
  | real _ => "float"
  | text _ => "str"
  | list _ => "list"
  | tuple _ => "tuple"
  | table _ => "dict"
  | octets _ => "bytes"
  | action _ => "FakeKeyActionMessage"
  | foreign name => name

def isNull : Datum → Bool
  | null => true
  | _ => false

/-- The text a string spells, as a value. -/
def ofString (s : String) : Datum :=
  text (Text.ofString s)

/-- The value of a text key of a table. -/
def lookup (key : Text) : List (Datum × Datum) → Option Datum
  | [] => none
  | (text k, v) :: rest => if k = key then some v else lookup key rest
  | _ :: rest => lookup key rest

mutual

/-- A JSON value as an unchecked one. -/
def ofJson : Json → Datum
  | .null => null
  | .bool b => bool b
  | .int n => int n
  | .num x => real (.finite x)
  | .str s => ofString s
  | .arr items => list (ofItems items)
  | .obj entries => table (ofEntries entries)

def ofItems : List Json → List Datum
  | [] => []
  | v :: vs => ofJson v :: ofItems vs

def ofEntries : List (String × Json) → List (Datum × Datum)
  | [] => []
  | (k, v) :: es => (ofString k, ofJson v) :: ofEntries es

end

/-! ## Equality -/

mutual

def beq : Datum → Datum → Bool
  | null, null => true
  | bool a, bool b => a == b
  | int m, int n => m == n
  | real x, real y => decide (x = y)
  | text s, text t => s == t
  | list xs, list ys => beqItems xs ys
  | tuple xs, tuple ys => beqItems xs ys
  | table es, table fs => beqEntries es fs
  | octets bs, octets cs => bs == cs
  | action a, action b => decide (a = b)
  | foreign m, foreign n => m == n
  | _, _ => false

def beqItems : List Datum → List Datum → Bool
  | [], [] => true
  | x :: xs, y :: ys => beq x y && beqItems xs ys
  | _, _ => false

def beqEntries : List (Datum × Datum) → List (Datum × Datum) → Bool
  | [], [] => true
  | (k, x) :: es, (l, y) :: fs => beq k l && beq x y && beqEntries es fs
  | _, _ => false

end

mutual

theorem beq_iff : ∀ x y : Datum, beq x y = true ↔ x = y
  | list xs, y => by cases y <;> simp [beq, beqItems_iff xs]
  | tuple xs, y => by cases y <;> simp [beq, beqItems_iff xs]
  | table es, y => by cases y <;> simp [beq, beqEntries_iff es]
  | null, y => by cases y <;> simp [beq]
  | bool _, y => by cases y <;> simp [beq]
  | int _, y => by cases y <;> simp [beq]
  | real _, y => by cases y <;> simp [beq]
  | text _, y => by cases y <;> simp [beq]
  | octets _, y => by cases y <;> simp [beq]
  | action _, y => by cases y <;> simp [beq]
  | foreign _, y => by cases y <;> simp [beq]

theorem beqItems_iff : ∀ xs ys : List Datum, beqItems xs ys = true ↔ xs = ys
  | [], ys => by cases ys <;> simp [beqItems]
  | x :: xs, ys => by cases ys <;> simp [beqItems, beq_iff x, beqItems_iff xs]

theorem beqEntries_iff : ∀ es fs : List (Datum × Datum), beqEntries es fs = true ↔ es = fs
  | [], fs => by cases fs <;> simp [beqEntries]
  | (k, x) :: es, fs => by
    cases fs <;> simp [beqEntries, beq_iff k, beq_iff x, beqEntries_iff es, Prod.ext_iff]

end

instance : DecidableEq Datum :=
  fun x y => decidable_of_iff _ (beq_iff x y)

/-! ## Sameness

Two values are the same if they are equal as numbers, texts or containers.  Truth values count as
the integers one and zero, integers and doubles compare by exact value, and tables compare without
regard to order. -/

/-- The value of a number or truth value that is an integer. -/
def asInt? : Datum → Option Int
  | bool b => some (if b then 1 else 0)
  | int n => some n
  | _ => none

/-- Sameness of doubles: no NaN is the same as anything. -/
def sameDouble : Double → Double → Bool
  | .finite x, .finite y => x.sameValue y
  | .infinite a, .infinite b => a == b
  | _, _ => false

/-- Sameness of an integer and a double. -/
def sameNumber (n : Int) : Double → Bool
  | .finite x => x.equalsInt n
  | _ => false

/-- Sameness of values that have no parts. -/
def sameAtom : Datum → Datum → Bool
  | null, null => true
  | real x, real y => sameDouble x y
  | real x, b => b.asInt?.any (sameNumber · x)
  | a, real y => a.asInt?.any (sameNumber · y)
  | text s, text t => s == t
  | octets bs, octets cs => bs == cs
  | action a, action b => a == b
  | foreign a, foreign b => a == "set" && b == "set"
  | a, b =>
    match a.asInt?, b.asInt? with
    | some m, some n => m == n
    | _, _ => false

mutual

/-- Whether two values are the same. -/
def same : Datum → Datum → Bool
  | list xs, list ys => sameItems xs ys
  | list _, _ => false
  | tuple xs, tuple ys => sameItems xs ys
  | tuple _, _ => false
  | table es, table fs => es.length == fs.length && sameEntries es fs
  | table _, _ => false
  | a, b => sameAtom a b

/-- Whether two lists hold the same values in the same places. -/
def sameItems : List Datum → List Datum → Bool
  | [], [] => true
  | x :: xs, y :: ys => same x y && sameItems xs ys
  | _, _ => false

/-- Whether every entry of one table is in another. -/
def sameEntries : List (Datum × Datum) → List (Datum × Datum) → Bool
  | [], _ => true
  | (k, v) :: es, fs => fs.any (fun f => same k f.1 && same v f.2) && sameEntries es fs

end

/-- Set the value of a key.  A new key goes to the end, a known one keeps its place. -/
def put (key value : Datum) : List (Datum × Datum) → List (Datum × Datum)
  | [] => [(key, value)]
  | (k, v) :: rest => if same key k then (k, value) :: rest else (k, v) :: put key value rest

/-- The table of a list of pairs, later ones replacing earlier ones. -/
def ofPairs (pairs : List (Datum × Datum)) : Datum :=
  table (pairs.foldl (fun es e => put e.1 e.2 es) [])

end Datum

end KeyControl
