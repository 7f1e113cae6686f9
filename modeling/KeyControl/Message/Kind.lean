import KeyControl.Message.Document

/-!
# The kinds of message fields

Each field of a message has a kind, and each kind has a type of its own (`Kind.Carrier`), so that a
message, once built, holds valid values only.  `Kind.check` turns an unchecked value into one of
that type or names the fault; `Kind.toJson` gives its form on the wire.
-/

namespace KeyControl

/-- What a message field may hold. -/
inductive Kind where
  /-- Text. -/
  | text
  /-- An action on a virtual key. -/
  | action
  /-- A natural number below 2 to the power 16. -/
  | word16
  /-- A natural number below 2 to the power 64. -/
  | word64
  /-- A truth value. -/
  | flag
  /-- A list of texts. -/
  | texts
  /-- Any JSON value that survives a trip over the wire. -/
  | document
deriving DecidableEq

/-- Why a value does not do for a field. -/
inductive Fault where
  /-- The value has the wrong type for the kind; the name is that of its type. -/
  | mismatch (wanted : Kind) (found : String)
  /-- A number is negative or above the greatest one allowed. -/
  | outside (n : Int) (greatest : Nat)
  /-- No action has this name. -/
  | unknownAction (name : Text)
  /-- The value, or text in it, is none that JSON has. -/
  | document (cause : DocumentFault)
deriving DecidableEq

namespace Kind

/-- The type of the values of a kind. -/
abbrev Carrier : Kind → Type
  | text => String
  | action => Action
  | word16 => UInt16
  | word64 => UInt64
  | flag => Bool
  | texts => List String
  | document => Document

/-- What a value of the kind is called in error texts. -/
def description : Kind → String
  | text => "a string"
  | action => "a fake key action"
  | word16 => "an integer"
  | word64 => "an integer"
  | flag => "a boolean"
  | texts => "a sequence of strings"
  | document => "a JSON value"

/-- Check text. -/
def checkText : Datum → Except Fault String
  | .text t =>
    match t.toString? with
    | .ok s => .ok s
    | .error run => .error (.document (.surrogates run))
  | d => .error (.mismatch text d.typeName)

/-- Check an action, given as such or by name. -/
def checkAction : Datum → Except Fault Action
  | .action a => .ok a
  | .text t =>
    match t.toString? with
    | .ok s =>
      match Action.ofName? s with
      | some a => .ok a
      | none => .error (.unknownAction t)
    | .error _ => .error (.unknownAction t)
  | d => .error (.mismatch action d.typeName)

/-- Check a natural number up to a greatest one. -/
def checkWord (kind : Kind) (greatest : Nat) : Datum → Except Fault Nat
  | .int n =>
    if 0 ≤ n ∧ n ≤ greatest then .ok n.toNat else .error (.outside n greatest)
  | d => .error (.mismatch kind d.typeName)

/-- Check a truth value. -/
def checkFlag : Datum → Except Fault Bool
  | .bool b => .ok b
  | d => .error (.mismatch flag d.typeName)

/-- Check the items of a list of texts; the first that is none is the fault. -/
def checkItems : List Datum → Except Fault (List String)
  | [] => .ok []
  | d :: ds =>
    match checkText d with
    | .error e => .error e
    | .ok s =>
      match checkItems ds with
      | .error e => .error e
      | .ok ss => .ok (s :: ss)

/-- Check a list of texts. -/
def checkTexts : Datum → Except Fault (List String)
  | .list items => checkItems items
  | .tuple items => checkItems items
  | d => .error (.mismatch texts d.typeName)

/-- Check a document. -/
def checkDocument (d : Datum) : Except Fault Document :=
  match Document.ofDatum d with
  | .ok doc => .ok doc
  | .error cause => .error (.document cause)

/-- Check a value for a kind. -/
def check : (k : Kind) → Datum → Except Fault k.Carrier
  | text, d => checkText d
  | action, d => checkAction d
  | word16, d => (checkWord word16 0xFFFF d).map UInt16.ofNat
  | word64, d => (checkWord word64 0xFFFFFFFFFFFFFFFF d).map UInt64.ofNat
  | flag, d => checkFlag d
  | texts, d => checkTexts d
  | document, d => checkDocument d

/-- The form of a value on the wire. -/
def toJson : (k : Kind) → k.Carrier → Json
  | text, s => .str s
  | action, a => .str a.name
  | word16, n => .int n.toNat
  | word64, n => .int n.toNat
  | flag, b => .bool b
  | texts, ss => .arr (ss.map .str)
  | document, doc => doc.json

end Kind

end KeyControl
