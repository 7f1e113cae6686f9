import KeyControl.Message.Ack
import KeyControl.Message.Notice
import KeyControl.Message.Request

/-!
# Messages

A message is a request, a notice or an acknowledgement.  Requests and notices take the tagged form
on the wire, acknowledgements the status form.

A `Parcel` is anything that may be handed over where a message is expected: a message, a foreign
object that has a form on the wire of its own, or a value that has none.
-/

namespace KeyControl

/-- The three families of messages. -/
inductive MessageFamily where
  | requests
  | notices
  | acks
deriving DecidableEq

/-- A message of one of the three families. -/
inductive Message where
  | request (r : Request)
  | notice (n : Notice)
  | ack (a : Ack)
deriving DecidableEq

namespace Message

def family : Message → MessageFamily
  | request _ => .requests
  | notice _ => .notices
  | ack _ => .acks

def tagName : Message → String
  | request r => r.variant.tag.name
  | notice n => n.variant.tag.name
  | ack a => a.variant.tag.name

def values : Message → List (String × Datum)
  | request r => r.variant.values
  | notice n => n.variant.values
  | ack a => a.variant.values

def entries : Message → List (String × Json)
  | request r => r.variant.entries
  | notice n => n.variant.entries
  | ack a => a.variant.entries

/-- The form of a message on the wire. -/
def wire : Message → Json
  | request r => r.variant.tagged
  | notice n => n.variant.tagged
  | ack a => a.variant.status

/-- Read a message of a family from an unchecked structure. -/
def ofDatum : MessageFamily → Datum → Except ReadError Message
  | .requests, d => (Requests.readTagged d).map (request ∘ Request.ofVariant)
  | .notices, d => (Notices.readTagged d).map (notice ∘ Notice.ofVariant)
  | .acks, d => (Acks.readStatus d).map (ack ∘ Ack.ofVariant)

/-- Build the message of a tag, given by name, from the fields given; no such tag, no message. -/
def build? (family : MessageFamily) (tag : Text) (given : List (String × Datum)) :
    Option (Except BuildError Message) :=
  match family with
  | .requests =>
    (Requests.ofName? tag).map fun t => (Requests.build t given).map (request ∘ Request.ofVariant)
  | .notices =>
    (Notices.ofName? tag).map fun t => (Notices.build t given).map (notice ∘ Notice.ofVariant)
  | .acks => (Acks.ofName? tag).map fun t => (Acks.build t given).map (ack ∘ Ack.ofVariant)

/-- Whether two messages are the same: the same variant with the same fields, where the values of
fields are compared as unchecked values are. -/
def same (a b : Message) : Bool :=
  a.family == b.family && a.tagName == b.tagName &&
    Datum.sameItems (a.values.map Prod.snd) (b.values.map Prod.snd)

end Message

/-- Whatever is handed over where a message is expected. -/
inductive Parcel where
  | message (m : Message)
  /-- An object that is no message, but says what its form on the wire is. -/
  | foreign (wire : Datum)
  | value (d : Datum)
deriving DecidableEq

namespace Parcel

/-- Whether two parcels are the same.  Foreign objects are the same only as themselves, which two
parcels never show. -/
def same : Parcel → Parcel → Bool
  | message a, message b => a.same b
  | value a, value b => a.same b
  | _, _ => false

/-- Whether a parcel is the same as itself, which all are but a NaN. -/
def equalsItself : Parcel → Bool
  | value (.real .nan) => false
  | _ => true

end Parcel

end KeyControl
