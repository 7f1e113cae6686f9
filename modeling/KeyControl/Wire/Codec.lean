import KeyControl.Datum.Json
import KeyControl.Json.Reader
import KeyControl.Message.Wording
import KeyControl.Text.CharacterClass

/-!
# Messages as octets

Every message travels as one compact JSON value and a line feed.  `Parcel.payload` writes the value,
`Parcel.frame` adds the line feed; `Payload.decode` reads a value back, given as octets or as text.
Reading a payload fails in one of four ways: it is blank, it is no JSON text, its structure is no
message, or it is text that has no octets at all.
-/

namespace KeyControl

/-- What is handed over to be decoded. -/
inductive Payload where
  | octets (bs : Bytes)
  | text (t : Text)
deriving DecidableEq

/-- Why a payload is no message. -/
inductive DecodeError where
  /-- Nothing is there, or blanks only. -/
  | empty
  /-- What is there is no JSON text. -/
  | malformed
  /-- The JSON value is no message. -/
  | unreadable (cause : ReadError)
  /-- A line is longer than the limit. -/
  | lineTooLong (limit : Int)
deriving DecidableEq

/-- Why a payload cannot be decoded. -/
inductive PayloadError where
  /-- It is text with lone surrogates. -/
  | surrogates (run : SurrogateRun)
  /-- It is no message. -/
  | undecodable (cause : DecodeError)
deriving DecidableEq

/-- Which messages are expected. -/
inductive Reading where
  /-- Requests, which the daemon reads. -/
  | requests
  /-- Notices. -/
  | notices
  /-- Acknowledgements. -/
  | acks
  /-- Notices and acknowledgements, which a client reads. -/
  | replies
deriving DecidableEq

namespace Reading

/-- Read a message from a JSON value.  Of the replies, an object with a status is an
acknowledgement and anything else a notice. -/
def read (r : Reading) (v : Json) : Except ReadError Message :=
  match r with
  | requests => Message.ofDatum .requests (Datum.ofJson v)
  | notices => Message.ofDatum .notices (Datum.ofJson v)
  | acks => Message.ofDatum .acks (Datum.ofJson v)
  | replies =>
    if (v.get? statusKey).isSome then Message.ofDatum .acks (Datum.ofJson v)
    else Message.ofDatum .notices (Datum.ofJson v)

end Reading

namespace Payload

/-- The forms in which a payload may be handed over. -/
inductive Source where
  | octets (bs : Bytes)
  /-- Octets that may still be changed. -/
  | buffer (bs : Bytes)
  /-- A view of octets that are kept elsewhere. -/
  | view (bs : Bytes)
  | text (t : Text)
deriving DecidableEq

/-- What is handed over as a payload: octets that are not fixed are copied first. -/
def ofSource : Source → Payload
  | .octets bs => octets bs
  | .buffer bs => octets bs
  | .view bs => octets bs
  | .text t => text t

/-- The JSON value of a payload. -/
def load : Payload → Except PayloadError Json
  | octets bs =>
    if bs.blank then .error (.undecodable .empty)
    else
      match Json.ofBytes? bs with
      | some v => .ok v
      | none => .error (.undecodable .malformed)
  | text t =>
    if t.blank then .error (.undecodable .empty)
    else
      match t.surrogates? with
      | some run => .error (.surrogates run)
      | none =>
        match Json.ofChars? t.chars with
        | some v => .ok v
        | none => .error (.undecodable .malformed)

/-- The message of a payload. -/
def decode (r : Reading) (p : Payload) : Except PayloadError Message :=
  match p.load with
  | .error e => .error e
  | .ok v =>
    match r.read v with
    | .ok m => .ok m
    | .error cause => .error (.undecodable (.unreadable cause))

end Payload

/-- Why a parcel cannot be encoded. -/
inductive EncodeError where
  /-- It is a plain value, without a form on the wire. -/
  | notMessage (d : Datum)
  /-- Its form on the wire cannot be written as JSON. -/
  | unwritable
deriving DecidableEq

namespace Message

/-- The octets of a message, without the line feed. -/
def payload (m : Message) : Bytes :=
  m.wire.encode

end Message

namespace Parcel

/-- The octets of a parcel, without the line feed. -/
def payload : Parcel → Except EncodeError Bytes
  | message m => .ok m.payload
  | foreign wire =>
    match wire.toJson? with
    | some v => .ok v.encode
    | none => .error .unwritable
  | value d => .error (.notMessage d)

/-- The octets of a parcel, with the line feed that ends them. -/
def frame (p : Parcel) : Except EncodeError Bytes :=
  p.payload.map (· ++ [newline])

end Parcel

namespace DecodeError

/-- The wording of an error in a payload. -/
def text : DecodeError → String
  | empty => "empty payload"
  | malformed => "malformed JSON"
  | unreadable cause => cause.text
  | lineTooLong limit => "line exceeds " ++ integerString limit ++ " bytes"

end DecodeError

namespace EncodeError

/-- The wording of an error in encoding. -/
def text : EncodeError → String
  | notMessage d => "not a remapwire message: " ++ String.ofList d.quoted
  | unwritable => "cannot encode"

end EncodeError

end KeyControl
