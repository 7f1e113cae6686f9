import KeyControl.Proofs.Json.Octets
import KeyControl.Proofs.Json.RoundTrip
import KeyControl.Proofs.Message.RoundTrip
import KeyControl.Wire.Codec

/-!
# Frames are decoded to the messages they carry

A message is written as one JSON value and a line feed.  `Message.decode_frame` puts the three round
trips together: the octets hold the characters that were written, the characters hold the value
(`Json.ofBytes?_encode_append`, the line feed being a blank behind it), and the value holds the
message (`Message.ofDatum_wire`).

Requests have one reading.  Notices and acknowledgements have two each, because a client takes
either; there the key of the status decides, which acknowledgements have and notices lack.
-/

namespace KeyControl

namespace Message

theorem blank_payload (m : Message) : m.payload.blank = false :=
  m.wire.blank_encode

/-- **The value of a message is loaded back**, also with blanks behind it. -/
theorem load_payload_append (m : Message) {ws : List Char} (hws : ∀ c ∈ ws, Json.blank c = true) :
    (Payload.octets (m.payload ++ Utf8.encode ws)).load = .ok m.wire := by
  rw [Payload.load, Bytes.blank_append, blank_payload, Bool.false_and, if_neg Bool.false_ne_true,
    payload, Json.ofBytes?_encode_append m.storable_wire hws]

theorem load_payload_newline (m : Message) :
    (Payload.octets (m.payload ++ [newline])).load = .ok m.wire :=
  m.load_payload_append (List.forall_mem_singleton.2 rfl : ∀ c ∈ ['\n'], Json.blank c = true)

/-- The readings that are meant to take a message. -/
def readings : Message → List Reading
  | request _ => [.requests]
  | notice _ => [.replies, .notices]
  | ack _ => [.replies, .acks]

/-- **The value of a message is read back**, in every reading that is meant to. -/
theorem read_wire {m : Message} {r : Reading} (hr : r ∈ m.readings) : r.read m.wire = .ok m := by
  have hwire := m.ofDatum_wire
  cases m with
  | request q =>
    obtain rfl := List.mem_singleton.1 hr
    exact hwire
  | notice n =>
    rcases List.mem_pair.1 hr with rfl | rfl
    · rw [Reading.read, get?_wire_notice, Option.isSome_none, if_neg Bool.false_ne_true]
      exact hwire
    · exact hwire
  | ack a =>
    rcases List.mem_pair.1 hr with rfl | rfl
    · rw [Reading.read, get?_wire_ack, Option.isSome_some, if_pos rfl]
      exact hwire
    · exact hwire

theorem decode_payload {m : Message} {r : Reading} (hr : r ∈ m.readings) :
    (Payload.octets m.payload).decode r = .ok m := by
  have hload := @load_payload_append m [] fun _ hc => absurd hc List.not_mem_nil
  rw [Utf8.encode_nil, List.append_nil] at hload
  rw [Payload.decode, hload]
  dsimp only
  rw [read_wire hr]

theorem decode_payload_newline {m : Message} {r : Reading} (hr : r ∈ m.readings) :
    (Payload.octets (m.payload ++ [newline])).decode r = .ok m := by
  rw [Payload.decode, load_payload_newline]
  dsimp only
  rw [read_wire hr]

/-- **Every message has a frame, and every reading that is meant to take the message decodes the
frame to that very message.** -/
theorem decode_frame (m : Message) :
    ∃ bs, (Parcel.message m).frame = .ok bs ∧
      ∀ r ∈ m.readings, (Payload.octets bs).decode r = .ok m := by
  refine ⟨m.payload ++ [newline], rfl, fun r hr => ?_⟩
  rw [Payload.decode, load_payload_newline]
  dsimp only
  rw [read_wire hr]

end Message

end KeyControl
