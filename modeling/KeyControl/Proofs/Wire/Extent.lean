import KeyControl.Proofs.Json.Blanks
import KeyControl.Proofs.Json.Extent
import KeyControl.Proofs.Text.Utf8
import KeyControl.Proofs.Wire.RoundTrip

/-!
# Where a message ends

A message is written as a string or as an object, so its octets end with the mark that closes it.
The octets of a message that is cut are not decoded, wherever the cut falls: between characters the
text lacks its closing mark, and within the octets of one character it is no text at all
(`Message.load_of_cut`).  With other octets behind it a message is not decoded either, unless these
are blanks of JSON (`Message.load_payload_append_eq_error`).  `Message.payload_extent` puts both
together, with the blanks that are permitted.
-/

namespace KeyControl

namespace Json

/-! ## Octets that are blank in JSON -/

/-- The octets of the blanks: space, tab, line feed and carriage return. -/
def blankOctet (b : UInt8) : Bool :=
  b == 32 || b == 9 || b == 10 || b == 13

theorem blankOctet_of_mem_encode {ws : List Char} (hws : ∀ c ∈ ws, blank c = true) {b : UInt8}
    (hb : b ∈ Utf8.encode ws) : blankOctet b = true := by
  obtain ⟨c, hc, hbc⟩ := List.mem_flatMap.1 hb
  have hone : ∀ a : UInt8, String.utf8EncodeChar c = [a] → b = a := fun a ha =>
    List.mem_singleton.1 (ha ▸ hbc)
  rcases eq_of_blank (hws c hc) with rfl | rfl | rfl | rfl
  · rw [hone 32 (by decide)]
    rfl
  · rw [hone 9 (by decide)]
    rfl
  · rw [hone 10 (by decide)]
    rfl
  · rw [hone 13 (by decide)]
    rfl

theorem exists_encode_eq_of_blankOctet {bs : Bytes} (hbs : ∀ b ∈ bs, blankOctet b = true) :
    ∃ ws, (∀ c ∈ ws, blank c = true) ∧ bs = Utf8.encode ws := by
  induction bs with
  | nil => exact ⟨[], List.forall_mem_nil _, rfl⟩
  | cons b bs ih =>
    obtain ⟨hb, hbs⟩ := List.forall_mem_cons.1 hbs
    obtain ⟨ws, hws, rfl⟩ := ih hbs
    have hchar : ∃ c, blank c = true ∧ [b] = String.utf8EncodeChar c := by
      simp only [blankOctet, Bool.or_eq_true, beq_iff_eq] at hb
      rcases hb with ((rfl | rfl) | rfl) | rfl
      · exact ⟨' ', rfl, by decide⟩
      · exact ⟨'\t', rfl, by decide⟩
      · exact ⟨'\n', rfl, by decide⟩
      · exact ⟨'\r', rfl, by decide⟩
    obtain ⟨c, hc, hbc⟩ := hchar
    refine ⟨c :: ws, List.forall_mem_cons.2 ⟨hc, hws⟩, ?_⟩
    rw [Utf8.encode_cons, ← hbc, List.singleton_append]

end Json

namespace Message

/-! ## Cut messages -/

theorem isEnclosed_wire (m : Message) : m.wire.isEnclosed = true := by
  have htagged : ∀ {F : Family} (v : Variant F), v.tagged.isEnclosed = true := by
    intro F v
    rw [Variant.tagged]
    split <;> rfl
  cases m with
  | request q => exact htagged q.variant
  | notice n => exact htagged n.variant
  | ack a => rfl

/-- What begins like the octets of a message is blank only if it is nothing. -/
theorem blank_of_append_eq_payload {m : Message} {b : UInt8} {bs cs : Bytes}
    (h : b :: bs ++ cs = m.payload) : Bytes.blank (b :: bs) = false := by
  obtain ⟨c, ds, hwrite, hc⟩ := m.wire.exists_write_eq_cons
  rw [payload, Json.encode, hwrite, Utf8.encode_cons] at h
  obtain ⟨a, as, has⟩ := List.exists_cons_of_ne_nil (String.utf8EncodeChar_ne_nil (c := c))
  rw [has, List.cons_append, List.cons_append] at h
  obtain ⟨rfl, -⟩ := List.cons.inj h
  have hb : 0x21 ≤ b.toNat :=
    Utf8.le_toNat_of_mem_utf8EncodeChar (by decide) hc b (has ▸ List.mem_cons_self)
  rw [Bytes.blank_cons, blankOctet_of_lt hb, Bool.false_and]

/-- **A message that is cut is malformed**, also if the cut falls within a character; nothing at all
is an empty payload. -/
theorem load_of_cut {m : Message} {bs cs : Bytes} (h : bs ++ cs = m.payload) (hcs : cs ≠ []) :
    (Payload.octets bs).load =
      .error (.undecodable (if bs = [] then .empty else .malformed)) := by
  cases bs with
  | nil => rfl
  | cons b bs =>
    have hvalue : Json.ofBytes? (b :: bs) = none := by
      rw [Json.ofBytes?]
      cases hdecode : Utf8.decode? (b :: bs) with
      | none => rfl
      | some ds =>
        -- The cut falls between characters, and some of them are cut off.
        rw [Utf8.decode?_eq_some_iff.1 hdecode] at h
        obtain ⟨es, hwrite, rfl⟩ := Utf8.exists_append_of_encode_eq h.symm
        refine Json.ofChars?_eq_none_of_cut m.storable_wire m.isEnclosed_wire hwrite ?_
        rintro rfl
        exact hcs rfl
    rw [Payload.load, blank_of_append_eq_payload h, if_neg Bool.false_ne_true, hvalue,
      if_neg (List.cons_ne_nil _ _)]

/-! ## Messages with something behind them -/

/-- **A message with anything but blanks behind it is malformed.** -/
theorem load_payload_append_eq_error (m : Message) {bs : Bytes}
    (hbs : ¬ ∀ b ∈ bs, Json.blankOctet b = true) :
    (Payload.octets (m.payload ++ bs)).load = .error (.undecodable .malformed) := by
  have hvalue : Json.ofBytes? (m.payload ++ bs) = none := by
    rw [Json.ofBytes?, payload, Json.encode, Utf8.decode?_encode_append]
    cases hdecode : Utf8.decode? bs with
    | none => rfl
    | some ds =>
      refine Json.ofChars?_write_append_eq_none m.storable_wire m.isEnclosed_wire fun hds => ?_
      rw [Utf8.decode?_eq_some_iff.1 hdecode] at hbs
      exact hbs fun b hb => Json.blankOctet_of_mem_encode hds hb
  rw [Payload.load, Bytes.blank_append, blank_payload, Bool.false_and, if_neg Bool.false_ne_true,
    hvalue]

/-- **The octets of a message begin no other message and end where it ends.**  No reading decodes
them when they are cut anywhere, and none when there is anything but blanks behind them; with blanks
behind them, every reading that is meant to take the message still does. -/
theorem payload_extent (m : Message) (r : Reading) :
    (∀ bs, bs <+: m.payload → bs ≠ m.payload →
      (Payload.octets bs).decode r =
        .error (.undecodable (if bs = [] then .empty else .malformed))) ∧
    (∀ bs : Bytes, (¬ ∀ b ∈ bs, Json.blankOctet b = true) →
      (Payload.octets (m.payload ++ bs)).decode r = .error (.undecodable .malformed)) ∧
    (r ∈ m.readings → ∀ bs : Bytes, (∀ b ∈ bs, Json.blankOctet b = true) →
      (Payload.octets (m.payload ++ bs)).decode r = .ok m) := by
  refine ⟨?_, ?_, ?_⟩
  · rintro bs ⟨cs, hcs⟩ hne
    have hrest : cs ≠ [] := by
      rintro rfl
      exact hne (by rw [← hcs, List.append_nil])
    rw [Payload.decode, load_of_cut hcs hrest]
  · intro bs hbs
    rw [Payload.decode, m.load_payload_append_eq_error hbs]
  · intro hr bs hbs
    obtain ⟨ws, hws, rfl⟩ := Json.exists_encode_eq_of_blankOctet hbs
    rw [Payload.decode, m.load_payload_append hws]
    dsimp only
    rw [read_wire hr]

/-- A request whose layer has a name of one character in two octets: it is malformed for every
reading when it is cut between these, and when it is sent twice in a row; with a carriage return and
a line feed behind it, it is decoded. -/
theorem payload_extent_within_character :
    let m := Message.request (.changeLayer "ü" none)
    (m.payload.take 24).getLast? = some 0xC3 ∧
      (∀ r, (Payload.octets (m.payload.take 24)).decode r = .error (.undecodable .malformed)) ∧
      (∀ r, (Payload.octets (m.payload ++ m.payload)).decode r =
        .error (.undecodable .malformed)) ∧
      (Payload.octets (m.payload ++ [13, 10])).decode .requests = .ok m := by
  intro m
  have hlast : (m.payload.take 24).getLast? = some 0xC3 := by decide +kernel
  have hcut : m.payload.take 24 ≠ m.payload := by decide +kernel
  have hfirst : (123 : UInt8) ∈ m.payload := by decide +kernel
  have hnil : m.payload.take 24 ≠ [] := by
    intro h
    rw [h] at hlast
    cases hlast
  have hr : Reading.requests ∈ m.readings := List.mem_cons_self
  refine ⟨hlast, fun r => ?_, fun r => ?_, ?_⟩
  · have herror := (payload_extent m r).1 _ (List.take_prefix 24 m.payload) hcut
    rwa [if_neg hnil] at herror
  · refine (payload_extent m r).2.1 m.payload fun hall => ?_
    cases hall 123 hfirst
  · exact (payload_extent m .requests).2.2 hr [13, 10] (List.all_eq_true.1 rfl)

end Message

end KeyControl
