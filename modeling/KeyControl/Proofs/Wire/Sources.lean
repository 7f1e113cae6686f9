import KeyControl.Proofs.Json.Blanks
import KeyControl.Proofs.Text.Utf8
import KeyControl.Proofs.Wire.Families

/-!
# Payloads that spell the same characters

The same characters may be handed over as text or as octets in UTF-8, and the octets may be fixed or
not.  These forms do not test for blank payloads alike: text counts the white space of Unicode, and
octets that of ASCII.  Yet the value of a payload is that of its characters in every form
(`Payload.Spells.load_eq_ok_iff`), because characters that are blank in either sense have no value
anyway (`Json.ofChars?_eq_none_of_blankCode`).

Blanks around the characters make no difference to their value (`Json.ofChars?_blanks_append`).  So
all sources of the same characters, with or without blanks around them, are decoded to one message,
or none of them is decodable (`Payload.decode_sources_agree`).
-/

namespace KeyControl

/-! ## Octets that are blank -/

theorem blankCode_of_blankOctet {b : UInt8} (h : blankOctet b = true) :
    blankCode b.toNat = true := by
  have hrange : 9 ≤ b.toNat ∧ b.toNat ≤ 13 ∨ b.toNat = 32 := by
    simp only [blankOctet, Bool.or_eq_true, Bool.and_eq_true, decide_eq_true_eq, beq_iff_eq] at h
    rcases h with ⟨hlow, hhigh⟩ | rfl
    · exact .inl ⟨UInt8.le_iff_toNat_le.1 hlow, UInt8.le_iff_toNat_le.1 hhigh⟩
    · exact .inr rfl
  simp only [blankCode, Bool.or_eq_true, Bool.and_eq_true, beq_iff_eq, decide_eq_true_eq]
  omega

/-- **Characters whose octets are all blank are white space.** -/
theorem Utf8.blankCode_of_blank_encode {cs : List Char} (h : Bytes.blank (encode cs) = true) :
    ∀ c ∈ cs, blankCode c.toNat = true := by
  intro c hc
  have hoctets : ∀ b ∈ String.utf8EncodeChar c, blankOctet b = true := fun b hb =>
    List.all_eq_true.1 h b (List.mem_flatMap.2 ⟨c, hc, hb⟩)
  obtain ⟨b, bs, hbs⟩ := List.exists_cons_of_ne_nil (String.utf8EncodeChar_ne_nil (c := c))
  have hb : blankOctet b = true := hoctets b (hbs ▸ List.mem_cons_self)
  -- From U+0080 on, no octet of a character is one of ASCII.
  have hascii : c.toNat < 0x80 := by
    by_contra hlarge
    have hle : 0x80 ≤ b.toNat :=
      le_toNat_of_mem_utf8EncodeChar (Nat.le_refl _) (Nat.le_of_not_lt hlarge) b
        (hbs ▸ List.mem_cons_self)
    rw [blankOctet_of_lt (by omega)] at hb
    cases hb
  have hc' : c.toNat = (UInt8.ofNat c.toNat).toNat := by
    rw [UInt8.toNat_ofNat']
    omega
  have hone : String.utf8EncodeChar c = [UInt8.ofNat c.toNat] :=
    utf8EncodeChar_of_one (by omega) hc'
  rw [hc']
  exact blankCode_of_blankOctet (hoctets _ (hone ▸ List.mem_singleton_self _))

theorem Text.blankCode_of_blank_ofChars {cs : List Char} (h : (ofChars cs).blank = true) :
    ∀ c ∈ cs, blankCode c.toNat = true :=
  fun c hc => List.all_eq_true.1 h (.scalar c) (List.mem_map_of_mem hc)

namespace Payload

/-! ## What a payload spells -/

/-- A payload spells characters, as text or in UTF-8. -/
inductive Spells (cs : List Char) : Payload → Prop where
  | octets : Spells cs (.octets (Utf8.encode cs))
  | text : Spells cs (.text (Text.ofChars cs))

namespace Spells

variable {cs : List Char} {p : Payload} (h : p.Spells cs)

include h

theorem surrogates?_eq_none : p.surrogates? = none := by
  cases h with
  | octets => rfl
  | text => exact Text.surrogates?_ofChars cs

/-- **The value of a payload is the value of the characters it spells.** -/
theorem load_eq_ok_iff {v : Json} : p.load = .ok v ↔ Json.ofChars? cs = some v := by
  -- A payload that is blank has no value, and neither have its characters.
  have hblank : (∀ c ∈ cs, blankCode c.toNat = true) → ∀ e : PayloadError,
      (Except.error e = .ok v ↔ Json.ofChars? cs = some v) := by
    intro hcs e
    rw [Json.ofChars?_eq_none_of_blankCode hcs]
    constructor <;> intro h <;> cases h
  cases h with
  | octets =>
    rw [load]
    split
    · next hall => exact hblank (Utf8.blankCode_of_blank_encode hall) _
    · rw [Json.ofBytes?, Utf8.decode?_encode, Option.bind_some]
      cases Json.ofChars? cs with
      | none => constructor <;> intro h <;> cases h
      | some w => rw [Except.ok.injEq, Option.some.injEq]
  | text =>
    rw [load]
    split
    · next hall => exact hblank (Text.blankCode_of_blank_ofChars hall) _
    · rw [Text.surrogates?_ofChars, Text.chars_ofChars]
      cases Json.ofChars? cs with
      | none => constructor <;> intro h <;> cases h
      | some w => rw [Except.ok.injEq, Option.some.injEq]

/-- **Payloads are decoded to the same messages if the characters they spell have the same
value.** -/
theorem decode_eq_ok_iff_of_spells {cs' : List Char} {p' : Payload} (h' : p'.Spells cs')
    (hvalue : Json.ofChars? cs = Json.ofChars? cs') {r : Reading} {m : Message} :
    p.decode r = .ok m ↔ p'.decode r = .ok m := by
  rw [decode_eq_ok_iff, decode_eq_ok_iff]
  simp only [h.load_eq_ok_iff, h'.load_eq_ok_iff, hvalue]

end Spells

/-! ## Sources -/

/-- What is handed over spells characters if it is their text, or their octets in any form. -/
inductive Source.Spells (cs : List Char) : Source → Prop where
  | octets : Source.Spells cs (.octets (Utf8.encode cs))
  | buffer : Source.Spells cs (.buffer (Utf8.encode cs))
  | view : Source.Spells cs (.view (Utf8.encode cs))
  | text : Source.Spells cs (.text (Text.ofChars cs))

theorem Source.Spells.ofSource {cs : List Char} {s : Source} (h : s.Spells cs) :
    (ofSource s).Spells cs := by
  cases h with
  | octets => exact .octets
  | buffer => exact .octets
  | view => exact .octets
  | text => exact .text

/-- **All sources of the same characters agree**, with or without blanks around them: either all of
them are decoded to the same message, or none of them is decodable. -/
theorem decode_sources_agree (r : Reading) (cs : List Char) {ws ws' : List Char}
    (hws : ∀ c ∈ ws, Json.blank c = true) (hws' : ∀ c ∈ ws', Json.blank c = true) :
    (∃ m, ∀ s : Source, s.Spells cs ∨ s.Spells (ws ++ cs ++ ws') →
      (ofSource s).decode r = .ok m) ∨
    ∀ s : Source, s.Spells cs ∨ s.Spells (ws ++ cs ++ ws') →
      ∃ cause, (ofSource s).decode r = .error (.undecodable cause) := by
  -- Every source spells characters with the value of the bare ones.
  have hspells : ∀ s : Source, s.Spells cs ∨ s.Spells (ws ++ cs ++ ws') →
      ∃ ds, (ofSource s).Spells ds ∧ Json.ofChars? ds = Json.ofChars? cs := by
    rintro s (hs | hs)
    · exact ⟨cs, hs.ofSource, rfl⟩
    · exact ⟨_, hs.ofSource, Json.ofChars?_blanks_append hws hws' cs⟩
  have hiff : ∀ s : Source, s.Spells cs ∨ s.Spells (ws ++ cs ++ ws') → ∀ m,
      (ofSource s).decode r = .ok m ↔ (octets (Utf8.encode cs)).decode r = .ok m := by
    intro s hs m
    obtain ⟨ds, hds, hvalue⟩ := hspells s hs
    exact hds.decode_eq_ok_iff_of_spells .octets hvalue
  cases hdecode : (octets (Utf8.encode cs)).decode r with
  | ok m => exact .inl ⟨m, fun s hs => (hiff s hs m).2 hdecode⟩
  | error e =>
    refine .inr fun s hs => ?_
    obtain ⟨ds, hds, -⟩ := hspells s hs
    cases hs' : (ofSource s).decode r with
    | ok m =>
      rw [(hiff s hs m).1 hs'] at hdecode
      cases hdecode
    | error e' =>
      obtain ⟨cause, rfl⟩ := undecodable_of_decode hds.surrogates?_eq_none hs'
      exact ⟨cause, rfl⟩

/-- A request after a tabulator and before a carriage return and a line feed: text and a view of
octets are decoded to the request, as its octets alone are. -/
theorem decode_sources_agree_crlf :
    let m := Message.request (.changeLayer "späť" none)
    let cs := ['\t', ' '] ++ Json.write m.wire ++ ['\r', '\n']
    (∀ c ∈ ['\t', ' '], Json.blank c = true) ∧ (∀ c ∈ ['\r', '\n'], Json.blank c = true) ∧
      (ofSource (.text (Text.ofChars cs))).decode .requests = .ok m ∧
      (ofSource (.view (Utf8.encode cs))).decode .requests = .ok m := by
  intro m cs
  have hws : ∀ c ∈ ['\t', ' '], Json.blank c = true := List.all_eq_true.1 rfl
  have hws' : ∀ c ∈ ['\r', '\n'], Json.blank c = true := List.all_eq_true.1 rfl
  have hr : Reading.requests ∈ m.readings := List.mem_cons_self
  refine ⟨hws, hws', ?_⟩
  -- The request need not be written out for this.
  clear_value m
  have hm : (ofSource (.octets (Utf8.encode (Json.write m.wire)))).decode .requests = .ok m :=
    Message.decode_payload hr
  rcases decode_sources_agree .requests (Json.write m.wire) hws hws' with ⟨m', hall⟩ | hall
  · rw [hall _ (.inl .octets)] at hm
    obtain rfl := Except.ok.inj hm
    exact ⟨hall _ (.inr .text), hall _ (.inr .view)⟩
  · obtain ⟨cause, herror⟩ := hall _ (.inl .octets)
    rw [herror] at hm
    cases hm

end Payload

end KeyControl
