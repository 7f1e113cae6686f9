import KeyControl.Daemon.Basic
import KeyControl.Proofs.Json.Octets
import KeyControl.Proofs.Wire.LineBuffer

/-!
# Frames keep apart

Whatever has a form on the wire is written as one JSON value and a line feed.  The value holds no
line feed of its own and is not blank (`Parcel.isLine_of_payload`), so in a stream of such frames the
line feeds stand between them and nowhere else: the segments of the stream are what was written, and
nothing is left over (`segments_joinLines`).

Both ways of framing rest on the segments.  Hence cutting the whole stream at once and feeding it to
a line buffer in chunks give the same, which is `Parcel.frames_of_encodable`: the main statement, for
messages and for foreign objects alike.
-/

namespace KeyControl

/-- A run of octets that a frame may hold: UTF-8 without control characters that is not blank. -/
structure IsLine (bs : Bytes) : Prop where
  utf8 : ∃ cs, Utf8.decode? bs = some cs
  not_blank : bs.blank = false
  le : ∀ b ∈ bs, 0x20 ≤ b

namespace IsLine

variable {bs : Bytes}

theorem newline_notMem (h : IsLine bs) : newline ∉ bs :=
  fun hm => absurd (h.le newline hm) (by decide)

end IsLine

theorem Json.isLine_encode (v : Json) : IsLine v.encode where
  utf8 := ⟨v.write, Utf8.decode?_encode v.write⟩
  not_blank := v.blank_encode
  le := v.le_of_mem_encode

namespace Parcel

theorem exists_encode_of_payload {p : Parcel} {bs : Bytes} (h : p.payload = .ok bs) :
    ∃ v : Json, bs = v.encode := by
  cases p with
  | message m =>
    cases h
    exact ⟨m.wire, rfl⟩
  | foreign wire =>
    rw [payload] at h
    split at h
    · next v _ =>
      cases h
      exact ⟨v, rfl⟩
    · cases h
  | value d => cases h

/-- **A payload is a line.** -/
theorem isLine_of_payload {p : Parcel} {bs : Bytes} (h : p.payload = .ok bs) : IsLine bs := by
  obtain ⟨v, rfl⟩ := exists_encode_of_payload h
  exact v.isLine_encode

theorem frame_of_payload {p : Parcel} {bs : Bytes} (h : p.payload = .ok bs) :
    p.frame = .ok (bs ++ [newline]) := by
  rw [Parcel.frame, h, Except.map]

theorem exists_payload_of_frame {p : Parcel} {frame : Bytes} (h : p.frame = .ok frame) :
    ∃ bs, p.payload = .ok bs ∧ frame = bs ++ [newline] := by
  rw [Parcel.frame] at h
  cases hp : p.payload with
  | error e =>
    rw [hp] at h
    cases h
  | ok bs =>
    rw [hp] at h
    cases h
    exact ⟨bs, rfl, rfl⟩

end Parcel

/-! ## Streams of frames -/

/-- The stream in which each line is followed by a line feed. -/
def joinLines (lines : List Bytes) : Bytes :=
  lines.flatMap (· ++ [newline])

@[simp] theorem joinLines_nil : joinLines [] = [] := rfl

@[simp] theorem joinLines_cons (line : Bytes) (lines : List Bytes) :
    joinLines (line :: lines) = line ++ newline :: joinLines lines := by
  rw [joinLines, List.flatMap_cons, List.append_assoc]
  rfl

@[simp] theorem joinLines_append (lines more : List Bytes) :
    joinLines (lines ++ more) = joinLines lines ++ joinLines more :=
  List.flatMap_append

/-- **The segments of a stream of lines are the lines**, and nothing is left over. -/
theorem segments_joinLines {lines : List Bytes} (h : ∀ line ∈ lines, IsLine line) :
    segments (joinLines lines) = (lines, []) := by
  induction lines with
  | nil => rfl
  | cons line lines ih =>
    obtain ⟨hline, hlines⟩ := List.forall_mem_cons.1 h
    rw [joinLines_cons, segments_append_newline hline.newline_notMem, ih hlines]

theorem filter_blank_of_isLine {lines : List Bytes} (h : ∀ line ∈ lines, IsLine line) :
    lines.filter (! ·.blank) = lines :=
  List.filter_eq_self.2 fun line hline => by rw [(h line hline).not_blank, Bool.not_false]

/-- **A stream of lines is cut into these lines.** -/
theorem Bytes.frames_joinLines {lines : List Bytes} (h : ∀ line ∈ lines, IsLine line) :
    frames (joinLines lines) = .ok lines := by
  rw [frames, segments_joinLines h]
  dsimp only
  rw [blank_nil, if_pos rfl, filter_blank_of_isLine h]

namespace LineBuffer

variable {limit : ℕ} {lines : List Bytes}

/-- A stream of lines overruns only if one of them is too long. -/
theorem overruns_joinLines (h : ∀ line ∈ lines, IsLine line)
    (hfits : ∀ line ∈ lines, tooLong limit line = false) :
    overruns limit (joinLines lines) = false := by
  rw [overruns_eq, segments_joinLines h, tooLong_nil, Bool.or_false, List.any_eq_false]
  intro line hline
  rw [hfits line hline]
  exact Bool.false_ne_true

/-- **The frames of a stream of lines are these lines**, if none of them is too long. -/
theorem framesOf_joinLines (h : ∀ line ∈ lines, IsLine line)
    (hfits : ∀ line ∈ lines, tooLong limit line = false) :
    framesOf limit (joinLines lines) = lines := by
  rw [framesOf_of_not (overruns_joinLines h hfits), segments_joinLines h, filter_blank_of_isLine h]

/-- **A stream of lines is handed back line by line, whatever the chunks**, and may end there. -/
theorem run_feed_joinLines (h : ∀ line ∈ lines, IsLine line)
    (hfits : ∀ line ∈ lines, tooLong limit line = false) {chunks : List Bytes}
    (hchunks : chunks.flatten = joinLines lines) :
    let result := (empty limit).run (chunks.map .feed)
    (∀ r ∈ result.2, ∃ frames, r = .ok frames) ∧ handed result.2 = lines ∧
      result.1.pending = 0 ∧ result.1.close.2 = .ok () := by
  intro result
  have hover : overruns limit chunks.flatten = false := hchunks ▸ overruns_joinLines h hfits
  obtain ⟨hok, hhanded, hpending, hclose⟩ := run_feeds_segments hover
  rw [hchunks, segments_joinLines h] at hhanded hpending hclose
  exact ⟨hok, hhanded.trans (filter_blank_of_isLine h), hpending, hclose⟩

end LineBuffer

namespace Parcel

/-- The parcels have these payloads, in order. -/
abbrev HavePayloads (ps : List Parcel) (lines : List Bytes) : Prop :=
  List.Forall₂ (fun p line => p.payload = .ok line) ps lines

theorem exists_havePayloads {ps : List Parcel} (h : ∀ p ∈ ps, ∃ bs, p.frame = .ok bs) :
    ∃ lines, HavePayloads ps lines := by
  induction ps with
  | nil => exact ⟨[], .nil⟩
  | cons p ps ih =>
    obtain ⟨⟨frame, hframe⟩, hps⟩ := List.forall_mem_cons.1 h
    obtain ⟨line, hline, -⟩ := exists_payload_of_frame hframe
    obtain ⟨lines, hlines⟩ := ih hps
    exact ⟨line :: lines, .cons hline hlines⟩

theorem isLine_of_havePayloads {ps : List Parcel} {lines : List Bytes}
    (h : HavePayloads ps lines) : ∀ line ∈ lines, IsLine line := by
  induction h with
  | nil => exact fun _ hline => absurd hline List.not_mem_nil
  | cons hp _ ih => exact List.forall_mem_cons.2 ⟨isLine_of_payload hp, ih⟩

/-- **The frames of parcels are the stream of their payloads.** -/
theorem frameAll_of_havePayloads {ps : List Parcel} {lines : List Bytes}
    (h : HavePayloads ps lines) : frameAll ps = .ok (joinLines lines) := by
  induction h with
  | nil => rfl
  | @cons p line ps lines hp _ ih =>
    rw [frameAll, frame_of_payload hp, ih, joinLines_cons]
    exact congrArg Except.ok (List.append_assoc line [newline] (joinLines lines))

theorem frame_of_frameAll {ps : List Parcel} {bs : Bytes} (h : frameAll ps = .ok bs) :
    ∀ p ∈ ps, ∃ frame, p.frame = .ok frame := by
  induction ps generalizing bs with
  | nil => exact fun _ hp => absurd hp List.not_mem_nil
  | cons p ps ih =>
    rw [frameAll] at h
    split at h
    · cases h
    · next frame hframe =>
      split at h
      · cases h
      · next rest hrest => exact List.forall_mem_cons.2 ⟨⟨frame, hframe⟩, ih hrest⟩

theorem exists_joinLines_of_frameAll {ps : List Parcel} {bs : Bytes} (h : frameAll ps = .ok bs) :
    ∃ lines, bs = joinLines lines ∧ ∀ line ∈ lines, IsLine line := by
  obtain ⟨lines, hlines⟩ := exists_havePayloads (frame_of_frameAll h)
  rw [frameAll_of_havePayloads hlines] at h
  exact ⟨lines, (Except.ok.inj h).symm, isLine_of_havePayloads hlines⟩

/-- **What is encoded never breaks the framing.**  Take any list of parcels that can be encoded.
Each has a payload that is UTF-8, not blank and free of control characters, and is encoded as that
and one line feed.  All encodings after one another are cut into exactly these payloads, at once as
well as by a line buffer without a limit, whatever the chunks; the buffer then holds nothing, and the
stream may end. -/
theorem frames_of_encodable {ps : List Parcel} (h : ∀ p ∈ ps, ∃ bs, p.frame = .ok bs) :
    ∃ lines, List.Forall₂ (fun p line =>
        p.payload = .ok line ∧ p.frame = .ok (line ++ [newline])) ps lines ∧
      (∀ line ∈ lines, IsLine line) ∧
      frameAll ps = .ok (joinLines lines) ∧
      (Payload.octets (joinLines lines)).frames = .ok lines ∧
      ∀ chunks : List Bytes, chunks.flatten = joinLines lines →
        let result := (LineBuffer.empty 0).run (chunks.map .feed)
        (∀ r ∈ result.2, ∃ frames, r = .ok frames) ∧ LineBuffer.handed result.2 = lines ∧
          result.1.pending = 0 ∧ result.1.close.2 = .ok () := by
  obtain ⟨lines, hpayloads⟩ := exists_havePayloads h
  have hlines := isLine_of_havePayloads hpayloads
  have hfits : ∀ line ∈ lines, tooLong 0 line = false := fun _ _ => rfl
  refine ⟨lines, hpayloads.imp fun p line hp => ⟨hp, frame_of_payload hp⟩, hlines,
    frameAll_of_havePayloads hpayloads, ?_, fun chunks hchunks =>
      LineBuffer.run_feed_joinLines hlines hfits hchunks⟩
  rw [Payload.frames, Bytes.frames_joinLines hlines]

/-- A push with a line feed in its text, a foreign object with one in a key and a control character
in a value, and an acknowledgement are three frames. -/
theorem frames_of_encodable_controls :
    let push : Parcel := .message (.notice (.messagePush ⟨.arr [.str "a\nb"], rfl⟩))
    let foreign : Parcel :=
      .foreign (.table [(.text (Text.ofString "k\n"), .text (Text.ofString "\x00"))])
    (∀ p ∈ [push, foreign, .message (.ack .ok)], ∃ bs, p.frame = .ok bs) ∧
      ∃ lines, lines.length = 3 ∧ frameAll [push, foreign, .message (.ack .ok)] =
        .ok (joinLines lines) ∧ (Payload.octets (joinLines lines)).frames = .ok lines := by
  intro push foreign
  have h : ∀ p ∈ [push, foreign, .message (.ack .ok)], ∃ bs, p.frame = .ok bs :=
    List.forall_mem_cons.2 ⟨⟨_, rfl⟩, List.forall_mem_cons.2 ⟨⟨_, rfl⟩,
      List.forall_mem_singleton.2 ⟨_, rfl⟩⟩⟩
  obtain ⟨lines, hlines, -, hframe, hframes, -⟩ := frames_of_encodable h
  exact ⟨h, lines, hlines.length_eq.symm, hframe, hframes⟩

end Parcel

end KeyControl
