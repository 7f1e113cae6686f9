import KeyControl.Proofs.Wire.Decoding
import KeyControl.Proofs.Wire.LineBuffer

/-!
# Two ways of framing

A run of octets can be cut into frames at once (`Payload.frames`), or be fed to a line buffer in
chunks that is closed at the end.  Without a limit, both come to the same: the frames are the
complete segments that are not blank (`LineBuffer.run_feeds_segments`), and a remainder that is not
blank is an error which tells its length.  `Payload.frames_agree` says so of every run of octets and
every way of cutting it into chunks.

A third test for blanks stands ahead of decoding, where a blank payload is an error of its own.  It
is the test that framing uses (`Payload.decode_octets_eq_empty_iff`), so no frame is ever refused
for being empty.
-/

namespace KeyControl

namespace LineBuffer

@[simp] theorem overruns_zero (stream : Bytes) : overruns 0 stream = false :=
  List.any_eq_false.2 fun _ _ => Bool.false_ne_true

end LineBuffer

namespace Payload

/-- **Octets are refused as empty exactly if they are blank**, whatever is expected. -/
theorem decode_octets_eq_empty_iff {bs : Bytes} {r : Reading} :
    (octets bs).decode r = .error (.undecodable .empty) ↔ bs.blank = true := by
  constructor
  · intro h
    by_contra hblank
    rw [decode, load, if_neg hblank] at h
    split at h
    · next hload =>
      split at hload
      · cases hload
      · cases hload
        cases h
    · split at h <;> cases h
  · intro h
    rw [decode, load, if_pos h]

/-- **Both ways of framing agree**, on every run of octets and however it is cut into chunks.  If
cutting at once gives frames, a line buffer without a limit has handed back exactly these, and may
be closed.  If so many octets are left over, closing the buffer fails for as many.  No chunk is
refused, and no frame holds a line feed or is ever refused as an empty payload. -/
theorem frames_agree (chunks : List Bytes) :
    let result := (LineBuffer.empty 0).run (chunks.map .feed)
    (∀ r ∈ result.2, ∃ frames, r = .ok frames) ∧
      (match (octets chunks.flatten).frames with
        | .ok frames => LineBuffer.handed result.2 = frames ∧ result.1.close.2 = .ok ()
        | .error e => ∃ count, e = .incomplete (.trailing count) ∧
            result.1.close.2 = .error (.incomplete (.cutOff count))) ∧
      ∀ frame ∈ LineBuffer.handed result.2, newline ∉ frame ∧
        ∀ r : Reading, (octets frame).decode r ≠ .error (.undecodable .empty) := by
  intro result
  obtain ⟨hok, hhanded, -, hclose⟩ :=
    LineBuffer.run_feeds_segments (LineBuffer.overruns_zero chunks.flatten)
  replace hhanded :
      LineBuffer.handed result.2 = (segments chunks.flatten).1.filter (! ·.blank) := hhanded
  replace hclose : result.1.close.2 = if (segments chunks.flatten).2.blank then .ok ()
      else .error (.incomplete (.cutOff (segments chunks.flatten).2.length)) := hclose
  refine ⟨hok, ?_, fun frame hframe => ?_⟩
  · rw [frames, Bytes.frames, hclose, hhanded]
    dsimp only
    cases (segments chunks.flatten).2.blank with
    | true => exact ⟨rfl, rfl⟩
    | false => exact ⟨_, rfl, rfl⟩
  · rw [hhanded, List.mem_filter, Bool.not_eq_true'] at hframe
    obtain ⟨hsegment, hblank⟩ := hframe
    refine ⟨newline_notMem_of_mem_segments hsegment, fun r hr => ?_⟩
    rw [decode_octets_eq_empty_iff.1 hr] at hblank
    cases hblank

end Payload

end KeyControl
