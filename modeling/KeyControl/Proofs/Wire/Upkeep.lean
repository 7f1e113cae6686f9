import KeyControl.Proofs.Wire.LineBuffer

/-!
# What a line buffer keeps up

A line buffer may be fed, checked and closed in any order, also after it was closed and after it has
failed.  However it was used, it stands as a fresh buffer does after some stream
(`LineBuffer.run_after`): a chunk makes the stream longer, checking leaves it, and closing makes it
begin anew, unless a line in it is too long (`LineBuffer.follow`).  So what holds of a buffer at
every moment has to be shown of `LineBuffer.after` alone (`LineBuffer.upkept_after`), and the octets
that it holds are bounded by its limit whatever arrives.

What is handed back is a frame of such a stream, and keeps within the same limit
(`LineBuffer.isFrame_of_mem_handed`).
-/

namespace KeyControl

namespace LineBuffer

/-- What holds of a buffer at every moment. -/
structure Upkept (limit : Nat) (b : LineBuffer) : Prop where
  /-- What it holds belongs to one line. -/
  newline_notMem : newline ∉ b.current
  /-- It holds no more than the limit, if there is one. -/
  pending_le : 0 < limit → b.pending ≤ limit
  /-- It holds nothing once it has failed. -/
  pending_of_failed : b.failed = true → b.pending = 0

/-- What a buffer with a limit may hand back. -/
structure IsFrame (limit : Nat) (line : Bytes) : Prop where
  not_blank : line.blank = false
  newline_notMem : newline ∉ line
  length_le : 0 < limit → line.length ≤ limit

variable {limit : Nat} {stream : Bytes}

/-! ## The buffer after any uses -/

/-- The stream that a buffer stands after when it is used behind a stream. -/
def follow (limit : Nat) (stream : Bytes) : Use → Bytes
  | .feed chunk => stream ++ chunk
  | .check => stream
  | .close => if overruns limit stream then stream else []

/-- **A use leads from the buffer after a stream to the buffer after another one.** -/
theorem use_after (limit : Nat) (stream : Bytes) (u : Use) :
    ((after limit stream).use u).1 = after limit (follow limit stream u) := by
  cases h : overruns limit stream with
  | true =>
    rw [use_of_failed h (current_after_of_overruns h)]
    cases u with
    | feed chunk => exact (after_append h chunk).symm
    | check => rfl
    | close => rw [follow, if_pos h]
  | false =>
    cases u with
    | feed chunk => rw [use, feed_after h, follow]
    | check => rfl
    | close =>
      have hfailed : (after limit stream).failed = false := h
      rw [follow, h, if_neg Bool.false_ne_true, ← empty_eq_after, use, close, hfailed]
      rfl

/-- **However a buffer is used, it stands as after some stream.** -/
theorem run_after (limit : Nat) (stream : Bytes) (us : List Use) :
    ((after limit stream).run us).1 = after limit (us.foldl (follow limit) stream) := by
  induction us generalizing stream with
  | nil => rfl
  | cons u us ih => rw [run, use_after, ih, List.foldl_cons]

theorem upkept_after (limit : Nat) (stream : Bytes) : Upkept limit (after limit stream) := by
  cases h : overruns limit stream with
  | true =>
    have hcurrent := current_after_of_overruns h
    refine ⟨?_, fun _ => ?_, fun _ => ?_⟩
    · rw [hcurrent]
      exact List.not_mem_nil
    · rw [pending, hcurrent]
      exact Nat.zero_le limit
    · rw [pending, hcurrent, List.length_nil]
  | false =>
    have hrest : tooLong limit (segments stream).2 = false := by
      rw [overruns_eq, Bool.or_eq_false_iff] at h
      exact h.2
    refine ⟨?_, fun hlimit => ?_, fun hfailed => ?_⟩
    · rw [current_after_of_not h, List.mem_reverse]
      exact newline_notMem_remainder stream
    · rw [pending, current_after_of_not h, List.length_reverse]
      exact length_le_of_not_tooLong hrest hlimit
    · exact absurd (h.symm.trans hfailed) Bool.false_ne_true

/-! ## What is handed back -/

theorem isFrame_of_mem_framesOf {line : Bytes} (h : line ∈ framesOf limit stream) :
    IsFrame limit line := by
  rw [framesOf, List.mem_filter, Bool.not_eq_true'] at h
  obtain ⟨hleading, hblank⟩ := h
  have hsegment : line ∈ (segments stream).1 := (List.takeWhile_sublist _).subset hleading
  have hshort : (! tooLong limit line) = true :=
    List.mem_takeWhile_imp (p := (! tooLong limit ·)) hleading
  rw [Bool.not_eq_true'] at hshort
  exact ⟨hblank, newline_notMem_of_mem_segments hsegment, length_le_of_not_tooLong hshort⟩

/-- What a use hands back behind a stream are frames. -/
theorem isFrame_of_use {u : Use} {frames : List Bytes}
    (h : ((after limit stream).use u).2 = .ok frames) : ∀ line ∈ frames, IsFrame limit line := by
  cases hover : overruns limit stream with
  | true =>
    rw [use_of_failed hover (current_after_of_overruns hover)] at h
    cases h
  | false =>
    cases u with
    | feed chunk =>
      rw [use, feed_after hover, feedResult] at h
      split at h
      · cases h
      · cases h
        exact fun line => isFrame_of_mem_framesOf
    | check =>
      have hfailed : (after limit stream).failed = false := hover
      rw [use, check, hfailed, if_neg Bool.false_ne_true] at h
      cases h
      exact List.forall_mem_nil _
    | close =>
      rw [use, close_after hover] at h
      split at h
      · cases h
        exact List.forall_mem_nil _
      · cases h

/-- **Whatever is handed back in a run is a frame.** -/
theorem isFrame_of_mem_handed (us : List Use) :
    ∀ line ∈ handed ((after limit stream).run us).2, IsFrame limit line := by
  induction us generalizing stream with
  | nil => exact List.forall_mem_nil _
  | cons u us ih =>
    rw [run, use_after]
    cases hreport : ((after limit stream).use u).2 with
    | error e =>
      rw [handed_error_cons]
      exact ih
    | ok frames =>
      rw [handed_ok_cons]
      exact List.forall_mem_append.2 ⟨isFrame_of_use hreport, ih⟩

/-! ## Closing -/

/-- **Closing finds a line unfinished exactly if the buffer has not failed and holds more than
blanks.** -/
theorem use_close_eq_incomplete_iff {b : LineBuffer} {cause : Incomplete} :
    (b.use .close).2 = .error (.incomplete cause) ↔
      cause = .cutOff b.pending ∧ b.failed = false ∧ b.current.blank = false := by
  rw [use, close]
  dsimp only
  cases b.failed with
  | true => simp [Except.map]
  | false => cases b.current.blank <;> simp [Except.map, eq_comm]

/-- **What a buffer keeps up.**  Take a fresh buffer with any limit, zero for none, and feed, check
and close it in any order.  At every moment it holds part of one line, no more than the limit, and
nothing if it has failed.  Once it has failed it stays so and reports the error at every use.
Checking leaves it as it is; closing empties it, and finds a line unfinished exactly if the buffer
has not failed and holds more than blanks.  And every line ever handed back is not blank, holds no
line feed, and keeps within the limit. -/
theorem upkept_run (limit : Nat) (us : List Use) :
    let result := (empty limit).run us
    let b := result.1
    Upkept limit b ∧
      (b.failed = true → ∀ later, (b.run later).1.failed = true ∧
        ∀ r ∈ (b.run later).2, r = .error (.overflow (.lineTooLong limit))) ∧
      b.use .check = (b, if b.failed then .error (.overflow (.lineTooLong limit)) else .ok []) ∧
      (b.use .close).1.pending = 0 ∧
      (∀ cause, (b.use .close).2 = .error (.incomplete cause) ↔
        cause = .cutOff b.pending ∧ b.failed = false ∧ b.current.blank = false) ∧
      ∀ line ∈ handed result.2, IsFrame limit line := by
  intro result b
  have hb : b = after limit (us.foldl (follow limit) []) := by
    rw [← run_after, ← empty_eq_after]
  have hlimit : b.overflow = .lineTooLong limit := by rw [hb, overflow, after]
  have hupkept : Upkept limit b := hb ▸ upkept_after limit _
  refine ⟨hupkept, fun hfailed later => ?_, ?_, rfl, fun cause => use_close_eq_incomplete_iff, ?_⟩
  · have hcurrent : b.current = [] := List.length_eq_zero_iff.1 (hupkept.pending_of_failed hfailed)
    obtain ⟨hstays, hreports⟩ := run_of_failed hfailed hcurrent later
    rw [hstays, ← hlimit]
    exact ⟨hfailed, hreports⟩
  · rw [← hlimit, use, check]
    cases b.failed <;> rfl
  · have hhanded := @isFrame_of_mem_handed limit [] us
    rw [← empty_eq_after] at hhanded
    exact hhanded

end LineBuffer

end KeyControl
