import KeyControl.Proofs.Wire.Segments
import KeyControl.Wire.Frames
import Mathlib.Data.List.TakeWhile

/-!
# A line buffer does not depend on the chunks

What a buffer does is said here in terms of the whole stream it has received, however that came.
`LineBuffer.after` is the buffer after a stream, and `LineBuffer.framesOf` are the frames it has
handed back, both without running it.  One chunk takes the buffer after a stream to the buffer after
the longer stream, and hands back what is new (`LineBuffer.feed_after`).  By induction so do all
chunks (`LineBuffer.run_feeds`), and therefore only the stream matters.

A buffer that has met a line that is too long has failed.  More octets never undo this
(`overruns_append`), they hand nothing more back (`LineBuffer.framesOf_append`), and every use
reports the error (`LineBuffer.run_of_failed`).

`LineBuffer.run_feeds_empty` puts both together: it compares a run over chunks with splitting the
stream at its line feeds.
-/

namespace KeyControl

/-- Whether a line is longer than the limit.  The limit zero stands for none. -/
def tooLong (limit : Nat) (line : Bytes) : Bool :=
  decide (0 < limit) && decide (limit < line.length)

/-- Whether a line or the remainder of a stream is too long. -/
def overruns (limit : Nat) (stream : Bytes) : Bool :=
  (stream.splitOn newline).any (tooLong limit)

@[simp] theorem tooLong_nil (limit : Nat) : tooLong limit [] = false := by
  simp [tooLong]

theorem tooLong_append {limit : Nat} {line : Bytes} (h : tooLong limit line = true) (more : Bytes) :
    tooLong limit (line ++ more) = true := by
  simp only [tooLong, Bool.and_eq_true, decide_eq_true_eq, List.length_append] at h ⊢
  omega

theorem length_le_of_not_tooLong {limit : Nat} {line : Bytes} (h : tooLong limit line = false)
    (hlimit : 0 < limit) : line.length ≤ limit := by
  rw [tooLong, decide_eq_true hlimit, Bool.true_and, decide_eq_false_iff_not] at h
  exact Nat.le_of_not_lt h

@[simp] theorem tooLong_reverse (limit : Nat) (line : Bytes) :
    tooLong limit line.reverse = tooLong limit line := by
  rw [tooLong, tooLong, List.length_reverse]

@[simp] theorem overruns_nil (limit : Nat) : overruns limit [] = false := by
  simp [overruns]

theorem overruns_eq (limit : Nat) (stream : Bytes) :
    overruns limit stream =
      ((segments stream).1.any (tooLong limit) || tooLong limit (segments stream).2) := by
  rw [overruns, splitOn_newline, List.any_append, List.any_cons, List.any_nil, Bool.or_false]

theorem fits_of_mem_segments {limit : Nat} {stream : Bytes} (h : overruns limit stream = false) :
    ∀ line ∈ (segments stream).1, (! tooLong limit line) = true := by
  rw [overruns_eq, Bool.or_eq_false_iff, List.any_eq_false] at h
  intro line hline
  rw [Bool.not_eq_true', ← Bool.not_eq_true]
  exact h.1 line hline

/-- The first piece that is too long stays so when more octets come. -/
theorem findIdx?_splitOn_append {limit j : Nat} {stream : Bytes}
    (h : (stream.splitOn newline).findIdx? (tooLong limit) = some j) (more : Bytes) :
    ((stream ++ more).splitOn newline).findIdx? (tooLong limit) = some j := by
  obtain ⟨first, rest, happ⟩ := exists_splitOn_append stream more
  rw [splitOn_newline, List.findIdx?_append] at h
  rw [happ, List.findIdx?_append]
  cases hdone : (segments stream).1.findIdx? (tooLong limit) with
  | some i =>
    rw [hdone] at h
    exact h
  | none =>
    rw [hdone, Option.none_or, List.findIdx?_singleton] at h
    by_cases hrest : tooLong limit (segments stream).2 = true
    · rw [if_pos hrest] at h
      rw [Option.none_or, List.findIdx?_cons, if_pos (tooLong_append hrest first)]
      exact h
    · rw [if_neg hrest] at h
      cases h

theorem overruns_iff {limit : Nat} {stream : Bytes} :
    overruns limit stream = true ↔
      ∃ j, (stream.splitOn newline).findIdx? (tooLong limit) = some j := by
  rw [overruns, ← List.findIdx?_isSome, Option.isSome_iff_exists]

/-- **A stream that overruns does so with more octets too.** -/
theorem overruns_append {limit : Nat} {stream : Bytes} (h : overruns limit stream = true)
    (more : Bytes) : overruns limit (stream ++ more) = true := by
  obtain ⟨j, hj⟩ := overruns_iff.1 h
  exact overruns_iff.2 ⟨j, findIdx?_splitOn_append hj more⟩

theorem overruns_eq_false_of_append {limit : Nat} {stream more : Bytes}
    (h : overruns limit (stream ++ more) = false) : overruns limit stream = false := by
  rw [← Bool.not_eq_true] at h ⊢
  exact fun hover => h (overruns_append hover more)

theorem overruns_append_of_not {limit : Nat} {stream : Bytes} (h : overruns limit stream = false)
    (chunk : Bytes) :
    overruns limit (stream ++ chunk) = overruns limit ((segments stream).2 ++ chunk) := by
  rw [overruns_eq, Bool.or_eq_false_iff] at h
  rw [overruns_eq, segments_append, List.any_append, h.1, Bool.false_or, ← overruns_eq]

namespace LineBuffer

/-! ## Uses of a buffer -/

/-- What can be done with a buffer. -/
inductive Use where
  | feed (chunk : Bytes)
  | check
  | close
deriving DecidableEq

/-- What a use reports: an error, or the frames handed back. -/
abbrev Report := Except CloseError (List Bytes)

/-- Use a buffer: the buffer after the use, and the report. -/
def use (b : LineBuffer) : Use → LineBuffer × Report
  | .feed chunk => ((b.feed chunk).1, (b.feed chunk).2.mapError .overflow)
  | .check => (b, (b.check.mapError .overflow).map fun _ => [])
  | .close => (b.close.1, b.close.2.map fun _ => [])

/-- Use a buffer again and again: the buffer at the end, and all reports. -/
def run (b : LineBuffer) : List Use → LineBuffer × List Report
  | [] => (b, [])
  | u :: us => (((b.use u).1.run us).1, (b.use u).2 :: ((b.use u).1.run us).2)

/-- The frames handed back in a list of reports. -/
def handed (reports : List Report) : List Bytes :=
  reports.flatMap fun
    | .ok frames => frames
    | .error _ => []

@[simp] theorem handed_ok_cons (frames : List Bytes) (rs : List Report) :
    handed (.ok frames :: rs) = frames ++ handed rs := rfl

@[simp] theorem handed_error_cons (e : CloseError) (rs : List Report) :
    handed (.error e :: rs) = handed rs := rfl

/-! ## Failed buffers -/

theorem use_of_failed {b : LineBuffer} (hf : b.failed = true) (hc : b.current = []) (u : Use) :
    b.use u = (b, .error (.overflow b.overflow)) := by
  cases u with
  | feed chunk => rw [use, feed, if_pos hf, Except.mapError]
  | check => rw [use, check, if_pos hf, Except.mapError, Except.map]
  | close =>
    have hb : (⟨b.limit, [], b.failed⟩ : LineBuffer) = b := by rw [← hc]
    rw [use, close, if_pos hf, hb, Except.map]

/-- **A buffer that has failed reports the error at every use**, and stays as it is. -/
theorem run_of_failed {b : LineBuffer} (hf : b.failed = true) (hc : b.current = [])
    (us : List Use) :
    (b.run us).1 = b ∧ ∀ r ∈ (b.run us).2, r = .error (.overflow b.overflow) := by
  induction us with
  | nil => exact ⟨rfl, fun _ hr => absurd hr List.not_mem_nil⟩
  | cons u us ih =>
    rw [run, use_of_failed hf hc]
    exact ⟨ih.1, List.forall_mem_cons.2 ⟨rfl, ih.2⟩⟩

/-! ## The buffer after a stream -/

variable {limit : Nat} {stream : Bytes}

/-- The buffer after a stream. -/
def after (limit : Nat) (stream : Bytes) : LineBuffer where
  limit := limit
  current := if overruns limit stream then [] else (segments stream).2.reverse
  failed := overruns limit stream

/-- The complete lines of a stream ahead of the first that is too long. -/
def leading (limit : Nat) (stream : Bytes) : List Bytes :=
  (segments stream).1.takeWhile (! tooLong limit ·)

/-- The frames of a stream ahead of the first line that is too long. -/
def framesOf (limit : Nat) (stream : Bytes) : List Bytes :=
  (leading limit stream).filter (! ·.blank)

/-- The frames that a chunk completes behind a stream. -/
def newFrames (limit : Nat) (stream chunk : Bytes) : List Bytes :=
  framesOf limit ((segments stream).2 ++ chunk)

theorem empty_eq_after (limit : Nat) : empty limit = after limit [] := by
  rw [empty, after, overruns_nil]
  rfl

theorem current_after_of_overruns (h : overruns limit stream = true) :
    (after limit stream).current = [] := by
  rw [after, h]
  rfl

theorem current_after_of_not (h : overruns limit stream = false) :
    (after limit stream).current = (segments stream).2.reverse := by
  rw [after, h]
  rfl

theorem fits_after : (after limit stream).fits = (! tooLong limit ·) := by
  funext line
  show (decide ((limit : ℤ) = 0) || decide ((line.length : ℤ) ≤ limit)) = ! tooLong limit line
  rw [Bool.eq_iff_iff]
  simp only [tooLong, Bool.or_eq_true, decide_eq_true_eq, Bool.not_eq_true',
    Bool.and_eq_false_iff, decide_eq_false_iff_not]
  omega

/-- Where a stream overruns, the pieces ahead of the first that is too long are all complete. -/
theorem leading_of_overruns (h : overruns limit stream = true) :
    leading limit stream = (stream.splitOn newline).takeWhile (! tooLong limit ·) := by
  rw [leading, splitOn_newline, List.takeWhile_append]
  split
  · next hlen =>
    have hfits := List.takeWhile_eq_self_iff.1
      (((List.takeWhile_prefix (! tooLong limit ·)).eq_of_length hlen))
    have hdone : (segments stream).1.any (tooLong limit) = false := by
      rw [List.any_eq_false]
      intro line hline
      rw [Bool.not_eq_true, ← Bool.not_eq_true']
      exact hfits line hline
    rw [overruns_eq, hdone, Bool.false_or] at h
    rw [List.takeWhile_eq_self_iff.2 hfits, List.takeWhile_cons, h, Bool.not_true,
      if_neg Bool.false_ne_true, List.append_nil]
  · rfl

theorem leading_append (h : overruns limit stream = true) (more : Bytes) :
    leading limit (stream ++ more) = leading limit stream := by
  obtain ⟨j, hj⟩ := overruns_iff.1 h
  obtain ⟨first, rest, happ⟩ := exists_splitOn_append stream more
  have hboth := findIdx?_splitOn_append hj more
  obtain ⟨hlen, hj⟩ := List.findIdx?_eq_some_iff_findIdx_eq.1 hj
  have hj' := (List.findIdx?_eq_some_iff_findIdx_eq.1 hboth).2
  rw [splitOn_newline, List.length_append, List.length_singleton] at hlen
  rw [leading_of_overruns h, leading_of_overruns (overruns_append h more)]
  simp only [List.takeWhile_eq_take_findIdx_not, Bool.not_not]
  rw [hj, hj', happ, splitOn_newline, List.take_append_of_le_length (by omega),
    List.take_append_of_le_length (by omega)]

/-- **Behind a line that is too long, nothing is handed back any more.** -/
theorem framesOf_append (h : overruns limit stream = true) (more : Bytes) :
    framesOf limit (stream ++ more) = framesOf limit stream := by
  rw [framesOf, framesOf, leading_append h]

theorem leading_of_not (h : overruns limit stream = false) :
    leading limit stream = (segments stream).1 :=
  List.takeWhile_eq_self_iff.2 (fits_of_mem_segments h)

theorem framesOf_of_not (h : overruns limit stream = false) :
    framesOf limit stream = (segments stream).1.filter (! ·.blank) := by
  rw [framesOf, leading_of_not h]

theorem leading_append_of_not (h : overruns limit stream = false) (chunk : Bytes) :
    leading limit (stream ++ chunk) =
      (segments stream).1 ++ leading limit ((segments stream).2 ++ chunk) := by
  rw [leading, segments_append, List.takeWhile_append_of_pos (fits_of_mem_segments h), leading]

theorem framesOf_append_of_not (h : overruns limit stream = false) (chunk : Bytes) :
    framesOf limit (stream ++ chunk) = framesOf limit stream ++ newFrames limit stream chunk := by
  rw [framesOf, leading_append_of_not h, List.filter_append, framesOf_of_not h, newFrames, framesOf]

theorem close_after (h : overruns limit stream = false) :
    ((after limit stream).close).2 =
      if (segments stream).2.blank then .ok ()
      else .error (.incomplete (.cutOff (segments stream).2.length)) := by
  have hblank : Bytes.blank (segments stream).2.reverse = (segments stream).2.blank :=
    List.all_reverse
  have hfailed : (after limit stream).failed = false := h
  rw [close, hfailed, if_neg Bool.false_ne_true, pending, current_after_of_not h,
    hblank, List.length_reverse]

/-! ## Chunks -/

/-- What feeding a chunk behind a stream reports. -/
def feedResult (limit : Nat) (stream chunk : Bytes) : Except DecodeError (List Bytes) :=
  if overruns limit (stream ++ chunk) && (newFrames limit stream chunk).isEmpty then
    .error (.lineTooLong limit)
  else .ok (newFrames limit stream chunk)

/-- **A chunk leads from the buffer after a stream to the buffer after the longer stream**, and
hands back the frames it completes. -/
theorem feed_after (h : overruns limit stream = false) (chunk : Bytes) :
    (after limit stream).feed chunk =
      (after limit (stream ++ chunk), feedResult limit stream chunk) := by
  have hopen : newline ∉ (segments stream).2.reverse := fun hm =>
    newline_notMem_remainder stream (List.mem_reverse.1 hm)
  have hrest := overruns_append_of_not h chunk
  have hfit : (((segments ((segments stream).2 ++ chunk)).1.all (after limit stream).fits) &&
      (after limit stream).fits (segments ((segments stream).2 ++ chunk)).2.reverse) =
        ! overruns limit (stream ++ chunk) := by
    rw [hrest, overruns_eq, Bool.not_or, fits_after, List.not_any_eq_all_not]
    dsimp only
    rw [tooLong_reverse]
  have hframes : ((segments ((segments stream).2 ++ chunk)).1.takeWhile
      (after limit stream).fits).filter (! ·.blank) = newFrames limit stream chunk := by
    rw [fits_after, newFrames, framesOf, leading]
  have hremainder :
      (segments ((segments stream).2 ++ chunk)).2 = (segments (stream ++ chunk)).2 := by
    rw [segments_append stream chunk]
  have hoverflow : (after limit stream).overflow = .lineTooLong limit := rfl
  have hfailed : (after limit stream).failed = false := h
  rw [feed, hfailed, if_neg Bool.false_ne_true, current_after_of_not h,
    foldl_extendSegments_eq hopen, List.reverse_reverse]
  dsimp only
  rw [List.reverse_reverse, hfit, hframes, hoverflow, hremainder, feedResult,
    after.eq_1 limit (stream ++ chunk)]
  cases overruns limit (stream ++ chunk) with
  | false => rfl
  | true => rfl

theorem after_append (h : overruns limit stream = true) (more : Bytes) :
    after limit (stream ++ more) = after limit stream := by
  rw [after, after, h, overruns_append h]
  rfl

/-- **Chunks lead from the buffer after a stream to the buffer after the longer stream**, and hand
back the frames that are new. -/
theorem run_feeds (limit : Nat) (stream : Bytes) (chunks : List Bytes) :
    ((after limit stream).run (chunks.map .feed)).1 = after limit (stream ++ chunks.flatten) ∧
      framesOf limit stream ++ handed ((after limit stream).run (chunks.map .feed)).2 =
        framesOf limit (stream ++ chunks.flatten) := by
  -- The stream grows with every chunk, so the statement is for all streams.
  induction chunks generalizing stream with
  | nil =>
    rw [List.flatten_nil, List.append_nil]
    exact ⟨rfl, List.append_nil _⟩
  | cons chunk chunks ih =>
    obtain ⟨hstate, hframes⟩ := ih (stream ++ chunk)
    rw [List.append_assoc, ← List.flatten_cons] at hstate hframes
    rw [List.map_cons, run]
    cases h : overruns limit stream with
    | true =>
      rw [after_append h] at hstate hframes
      rw [use_of_failed h (current_after_of_overruns h)]
      refine ⟨hstate, ?_⟩
      rw [handed_error_cons, ← hframes, framesOf_append h]
    | false =>
      rw [use, feed_after h]
      refine ⟨hstate, ?_⟩
      rw [← hframes, framesOf_append_of_not h, feedResult, List.append_assoc]
      congr 1
      split
      · next hnone =>
        rw [Bool.and_eq_true, List.isEmpty_iff] at hnone
        rw [Except.mapError, handed_error_cons, hnone.2, List.nil_append]
      · rw [Except.mapError, handed_ok_cons]

/-- As long as no line is too long, no chunk is refused. -/
theorem isOk_of_mem_run_feeds {chunks : List Bytes}
    (h : overruns limit (stream ++ chunks.flatten) = false) :
    ∀ r ∈ ((after limit stream).run (chunks.map .feed)).2, ∃ frames, r = .ok frames := by
  induction chunks generalizing stream with
  | nil => exact fun _ hr => absurd hr List.not_mem_nil
  | cons chunk chunks ih =>
    rw [List.flatten_cons, ← List.append_assoc] at h
    have hchunk : overruns limit (stream ++ chunk) = false := overruns_eq_false_of_append h
    rw [List.map_cons, run, use, feed_after (overruns_eq_false_of_append hchunk)]
    refine List.forall_mem_cons.2 ⟨⟨newFrames limit stream chunk, ?_⟩, ih h⟩
    rw [feedResult, hchunk, Bool.false_and, if_neg Bool.false_ne_true, Except.mapError]

/-- Where a stream overruns in chunks, one of them is the first with which it does. -/
theorem exists_chunk_overruns {chunks : List Bytes} (h : overruns limit stream = false)
    (hover : overruns limit (stream ++ chunks.flatten) = true) :
    ∃ before chunk later, chunks = before ++ chunk :: later ∧
      overruns limit (stream ++ before.flatten) = false ∧
      overruns limit (stream ++ before.flatten ++ chunk) = true := by
  induction chunks generalizing stream with
  | nil =>
    rw [List.flatten_nil, List.append_nil] at hover
    exact absurd (hover.symm.trans h) (by decide)
  | cons chunk chunks ih =>
    cases hchunk : overruns limit (stream ++ chunk) with
    | true =>
      refine ⟨[], chunk, chunks, rfl, ?_, ?_⟩
      · rw [List.flatten_nil, List.append_nil, h]
      · rw [List.flatten_nil, List.append_nil, hchunk]
    | false =>
      rw [List.flatten_cons, ← List.append_assoc] at hover
      obtain ⟨before, c, later, rfl, hbefore, hc⟩ := ih hchunk hover
      refine ⟨chunk :: before, c, later, rfl, ?_, ?_⟩
      · rw [List.flatten_cons, ← List.append_assoc, hbefore]
      · rw [List.flatten_cons, ← List.append_assoc, hc]

/-! ## Comparison with the whole stream -/

theorem leading_eq_take {j : Nat}
    (h : (stream.splitOn newline).findIdx? (tooLong limit) = some j) :
    leading limit stream = (stream.splitOn newline).take j := by
  rw [leading_of_overruns (overruns_iff.2 ⟨j, h⟩), List.takeWhile_eq_take_findIdx_not]
  simp only [Bool.not_not]
  rw [(List.findIdx?_eq_some_iff_findIdx_eq.1 h).2]

theorem length_getD_le (h : overruns limit stream = false) (hlimit : 0 < limit) (j : Nat) :
    ((stream.splitOn newline).getD j []).length ≤ limit := by
  rw [overruns, List.any_eq_false] at h
  rw [List.getD_eq_getElem?_getD]
  cases hj : (stream.splitOn newline)[j]? with
  | none => exact Nat.zero_le limit
  | some piece =>
    have hpiece := h piece (List.mem_of_getElem? hj)
    rw [Bool.not_eq_true] at hpiece
    exact length_le_of_not_tooLong hpiece hlimit

theorem lt_length_getD {j : Nat}
    (h : (stream.splitOn newline).findIdx? (tooLong limit) = some j) :
    0 < limit ∧ limit < ((stream.splitOn newline).getD j []).length := by
  obtain ⟨hlt, hlong, -⟩ := List.findIdx?_eq_some_iff_getElem.1 h
  rw [tooLong, Bool.and_eq_true, decide_eq_true_eq, decide_eq_true_eq] at hlong
  rw [List.getD_eq_getElem?_getD, List.getElem?_eq_getElem hlt, Option.getD_some]
  exact hlong

/-- What a chunk reports with which the stream overruns: the lines it completes ahead of the one
that is too long, or the error if these are all blank. -/
theorem feedResult_of_overruns {chunk : Bytes} (h : overruns limit stream = false)
    (hover : overruns limit (stream ++ chunk) = true) :
    feedResult limit stream chunk =
      let completed := (leading limit (stream ++ chunk)).drop (stream.count newline)
      if completed.all Bytes.blank then .error (.lineTooLong limit)
      else .ok (completed.filter (! ·.blank)) := by
  have hdrop : (leading limit (stream ++ chunk)).drop (stream.count newline) =
      leading limit ((segments stream).2 ++ chunk) := by
    rw [leading_append_of_not h, ← length_segments, List.drop_left]
  have hempty : (newFrames limit stream chunk).isEmpty =
      (leading limit ((segments stream).2 ++ chunk)).all Bytes.blank := by
    rw [Bool.eq_iff_iff, List.isEmpty_iff, newFrames, framesOf, List.filter_eq_nil_iff,
      List.all_eq_true]
    simp only [Bool.not_eq_true', Bool.not_eq_false]
  rw [feedResult, hover, Bool.true_and, hempty, hdrop, newFrames, framesOf]

theorem run_feeds_empty (limit : Nat) (chunks : List Bytes) :
    ((empty limit).run (chunks.map .feed)).1 = after limit chunks.flatten ∧
      handed ((empty limit).run (chunks.map .feed)).2 = framesOf limit chunks.flatten := by
  have hrun := run_feeds limit [] chunks
  rw [List.nil_append, ← empty_eq_after] at hrun
  exact hrun

theorem isOk_of_mem_run_feeds_empty {chunks : List Bytes}
    (h : overruns limit chunks.flatten = false) :
    ∀ r ∈ ((empty limit).run (chunks.map .feed)).2, ∃ frames, r = .ok frames := by
  have hok := @isOk_of_mem_run_feeds limit [] chunks h
  rwa [← empty_eq_after] at hok

/-- **Chunks without a line that is too long** are all taken.  The complete segments that are not
blank are handed back, the remainder is pending, and it decides whether the stream may end. -/
theorem run_feeds_segments {chunks : List Bytes} (h : overruns limit chunks.flatten = false) :
    let result := (empty limit).run (chunks.map .feed)
    (∀ r ∈ result.2, ∃ frames, r = .ok frames) ∧
      handed result.2 = (segments chunks.flatten).1.filter (! ·.blank) ∧
      result.1.pending = (segments chunks.flatten).2.length ∧
      result.1.close.2 = if (segments chunks.flatten).2.blank then .ok ()
        else .error (.incomplete (.cutOff (segments chunks.flatten).2.length)) := by
  intro result
  obtain ⟨hstate, hhanded⟩ := run_feeds_empty limit chunks
  replace hstate : result.1 = after limit chunks.flatten := hstate
  refine ⟨isOk_of_mem_run_feeds_empty h, hhanded.trans (framesOf_of_not h), ?_, ?_⟩
  · rw [hstate, pending, current_after_of_not h, List.length_reverse]
  · rw [hstate, close_after h]

/-- Once a stream has overrun, the buffer has failed, holds nothing and reports the error at every
use. -/
theorem run_after_of_overruns (h : overruns limit stream = true) (us : List Use) :
    ((after limit stream).run us).1.failed = true ∧
      ((after limit stream).run us).1.pending = 0 ∧
      ∀ r ∈ ((after limit stream).run us).2, r = .error (.overflow (.lineTooLong limit)) := by
  have hfailed : (after limit stream).failed = true := h
  obtain ⟨hend, hreports⟩ := run_of_failed hfailed (current_after_of_overruns h) us
  rw [hend]
  refine ⟨hfailed, ?_, hreports⟩
  rw [pending, current_after_of_overruns h, List.length_nil]

/-- Where a piece of the stream is the first that is too long, there is a chunk with which it
becomes so; up to this chunk, the same pieces lead as in the whole stream. -/
theorem exists_chunk_tooLong {chunks : List Bytes} {j : Nat}
    (hj : (chunks.flatten.splitOn newline).findIdx? (tooLong limit) = some j) :
    ∃ before chunk later, chunks = before ++ chunk :: later ∧
      overruns limit before.flatten = false ∧
      ((before.flatten ++ chunk).splitOn newline).findIdx? (tooLong limit) = some j ∧
      leading limit (before.flatten ++ chunk) = (chunks.flatten.splitOn newline).take j := by
  obtain ⟨before, chunk, later, rfl, hbefore, hchunk⟩ :=
    exists_chunk_overruns (overruns_nil limit) (overruns_iff.2 ⟨j, hj⟩)
  rw [List.nil_append] at hbefore hchunk
  have hsplit : (before ++ chunk :: later).flatten =
      before.flatten ++ chunk ++ later.flatten := by simp
  refine ⟨before, chunk, later, rfl, hbefore, ?_, ?_⟩
  · obtain ⟨i, hi⟩ := overruns_iff.1 hchunk
    have hi' := findIdx?_splitOn_append hi later.flatten
    rw [← hsplit] at hi'
    rw [hi, ← hi', ← hj]
  · rw [← leading_append hchunk later.flatten, ← hsplit, leading_eq_take hj]

/-- **A buffer does not depend on the chunks.**  Fed a stream in chunks, whatever these are, a fresh
buffer compares as follows with the pieces of the stream between its line feeds.  If no piece is too
long, no chunk is refused, the complete pieces that are not blank are handed back, and the last
piece is pending.  If piece `j` is the first that is too long, the pieces before it that are not
blank are handed back; the chunk with which more than the limit of piece `j` is first seen reports
the error exactly if all lines it completes before that piece are blank; and from then on the buffer
has failed, holds nothing and reports the error at every use. -/
theorem run_feed_splitOn (limit : Nat) (chunks : List Bytes) :
    let pieces : List Bytes := chunks.flatten.splitOn newline
    let result := (empty limit).run (chunks.map .feed)
    match pieces.findIdx? (tooLong limit) with
    | none =>
      (∀ r ∈ result.2, ∃ frames, r = .ok frames) ∧
        handed result.2 = pieces.dropLast.filter (! ·.blank) ∧
        result.1.failed = false ∧ result.1.pending = (pieces.getLastD []).length
    | some j =>
      handed result.2 = (pieces.take j).filter (! ·.blank) ∧
        ∃ before chunk later, chunks = before ++ chunk :: later ∧
          ((before.flatten.splitOn newline).getD j []).length ≤ limit ∧
          limit < (((before.flatten ++ chunk).splitOn newline).getD j []).length ∧
          let earlier := (empty limit).run (before.map .feed)
          let fed := earlier.1.use (.feed chunk)
          let completed := (pieces.take j).drop (before.flatten.count newline)
          (∀ r ∈ earlier.2, ∃ frames, r = .ok frames) ∧
            fed.2 = (if completed.all Bytes.blank then .error (.overflow (.lineTooLong limit))
              else .ok (completed.filter (! ·.blank))) ∧
            ∀ us, (fed.1.run us).1.failed = true ∧ (fed.1.run us).1.pending = 0 ∧
              ∀ r ∈ (fed.1.run us).2, r = .error (.overflow (.lineTooLong limit)) := by
  intro pieces result
  obtain ⟨hstate, hhanded⟩ := run_feeds_empty limit chunks
  have hhanded : handed result.2 = framesOf limit chunks.flatten := hhanded
  split
  · next hnone =>
    have hfits : overruns limit chunks.flatten = false := by
      rw [overruns, ← List.findIdx?_isSome, hnone, Option.isSome_none]
    have hlast : pieces.getLastD [] = (segments chunks.flatten).2 := by
      show (chunks.flatten.splitOn newline).getLastD [] = _
      rw [splitOn_newline, List.getLastD_concat]
    refine ⟨isOk_of_mem_run_feeds_empty hfits, ?_, ?_, ?_⟩
    · rw [hhanded, framesOf, leading_of_not hfits, ← dropLast_splitOn_newline]
    · rw [hstate]
      exact hfits
    · rw [hstate, hlast, pending, current_after_of_not hfits, List.length_reverse]
  · next j hj =>
    refine ⟨by rw [hhanded, framesOf, leading_eq_take hj], ?_⟩
    obtain ⟨before, chunk, later, hchunks, hbefore, hfirst, hlead⟩ := exists_chunk_tooLong hj
    have hchunk := overruns_iff.2 ⟨j, hfirst⟩
    obtain ⟨hlimit, hlong⟩ := lt_length_getD hfirst
    refine ⟨before, chunk, later, hchunks, length_getD_le hbefore hlimit j, hlong, ?_⟩
    intro earlier fed completed
    have hfed : fed = (after limit (before.flatten ++ chunk),
        (feedResult limit before.flatten chunk).mapError .overflow) := by
      show earlier.1.use (.feed chunk) = _
      rw [(run_feeds_empty limit before).1, use, feed_after hbefore]
    refine ⟨isOk_of_mem_run_feeds_empty hbefore, ?_, fun us => ?_⟩
    · rw [hfed, feedResult_of_overruns hbefore hchunk, hlead]
      dsimp only
      split
      · rfl
      · rfl
    · rw [hfed]
      exact run_after_of_overruns hchunk us

end LineBuffer

end KeyControl
