/-!
# Octets on the wire

Everything the daemon and its clients exchange is a list of octets.  This module fixes the two facts
about single octets that framing rests on: which octet ends a frame, and which octets are blank.
Line feeds cut a run of octets into segments: the complete ones, each ended by a line feed, and the
remainder after the last.  Both ways of framing, at once and piece by piece, rest on `segments`.
-/

namespace KeyControl

/-- A finite run of octets, first octet first. -/
abbrev Bytes := List UInt8

/-- The octet that ends every frame: a line feed. -/
def newline : UInt8 := 10

/-- Tab, line feed, vertical tab, form feed, carriage return and space are blank. -/
def blankOctet (b : UInt8) : Bool :=
  (9 ≤ b && b ≤ 13) || b == 32

namespace Bytes

/-- Octets are blank when none of them carries anything; no octets at all are blank too. -/
def blank (bs : Bytes) : Bool :=
  bs.all blankOctet

@[simp] theorem blank_nil : blank [] = true := rfl

@[simp] theorem blank_cons (b : UInt8) (bs : Bytes) :
    blank (b :: bs) = (blankOctet b && blank bs) := rfl

@[simp] theorem blank_append (bs cs : Bytes) : blank (bs ++ cs) = (blank bs && blank cs) := by
  simp [blank]

end Bytes

/-! ## Segments -/

/-- Add an octet to the segments so far: the complete ones and the one in the making, all of them
newest first. -/
def extendSegments (s : List Bytes × Bytes) (b : UInt8) : List Bytes × Bytes :=
  if b = newline then (s.2.reverse :: s.1, []) else (s.1, b :: s.2)

/-- The complete segments of a run of octets, and the remainder. -/
def segments (bs : Bytes) : List Bytes × Bytes :=
  let s := bs.foldl extendSegments ([], [])
  (s.1.reverse, s.2.reverse)

theorem foldl_extendSegments_of_notMem {bs : Bytes} (h : newline ∉ bs) (s : List Bytes × Bytes) :
    bs.foldl extendSegments s = (s.1, bs.reverse ++ s.2) := by
  induction bs generalizing s with
  | nil => rfl
  | cons b bs ih =>
    simp only [List.mem_cons, not_or] at h
    rw [List.foldl_cons, ih h.2]
    simp [extendSegments, Ne.symm h.1]

theorem foldl_extendSegments (bs : Bytes) (done : List Bytes) (cur : Bytes) :
    bs.foldl extendSegments (done, cur) =
      ((bs.foldl extendSegments ([], cur)).1 ++ done, (bs.foldl extendSegments ([], cur)).2) := by
  induction bs generalizing done cur with
  | nil => rfl
  | cons b bs ih =>
    simp only [List.foldl_cons, extendSegments]
    split
    · rw [ih (cur.reverse :: done), ih [cur.reverse]]
      simp
    · exact ih done (b :: cur)

theorem segments_of_notMem {bs : Bytes} (h : newline ∉ bs) : segments bs = ([], bs) := by
  simp [segments, foldl_extendSegments_of_notMem h]

/-- **The first line feed ends the first segment.** -/
theorem segments_append_newline {line : Bytes} (h : newline ∉ line) (rest : Bytes) :
    segments (line ++ newline :: rest) = (line :: (segments rest).1, (segments rest).2) := by
  simp only [segments, List.foldl_append, List.foldl_cons, foldl_extendSegments_of_notMem h]
  rw [extendSegments, if_pos rfl, foldl_extendSegments]
  simp

end KeyControl
