import KeyControl.Bytes
import Mathlib.Data.List.Basic

/-!
# Segments and the line feeds between them

`segments` cuts octets with a left fold, which suits a stream that comes in chunks.  Here it is
compared with splitting at every line feed at once: `splitOn_newline` says that the complete
segments and the remainder behind them are the pieces of `List.splitOn`, and `segments_append` that
cutting may stop anywhere and go on from the remainder.

Induction over the lines of a run of octets is `Bytes.lines_induction`: the octets hold no line
feed, or they are a line, its line feed, and further octets.
-/

namespace KeyControl

/-- Induction over the lines of a run of octets. -/
theorem Bytes.lines_induction {motive : Bytes → Prop}
    (remainder : ∀ bs, newline ∉ bs → motive bs)
    (line : ∀ l bs, newline ∉ l → motive bs → motive (l ++ newline :: bs)) (bs : Bytes) :
    motive bs := by
  by_cases h : newline ∈ bs
  · obtain ⟨l, rest, hbs, hl⟩ := List.eq_append_cons_of_mem h
    have hlt : rest.length < bs.length := by
      rw [hbs, List.length_append, List.length_cons]
      omega
    have hrest := lines_induction remainder line rest
    rw [hbs]
    exact line l rest hl hrest
  · exact remainder bs h
termination_by bs.length

/-! ## What the segments are -/

/-- **The pieces between line feeds** are the complete segments and the remainder. -/
theorem splitOn_newline (bs : Bytes) :
    bs.splitOn newline = (segments bs).1 ++ [(segments bs).2] := by
  induction bs using Bytes.lines_induction with
  | remainder bs h => rw [segments_of_notMem h, List.splitOn_eq_singleton h, List.nil_append]
  | line l bs h ih =>
    rw [segments_append_newline h, List.splitOn_append_cons_self_of_not_mem h, ih, List.cons_append]

theorem dropLast_splitOn_newline (bs : Bytes) :
    (bs.splitOn newline).dropLast = (segments bs).1 := by
  rw [splitOn_newline, List.dropLast_concat]

theorem length_segments (bs : Bytes) : (segments bs).1.length = bs.count newline := by
  induction bs using Bytes.lines_induction with
  | remainder bs h => rw [segments_of_notMem h, List.count_eq_zero.2 h, List.length_nil]
  | line l bs h ih =>
    rw [segments_append_newline h, List.length_cons, ih, List.count_append,
      List.count_eq_zero.2 h, List.count_cons_self, Nat.zero_add]

theorem newline_notMem_remainder (bs : Bytes) : newline ∉ (segments bs).2 := by
  induction bs using Bytes.lines_induction with
  | remainder bs h =>
    rw [segments_of_notMem h]
    exact h
  | line l bs h ih =>
    rw [segments_append_newline h]
    exact ih

theorem newline_notMem_of_mem_segments {bs line : Bytes} (hline : line ∈ (segments bs).1) :
    newline ∉ line := by
  induction bs using Bytes.lines_induction with
  | remainder bs h =>
    rw [segments_of_notMem h] at hline
    cases hline
  | line l bs h ih =>
    rw [segments_append_newline h] at hline
    rcases List.mem_cons.1 hline with rfl | hline
    · exact h
    · exact ih hline

/-! ## Cutting in pieces -/

theorem foldl_extendSegments_eq {current : Bytes} (h : newline ∉ current) (chunk : Bytes) :
    chunk.foldl extendSegments ([], current) =
      ((segments (current.reverse ++ chunk)).1.reverse,
        (segments (current.reverse ++ chunk)).2.reverse) := by
  have hcurrent : newline ∉ current.reverse := fun hm => h (List.mem_reverse.1 hm)
  rw [segments, List.foldl_append, foldl_extendSegments_of_notMem hcurrent, List.reverse_reverse,
    List.append_nil, List.reverse_reverse, List.reverse_reverse]

/-- **Cutting may stop anywhere**: the segments so far stay, and the remainder goes on with the
octets that come. -/
theorem segments_append (bs chunk : Bytes) :
    segments (bs ++ chunk) = ((segments bs).1 ++ (segments ((segments bs).2 ++ chunk)).1,
      (segments ((segments bs).2 ++ chunk)).2) := by
  induction bs using Bytes.lines_induction with
  | remainder bs h => rw [segments_of_notMem h, List.nil_append]
  | line l bs h ih =>
    rw [segments_append_newline h, List.append_assoc, List.cons_append, segments_append_newline h,
      ih, List.cons_append]

theorem exists_splitOn_append_of_notMem {bs : Bytes} (h : newline ∉ bs) (chunk : Bytes) :
    ∃ first more, (bs ++ chunk).splitOn newline = (bs ++ first) :: more := by
  by_cases hchunk : newline ∈ chunk
  · obtain ⟨l, rest, rfl, hl⟩ := List.eq_append_cons_of_mem hchunk
    have hboth : newline ∉ bs ++ l := fun hm => (List.mem_append.1 hm).elim h hl
    refine ⟨l, rest.splitOn newline, ?_⟩
    rw [← List.append_assoc, List.splitOn_append_cons_self_of_not_mem hboth]
  · have hboth : newline ∉ bs ++ chunk := fun hm => (List.mem_append.1 hm).elim h hchunk
    exact ⟨chunk, [], List.splitOn_eq_singleton hboth⟩

/-- **With more octets, the complete segments stay and the remainder grows.** -/
theorem exists_splitOn_append (bs chunk : Bytes) :
    ∃ first more, (bs ++ chunk).splitOn newline =
      (segments bs).1 ++ ((segments bs).2 ++ first) :: more := by
  obtain ⟨first, more, h⟩ :=
    exists_splitOn_append_of_notMem (newline_notMem_remainder bs) chunk
  refine ⟨first, more, ?_⟩
  rw [splitOn_newline, segments_append, ← h, splitOn_newline, List.append_assoc]

end KeyControl
