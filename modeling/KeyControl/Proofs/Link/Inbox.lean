import KeyControl.Link.Socket

/-!
# What an inbox has in store

An inbox is a list of events, and a read takes some of them.  Three quantities say what is still to
come before the stream ends: the octets, whether it ends at all, and how many reads will be
interrupted.  `Inbox.Yields` relates an inbox to what is left of it after some reads, and
`Inbox.receive_explains` says for each outcome of a read what it took.
-/

namespace KeyControl.Inbox

/-- The octets that arrive before the stream ends. -/
def octets : Inbox → Bytes
  | [] => []
  | .data bs :: es => bs ++ octets es
  | .ended :: _ => []
  | .timeout :: es => octets es
  | .failed _ :: es => octets es

/-- Whether the stream ends. -/
def ends : Inbox → Bool
  | [] => false
  | .ended :: _ => true
  | _ :: es => ends es

/-- How many reads time out or fail before the stream ends. -/
def interruptions : Inbox → Nat
  | [] => 0
  | .data _ :: es => interruptions es
  | .ended :: _ => 0
  | .timeout :: es => interruptions es + 1
  | .failed _ :: es => interruptions es + 1

/-- Some octets and interruptions lead from one inbox to another. -/
structure Yields (es : Inbox) (chunk : Bytes) (count : Nat) (rest : Inbox) : Prop where
  octets : es.octets = chunk ++ rest.octets
  ends : rest.ends = es.ends
  interruptions : es.interruptions = count + rest.interruptions

namespace Yields

variable {es mid rest : Inbox} {chunk later : Bytes} {m n : Nat}

theorem refl (es : Inbox) : Yields es [] 0 es where
  octets := rfl
  ends := rfl
  interruptions := (Nat.zero_add _).symm

theorem trans (h : Yields es chunk m mid) (h' : Yields mid later n rest) :
    Yields es (chunk ++ later) (m + n) rest where
  octets := by rw [h.octets, h'.octets, List.append_assoc]
  ends := by rw [h'.ends, h.ends]
  interruptions := by rw [h.interruptions, h'.interruptions, Nat.add_assoc]

theorem data_nil (es : Inbox) : Yields (.data [] :: es) [] 0 es where
  octets := rfl
  ends := rfl
  interruptions := (Nat.zero_add _).symm

end Yields

/-- What the outcome of a read says about the inbox before and after it. -/
def Read.Explains (es rest : Inbox) : Read → Prop
  | .octets bs => bs ≠ [] ∧ Yields es bs 0 rest
  | .timeout => Yields es [] 1 rest ∨ Yields es [] 0 rest ∧ rest = []
  | .failed _ => Yields es [] 1 rest
  | .ended => es.octets = [] ∧ es.ends = true

/-- Arrivals of no octets may stand before what a read took. -/
theorem Read.Explains.data_nil {es rest : Inbox} {r : Read} (h : r.Explains es rest) :
    r.Explains (.data [] :: es) rest := by
  cases r with
  | octets bs => exact ⟨h.1, (Yields.data_nil es).trans h.2⟩
  | timeout =>
    rcases h with h | ⟨h, hrest⟩
    · exact .inl ((Yields.data_nil es).trans h)
    · exact .inr ⟨(Yields.data_nil es).trans h, hrest⟩
  | failed text => exact (Yields.data_nil es).trans h
  | ended => exact h

/-- **What a read takes from an inbox.** -/
theorem receive_explains {size : Nat} (hsize : 0 < size) (es : Inbox) :
    (receive size es).2.1.Explains es (receive size es).2.2 := by
  induction es with
  | nil => exact .inr ⟨.refl [], rfl⟩
  | cons e es ih =>
    cases e with
    | data bs =>
      cases bs with
      | nil => exact ih.data_nil
      | cons b bs =>
        have hne : (b :: bs).take size ≠ [] := by
          rw [ne_eq, List.take_eq_nil_iff, not_or]
          exact ⟨by omega, List.cons_ne_nil b bs⟩
        refine ⟨hne, ?_⟩
        show Yields _ _ 0 (if ((b :: bs).drop size).isEmpty then es else _)
        have htake := List.take_append_drop size (b :: bs)
        split
        · next hnone =>
          rw [List.isEmpty_iff] at hnone
          rw [hnone, List.append_nil] at htake
          rw [htake]
          exact ⟨rfl, rfl, (Nat.zero_add _).symm⟩
        · refine ⟨?_, rfl, (Nat.zero_add _).symm⟩
          rw [octets, octets, ← List.append_assoc, htake]
    | timeout => exact .inl ⟨rfl, rfl, Nat.add_comm _ _⟩
    | ended => exact ⟨rfl, rfl⟩
    | failed text => exact ⟨rfl, rfl, Nat.add_comm _ _⟩

/-- How often a read asks the socket: at least once, and once more for every arrival of no octets
that it passes over. -/
theorem receive_count {size : Nat} (hsize : 0 < size) (es : Inbox) :
    1 ≤ (receive size es).1 ∧
      (receive size es).1 + (receive size es).2.2.weight ≤ es.weight + 1 ∧
      ∀ bs, (receive size es).2.1 = .octets bs →
        (receive size es).1 + (receive size es).2.2.weight ≤ es.weight := by
  induction es with
  | nil =>
    refine ⟨Nat.le_refl 1, Nat.le_refl 1, ?_⟩
    intro bs h
    cases h
  | cons e es ih =>
    cases e with
    | data bs =>
      cases bs with
      | nil =>
        obtain ⟨hone, hall, hoctets⟩ := ih
        refine ⟨?_, ?_, fun bs h => ?_⟩
        · show 1 ≤ (receive size es).1 + 1
          omega
        · show (receive size es).1 + 1 + (receive size es).2.2.weight ≤ 0 + 1 + weight es + 1
          omega
        · have hle := hoctets bs h
          show (receive size es).1 + 1 + (receive size es).2.2.weight ≤ 0 + 1 + weight es
          omega
      | cons b bs =>
        have hrest : 1 + (receive size (.data (b :: bs) :: es)).2.2.weight ≤
            weight (.data (b :: bs) :: es) := by
          show 1 + weight (if ((b :: bs).drop size).isEmpty then es else _) ≤ _
          split
          · rw [weight]
            omega
          · rw [weight, weight, List.length_drop, List.length_cons]
            omega
        exact ⟨Nat.le_refl 1, Nat.le_succ_of_le hrest, fun _ _ => hrest⟩
    | timeout =>
      refine ⟨Nat.le_refl 1, Nat.le_succ _, ?_⟩
      intro bs h
      cases h
    | ended =>
      refine ⟨Nat.le_refl 1, Nat.le_succ _, ?_⟩
      intro bs h
      cases h
    | failed text =>
      refine ⟨Nat.le_refl 1, Nat.le_succ _, ?_⟩
      intro bs h
      cases h

end KeyControl.Inbox
