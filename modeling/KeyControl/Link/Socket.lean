import KeyControl.Failure

/-!
# Sockets given by what happens on them

A socket is the list of what will happen on it: octets that arrive, reads that time out or fail, the
end of the stream, and which writes fail.  `Inbox.receive` is one read.  `Peer` is the other side of
a socket: it sees what is written and may put more events into the inbox.
-/

namespace KeyControl

/-- What happens on the reading side of a socket. -/
inductive Event where
  /-- Octets arrive. -/
  | data (bs : Bytes)
  /-- A read times out. -/
  | timeout
  /-- The stream ends. -/
  | ended
  /-- A read fails with a text. -/
  | failed (text : Text)
deriving DecidableEq

/-- The events still to come. -/
abbrev Inbox := List Event

namespace Inbox

/-- The outcome of a read. -/
inductive Read where
  /-- These octets. -/
  | octets (bs : Bytes)
  /-- Nothing in time. -/
  | timeout
  /-- The end of the stream. -/
  | ended
  /-- A failure with a text. -/
  | failed (text : Text)
deriving DecidableEq

/-- Read at most `size` octets: how often the socket was asked, the outcome and the events left.
Octets that do not fit stay in front, and an arrival of no octets makes the socket ask again.  Where
nothing happens any more, reads time out. -/
def receive (size : Nat) : Inbox → Nat × Read × Inbox
  | [] => (1, .timeout, [])
  | .data [] :: es =>
    let (count, r, rest) := receive size es
    (count + 1, r, rest)
  | .data (b :: bs) :: es =>
    let later := (b :: bs).drop size
    (1, .octets ((b :: bs).take size), if later.isEmpty then es else .data later :: es)
  | .timeout :: es => (1, .timeout, es)
  | .ended :: es => (1, .ended, es)
  | .failed text :: es => (1, .failed text, es)

/-- How much is still to come: every event counts once, and every octet once. -/
def weight : Inbox → Nat
  | [] => 0
  | .data bs :: es => bs.length + 1 + weight es
  | _ :: es => 1 + weight es

/-- A read of octets leaves less to come. -/
theorem weight_lt_of_receive {size : Nat} {es rest : Inbox} {count : Nat} {b : UInt8} {bs : Bytes}
    (h : receive size es = (count, .octets (b :: bs), rest)) : weight rest < weight es := by
  induction es generalizing count with
  | nil => simp [receive] at h
  | cons e es ih =>
    cases e with
    | data cs =>
      cases cs with
      | nil =>
        simp only [receive] at h
        have hes : receive size es = ((receive size es).1, .octets (b :: bs), rest) := by
          simp only [Prod.mk.injEq] at h
          obtain ⟨-, h1, h2⟩ := h
          rw [← h1, ← h2]
        have := ih hes
        simp only [weight]
        omega
      | cons c cs =>
        simp only [receive, Prod.mk.injEq] at h
        obtain ⟨-, h1, h2⟩ := h
        have hsize : 0 < size := by
          cases size with
          | zero => simp at h1
          | succ n => omega
        subst h2
        split
        · simp only [weight]; omega
        · simp only [weight, List.length_drop, List.length_cons]; omega
    | timeout => simp [receive] at h
    | ended => simp [receive] at h
    | failed t => simp [receive] at h

end Inbox

/-- A socket that is attached to a link. -/
structure Socket where
  /-- What will happen on the reading side. -/
  inbox : Inbox
  /-- For each write to come, the text of its failure, if it fails; later ones succeed. -/
  sendFaults : List (Option Text)
  /-- The text of the failure of closing the socket, if that fails. -/
  closeFault : Option Text
deriving DecidableEq

namespace Socket

/-- Close a socket; the error is the text of the failure. -/
def close (s : Socket) : Except Text Unit :=
  match s.closeFault with
  | some text => .error text
  | none => .ok ()

end Socket

/-- What the other side of a socket does about a write. -/
structure Answer (π : Type) where
  /-- The events that it brings about, or its failure. -/
  outcome : Except Failure Inbox
  /-- Its state afterwards. -/
  state : π
  /-- The calls that it makes, newest first. -/
  calls : Journal

/-- The other side of a socket, over a state `π`. -/
abbrev Peer (π : Type) := Bytes → π → Answer π

namespace Peer

/-- The other side that takes no notice of what is written. -/
def silent : Peer Unit :=
  fun _ _ => ⟨.ok [], (), []⟩

end Peer

end KeyControl
