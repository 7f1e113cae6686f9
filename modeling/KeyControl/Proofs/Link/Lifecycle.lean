import KeyControl.Proofs.Daemon.Calm
import KeyControl.Proofs.Link.Delivery

/-!
# The life of a link

A link is used by sending, receiving, opening and closing, in any order (`Link.Use`, `Link.run`).
It has two phases.  While it is *in use* it has a socket, which may be open or not: the stream may
have ended, and the link may be opened again after that.  The first time it is closed, it is
*retired*: it has no socket and keeps nothing of what was read.

No use but closing ends the first phase (`Link.InUse.use`), and closing ends it with the one call
that closes the socket, whether or not this call fails (`Link.InUse.close`).  Nothing ends the
second: a retired link refuses everything but to be closed again, and stays as it is, the journal of
its calls included (`Link.Retired.use`).  `Link.lifecycle` puts this together for links over a
socket and over none.  An open link is in use, so it has the socket that sending and receiving call.
-/

namespace KeyControl.Link

/-! ## Uses -/

/-- A use of a link. -/
inductive Use where
  | send (p : Parcel)
  | recv (wait : Wait)
  | reopen
  | close
deriving DecidableEq

/-- What a use gives: a message, if it is receiving, and otherwise nothing. -/
abbrev Use.Result := Except Failure (Option Message)

/-- What a use gives if there is no socket and nothing to hand back. -/
def Use.refusal : Use → Use.Result
  | send _ => .error (.unusable .closed)
  | recv _ => .error (.unusable .closed)
  | reopen => .error (.unusable .noSocket)
  | close => .ok none

variable {π : Type}

def use (answer : Peer π) (decode : Decoder) (l : Link π) : Use → Use.Result × Link π
  | .send p => ((l.send answer p).1.map fun _ => none, (l.send answer p).2)
  | .recv wait => ((l.recv decode wait).1.map some, (l.recv decode wait).2)
  | .reopen => (l.reopen.1.map fun _ => none, l.reopen.2)
  | .close => (.ok none, l.close)

def run (answer : Peer π) (decode : Decoder) : List Use → Link π → List Use.Result × Link π
  | [], l => ([], l)
  | u :: us, l =>
    ((l.use answer decode u).1 :: (run answer decode us (l.use answer decode u).2).1,
      (run answer decode us (l.use answer decode u).2).2)

/-! ## Retired links -/

/-- A link without a socket, and without anything that was read. -/
structure Retired (l : Link π) : Prop where
  detached : l.attachment = .detached
  pending : l.reader.pending = 0
  lines : l.lines = []

namespace Retired

variable {l : Link π} (h : Retired l)

include h

theorem isOpen_eq_false : l.isOpen = false := by
  rw [isOpen, h.detached]

/-- **A retired link refuses every use and stays as it is.** -/
theorem use (answer : Peer π) (decode : Decoder) (u : Use) :
    l.use answer decode u = (u.refusal, l) := by
  obtain ⟨attachment, reader, lines, readSize, peer, journal⟩ := l
  obtain rfl := h.detached
  obtain rfl := h.lines
  cases u <;> rfl

theorem run (answer : Peer π) (decode : Decoder) (us : List Use) :
    Link.run answer decode us l = (us.map Use.refusal, l) := by
  induction us with
  | nil => rfl
  | cons u us ih => rw [Link.run, h.use answer decode u, ih, List.map_cons]

end Retired

/-! ## Writing -/

/-- **What writing leaves alone.**  It is entered as a call, and changes the other side and the faults
that are still to come.  If the other side answers, its answer comes behind what the socket has in
store.  No other call of the socket is made. -/
theorem exists_write_eq (l : Link π) {answer : Peer π} (hanswer : answer.KeepsOff) (bs : Bytes)
    (s : Socket) :
    ∃ inbox faults peer calls,
      (l.write answer bs s).2 =
        ⟨.attached ⟨inbox, faults, s.closeFault⟩ true, l.reader, l.lines, l.readSize, peer,
          calls ++ .sendAll bs :: l.journal⟩ ∧
      (inbox = s.inbox ∨
        ∃ events, (answer bs l.peer).outcome = .ok events ∧ inbox = s.inbox ++ events) ∧
      ∀ c ∈ calls, c.onSocket = false := by
  have hcalls := hanswer bs l.peer
  rw [write]
  dsimp only
  split
  · exact ⟨_, _, _, [], rfl, .inl rfl, List.forall_mem_nil _⟩
  · split
    · next hevents => exact ⟨_, _, _, _, rfl, .inr ⟨_, hevents, rfl⟩, hcalls⟩
    · exact ⟨_, _, _, _, rfl, .inl rfl, hcalls⟩
    · exact ⟨_, _, _, _, rfl, .inl rfl, hcalls⟩

/-! ## Links in use -/

/-- A link with a socket that has not been closed. -/
structure InUse (l : Link π) : Prop where
  attached : l.attachment.socket.isSome = true
  unclosed : .close ∉ l.journal

namespace InUse

variable {l : Link π} (h : InUse l)

include h

theorem close : Retired l.close ∧ l.close.journal.count .close = 1 := by
  obtain ⟨s, hs⟩ := Option.isSome_iff_exists.1 h.attached
  have hclose : l.close =
      ⟨.detached, .empty l.reader.limit, [], l.readSize, l.peer, .close :: l.journal⟩ := by
    rw [Link.close, hs]
    dsimp only
    split <;> rfl
  rw [hclose]
  refine ⟨⟨rfl, rfl, rfl⟩, ?_⟩
  rw [List.count_cons_self, List.count_eq_zero.2 h.unclosed]

theorem write {answer : Peer π} (hanswer : answer.KeepsOff) (bs : Bytes) (s : Socket) :
    InUse (l.write answer bs s).2 := by
  obtain ⟨inbox, faults, peer, calls, hwrite, -, hcalls⟩ := l.exists_write_eq hanswer bs s
  rw [hwrite]
  refine ⟨rfl, fun hc => ?_⟩
  rcases List.mem_append.1 hc with hmem | hmem
  · cases hcalls _ hmem
  · exact List.not_mem_cons_of_ne_of_not_mem Call.noConfusion h.unclosed hmem

theorem send {answer : Peer π} (hanswer : answer.KeepsOff) (p : Parcel) :
    InUse (l.send answer p).2 := by
  rw [Link.send]
  split
  · exact h
  · split
    · exact h
    · split
      · exact h.write hanswer _ _
      · exact h

/-- A link is still in use when something has been received, even if the stream has ended. -/
theorem recv (decode : Decoder) (wait : Wait) : InUse (l.recv decode wait).2 := by
  obtain ⟨calls, hjournal, hreads⟩ := l.exists_journal_recv_eq decode wait
  refine ⟨?_, ?_⟩
  · rcases l.recv_cases decode wait with ⟨e, hrecv⟩ | ⟨line, rest, -, -, hrecv⟩ | ⟨s, -, -, hrecv⟩
    · rw [hrecv]
      exact h.attached
    · rw [hrecv]
      exact h.attached
    · obtain ⟨x, isOpen, lines, hconclude⟩ :=
        l.exists_conclude_eq s decode (fill l.readSize wait l.reader s.inbox l.journal)
      rw [hrecv, hconclude]
      rfl
  · rw [hjournal]
    refine fun hc => (List.mem_append.1 hc).elim (fun hcalls => ?_) h.unclosed
    cases hreads _ hcalls

/-- **A link stays in use until it is closed.** -/
theorem use {answer : Peer π} (hanswer : answer.KeepsOff) (decode : Decoder) {u : Use}
    (hu : u ≠ .close) : InUse (l.use answer decode u).2 := by
  cases u with
  | send p => exact h.send hanswer p
  | recv wait => exact h.recv decode wait
  | reopen =>
    show InUse l.reopen.2
    rw [reopen]
    split
    · exact h
    · exact ⟨rfl, h.unclosed⟩
  | close => exact absurd rfl hu

end InUse

/-- **A run retires a link in use exactly if the link is closed in it**, and then its socket is
closed once. -/
theorem InUse.run {answer : Peer π} (hanswer : answer.KeepsOff) (decode : Decoder)
    (us : List Use) {l : Link π} (h : InUse l) :
    (.close ∉ us → InUse (Link.run answer decode us l).2) ∧
    (.close ∈ us → Retired (Link.run answer decode us l).2 ∧
      (Link.run answer decode us l).2.journal.count .close = 1) := by
  induction us generalizing l with
  | nil => exact ⟨fun _ => h, fun hmem => absurd hmem List.not_mem_nil⟩
  | cons u us ih =>
    rw [Link.run]
    by_cases hu : u = .close
    · subst hu
      refine ⟨fun hmem => absurd List.mem_cons_self hmem, fun _ => ?_⟩
      -- From the close on, nothing changes any more.
      have hrest : (Link.run answer decode us l.close).2 = l.close :=
        congrArg Prod.snd (h.close.1.run answer decode us)
      show Retired (Link.run answer decode us l.close).2 ∧
        (Link.run answer decode us l.close).2.journal.count .close = 1
      rw [hrest]
      exact h.close
    · obtain ⟨hopen, hclosed⟩ := ih (h.use hanswer decode hu)
      exact ⟨fun hmem => hopen fun hus => hmem (List.mem_cons_of_mem _ hus),
        fun hmem => hclosed (List.mem_of_ne_of_mem (Ne.symm hu) hmem)⟩

/-! ## All links -/

/-- **The life of a link.**  Take a link over a socket or over none, whatever happens on the socket,
and use it in any way.  If it is open, it has a socket.  The socket is closed once if the link is
closed at all, and otherwise not.  And if the link has been closed, or never had a socket, then it
is not open and keeps nothing that was read; from then on, sending, receiving and opening fail,
closing succeeds, and the link stays as it is, so that no call of a socket is made any more. -/
theorem lifecycle {answer : Peer π} (hanswer : answer.KeepsOff) (decode : Decoder)
    (socket : Option Socket) (readSize limit : Int) (peer : π) (us : List Use) :
    let l := (run answer decode us (new socket readSize limit peer)).2
    (l.isOpen = true → l.attachment.socket.isSome = true) ∧
    l.journal.count .close = (if socket.isSome = true ∧ .close ∈ us then 1 else 0) ∧
    (socket = none ∨ .close ∈ us →
      l.isOpen = false ∧ l.reader.pending = 0 ∧ l.lines = [] ∧
        ∀ later, run answer decode later l = (later.map Use.refusal, l)) := by
  intro l
  have hretired : Retired l →
      (l.isOpen = true → l.attachment.socket.isSome = true) ∧
        l.isOpen = false ∧ l.reader.pending = 0 ∧ l.lines = [] ∧
          ∀ later, run answer decode later l = (later.map Use.refusal, l) := fun h =>
    ⟨fun hopen => absurd (h.isOpen_eq_false.symm.trans hopen) Bool.false_ne_true,
      h.isOpen_eq_false, h.pending, h.lines, h.run answer decode⟩
  cases socket with
  | none =>
    have hnew : Retired (new none readSize limit peer) := ⟨rfl, rfl, rfl⟩
    have hl : l = new none readSize limit peer := congrArg Prod.snd (hnew.run answer decode us)
    obtain ⟨hopen, hrest⟩ := hretired (hl ▸ hnew)
    refine ⟨hopen, ?_, fun _ => hrest⟩
    rw [if_neg fun hsome => Bool.false_ne_true hsome.1, hl]
    rfl
  | some s =>
    have hnew : InUse (new (some s) readSize limit peer) := ⟨rfl, List.not_mem_nil⟩
    obtain ⟨hinUse, hclosed⟩ := hnew.run hanswer decode us
    by_cases hmem : .close ∈ us
    · obtain ⟨h, hcount⟩ := hclosed hmem
      obtain ⟨hopen, hrest⟩ := hretired h
      exact ⟨hopen, by rw [if_pos ⟨rfl, hmem⟩, hcount], fun _ => hrest⟩
    · have h := hinUse hmem
      refine ⟨fun _ => h.attached, ?_, fun hor => ?_⟩
      · rw [if_neg fun hsome => hmem hsome.2]
        exact List.count_eq_zero.2 h.unclosed
      · exact absurd (hor.resolve_left nofun) hmem

/-- A link that is opened again after the end of the stream, and then closed twice over a socket
that cannot be closed: that socket is closed once, and nothing is sent or received any more. -/
theorem lifecycle_reopened :
    let s : Socket :=
      ⟨[.data [123, 125, 10, 123], .ended], [], some (Text.ofString "bad descriptor")⟩
    let us := [Use.recv .null, .recv .null, .reopen, .recv .null, .close, .close]
    let l := (run Peer.silent Reading.replies.decoder us (new (some s) 4096 0 ())).2
    Peer.silent.KeepsOff ∧ l.journal.count .close = 1 ∧ l.isOpen = false ∧ l.lines = [] ∧
      run Peer.silent Reading.replies.decoder [.recv .null, .reopen, .close] l =
        ([.error (.unusable .closed), .error (.unusable .noSocket), .ok none], l) := by
  intro s us l
  have hsilent : Peer.silent.KeepsOff := fun _ _ => List.forall_mem_nil _
  have hmem : .close ∈ us := by decide
  obtain ⟨-, hcount, hclosed⟩ :=
    lifecycle hsilent Reading.replies.decoder (some s) 4096 0 () us
  obtain ⟨hopen, -, hlines, hlater⟩ := hclosed (.inr hmem)
  exact ⟨hsilent, hcount.trans (if_pos ⟨rfl, hmem⟩), hopen, hlines, hlater _⟩

end KeyControl.Link
