import KeyControl.Proofs.Daemon.Asked
import KeyControl.Proofs.Link.Carrying

/-!
# A link that stands

A link stands while its socket neither fails nor ends and nothing but whole lines arrives on it
(`Link.Stands`).  A new link stands, and if the other side answers with lines, it keeps standing
whatever is sent over it and however often something is received (`Link.Stands.send`,
`Link.Stands.recv`): the other side may refuse to answer, a line may be too long, lines may stay
unread, and none of that brings the link down.

What is read in between does not matter to the other side.  Receiving makes no call of the
credential store (`Link.asked_journal_recv`), and sending makes the calls that the other side makes
(`Link.Stands.journal_send`).  A link that stands, with nothing unread and no line that was too
long, carries nothing (`Link.Stands.carries`), so that the next reply is the answer to the next
request.
-/

namespace KeyControl

/-! ## Receiving -/

theorem Journal.asked_of_reads {calls : Journal} (h : ∀ c ∈ calls, c.reads = true) :
    calls.asked = [] := by
  have hnone : calls.filter Call.asksStore = [] := List.filter_eq_nil_iff.2 fun c hc hasks => by
    have hreads := h c hc
    cases c with
    | authenticate token clientName => cases hreads
    | check session => cases hreads
    | _ => cases hasks
  rw [asked, hnone, List.reverse_nil]

namespace Link

open LineBuffer

variable {π : Type} {limit : Nat} {l : Link π}

/-- **Receiving makes no call of the credential store.** -/
theorem asked_journal_recv (l : Link π) (decode : Decoder) (wait : Wait) :
    (l.recv decode wait).2.journal.asked = l.journal.asked := by
  obtain ⟨calls, hjournal, hreads⟩ := l.exists_journal_recv_eq decode wait
  rw [hjournal, Journal.asked_append, Journal.asked_of_reads hreads, List.append_nil]

end Link

/-! ## Links on which only lines arrive -/

theorem eq_nil_of_segments {bs : Bytes} (h : segments bs = ([], [])) : bs = [] := by
  have hcount := length_segments bs
  rw [h, List.length_nil, eq_comm, List.count_eq_zero] at hcount
  have hremainder := congrArg Prod.snd (segments_of_notMem hcount)
  rw [h] at hremainder
  exact hremainder.symm

/-- What is left over of the first octets of a stream of lines goes on with the last of these
lines, and nothing is left over of that. -/
theorem segments_rest {stream more : Bytes} {lines : List Bytes}
    (h : stream ++ more = joinLines lines) (hlines : ∀ line ∈ lines, IsLine line) :
    segments ((segments stream).2 ++ more) = (lines.drop (segments stream).1.length, []) := by
  have hall := segments_joinLines hlines
  rw [← h, segments_append, Prod.mk.injEq] at hall
  rw [← hall.1, List.drop_left]
  exact Prod.ext rfl hall.2

/-- The other side of a socket answers with lines, or not at all. -/
def Peer.AnswersLines {π : Type} (answer : Peer π) : Prop :=
  ∀ bs state events, (answer bs state).outcome = .ok events →
    ∃ lines, events = [.data (joinLines lines)] ∧ ∀ line ∈ lines, IsLine line

/-- The octets that a daemon answers frames with are lines. -/
theorem Daemon.exists_joinLines_of_answerFrames {σ : Type} (d : Daemon σ) {fs : List Bytes}
    {desk seen : Desk σ} {bs : Bytes} (h : d.answerFrames fs desk = (.ok bs, seen)) :
    ∃ lines, bs = joinLines lines ∧ ∀ line ∈ lines, IsLine line := by
  induction fs generalizing desk bs with
  | nil =>
    cases h
    exact ⟨[], rfl, fun _ hline => absurd hline List.not_mem_nil⟩
  | cons f fs ih =>
    rw [answerFrames] at h
    split at h
    · cases h
    · split at h
      · cases h
      · next first hfirst =>
        split at h
        · cases h
        · next rest after hrest =>
          cases h
          obtain ⟨lines, rfl, hlines⟩ := Parcel.exists_joinLines_of_frameAll hfirst
          obtain ⟨more, rfl, hmore⟩ := ih hrest
          refine ⟨lines ++ more, (joinLines_append lines more).symm, fun line hline => ?_⟩
          exact (List.mem_append.1 hline).elim (hlines line) (hmore line)

/-- **A daemon answers with lines or not at all**, whatever is written to it. -/
theorem Daemon.answersLines_peer {σ : Type} (d : Daemon σ) : d.peer.AnswersLines := by
  intro bs state events h
  rw [peer] at h
  split at h
  · cases h
  · split at h
    · next hanswer =>
      cases h
      obtain ⟨lines, rfl, hlines⟩ := d.exists_joinLines_of_answerFrames hanswer
      exact ⟨lines, rfl, hlines⟩
    · cases h

namespace Link

open LineBuffer

variable {π : Type} {limit : Nat} {l : Link π}

/-- A link stands: its socket neither fails nor ends, and what the reader has read and what is still
to come are lines. -/
structure Stands (limit : Nat) (l : Link π) : Prop where
  attached : ∃ fault, l.attachment = .attached ⟨l.inbox, [], fault⟩ true
  size : 0 < l.readSize.toNat
  stream : ∃ stream lines, l.reader = after limit stream ∧
    stream ++ l.inbox.octets = joinLines lines ∧ ∀ line ∈ lines, IsLine line
  ends : l.inbox.ends = false
  calm : l.inbox.interruptions = 0

theorem stands_new (limit : Nat) {size : Nat} (hsize : 1 ≤ size) (fault : Option Text) (peer : π) :
    Stands limit (Link.new (some ⟨[], [], fault⟩) size limit peer) where
  attached := ⟨fault, rfl⟩
  size := by
    show 0 < (size : Int).toNat
    omega
  stream := ⟨[], [], empty_eq_after limit, rfl, fun _ hline => absurd hline List.not_mem_nil⟩
  ends := rfl
  calm := rfl

namespace Stands

variable (h : Stands limit l)

include h

/-- **A frame is written, and the calls made are those of the other side.** -/
theorem journal_send {p : Parcel} {bs : Bytes} (hp : p.frame = .ok bs) (answer : Peer π) :
    (l.send answer p).2.journal = (answer bs l.peer).calls ++ .sendAll bs :: l.journal := by
  obtain ⟨fault, hattached⟩ := h.attached
  rw [Link.send, hattached]
  dsimp only
  rw [hp]
  dsimp only
  rw [write]
  dsimp only [List.head?_nil]
  split <;> rfl

/-- **Whatever is sent, the link keeps standing**, if it is answered with lines or not at all. -/
theorem send {answer : Peer π} (hanswer : answer.AnswersLines) (p : Parcel) :
    Stands limit (l.send answer p).2 := by
  obtain ⟨fault, hattached⟩ := h.attached
  obtain ⟨stream, lines, hreader, harrives, hlines⟩ := h.stream
  rw [Link.send, hattached]
  dsimp only
  split
  · exact h
  · next bs _ =>
    have hlines' := hanswer bs l.peer
    rw [write]
    dsimp only [List.head?_nil]
    cases houtcome : (answer bs l.peer).outcome with
    | ok events =>
      obtain ⟨more, rfl, hmore⟩ := hlines' events houtcome
      obtain ⟨hoctets, hends, hcount⟩ := Inbox.append_data h.ends (joinLines more)
      refine ⟨⟨fault, rfl⟩, h.size, ⟨stream, lines ++ more, hreader, ?_, ?_⟩, hends,
        hcount.trans h.calm⟩
      · show stream ++ Inbox.octets (l.inbox ++ _) = _
        rw [hoctets, ← List.append_assoc, harrives, joinLines_append]
      · exact fun line hline => (List.mem_append.1 hline).elim (hlines line) (hmore line)
    | error e =>
      have hstay : ∀ peer journal, Stands limit (⟨.attached ⟨l.inbox, [], fault⟩ true, l.reader,
          l.lines, l.readSize, peer, journal⟩ : Link π) := fun _ _ =>
        ⟨⟨fault, rfl⟩, h.size, ⟨stream, lines, hreader, harrives, hlines⟩, h.ends, h.calm⟩
      cases e with
      | incident i => exact hstay _ _
      | _ => exact hstay _ _

theorem filled {s : Socket} {f : Filled} {stream chunk : Bytes} {lines : List Bytes}
    (hattached : l.attachment = .attached s true)
    (harrives : stream ++ l.inbox.octets = joinLines lines) (hlines : ∀ line ∈ lines, IsLine line)
    (hyields : l.inbox.Yields chunk 0 f.inbox) (hreader : f.reader = after limit (stream ++ chunk))
    (queue : List Bytes) : Stands limit (l.filled s f true queue) := by
  obtain ⟨fault, hfault⟩ := h.attached
  rw [hattached] at hfault
  cases hfault
  refine ⟨⟨fault, rfl⟩, h.size, ⟨stream ++ chunk, lines, hreader, ?_, hlines⟩,
    hyields.ends.trans h.ends, ?_⟩
  · show stream ++ chunk ++ f.inbox.octets = _
    rw [List.append_assoc, ← hyields.octets, harrives]
  · have hcount := hyields.interruptions
    rw [h.calm, Nat.zero_add] at hcount
    exact hcount.symm

/-- Whether a link stands has nothing to do with the lines that it has not handed back. -/
theorem with_lines (queue : List Bytes) :
    Stands limit ⟨l.attachment, l.reader, queue, l.readSize, l.peer, l.journal⟩ :=
  ⟨h.attached, h.size, h.stream, h.ends, h.calm⟩

/-- **However often something is received, the link keeps standing.** -/
theorem recv (decode : Decoder) (wait : Wait) : Stands limit (l.recv decode wait).2 := by
  obtain ⟨fault, hattached⟩ := h.attached
  cases hqueue : l.lines with
  | cons line more =>
    rw [recv_of_lines hattached hqueue]
    exact h.with_lines more
  | nil =>
    obtain ⟨stream, lines, hreader, harrives, hlines⟩ := h.stream
    have hfilling := @filling limit l.readSize h.size wait stream l.inbox l.journal
    rw [recv_of_no_lines hattached hqueue, hreader]
    generalize fill l.readSize wait (after limit stream) l.inbox l.journal = f at hfilling
    obtain ⟨outcome, reader, inbox, journal⟩ := f
    cases hfilling with
    | @lines chunk _ ls hyields hne hframes =>
      obtain ⟨line, more, rfl⟩ := List.exists_cons_of_ne_nil hne
      have hfilled := h.filled (f := ⟨.lines (line :: more), _, inbox, journal⟩) hattached harrives
        hlines hyields rfl (line :: more)
      exact hfilled.with_lines more
    | overflow hyields hover hframes => exact h.filled hattached harrives hlines hyields rfl []
    | interrupted cause hcause hyields hcount hover hframes =>
      -- Nothing interrupts, so if a read does not go on, it is because nothing is left.
      have hcalm := hyields.interruptions
      rw [h.calm] at hcalm
      obtain ⟨rfl, -⟩ := Nat.add_eq_zero_iff.1 hcalm.symm
      exact h.filled hattached harrives hlines hyields rfl []
    | ended hends hover hframes =>
      rw [h.ends] at hends
      cases hends

/-- **A link that stands with nothing unread carries nothing**, unless a line was too long. -/
theorem carries (hunread : l.unread = []) (hreader : l.reader.failed = false) :
    Carries limit [] [] [] l := by
  obtain ⟨stream, lines, hafter, harrives, hlines⟩ := h.stream
  have hover : overruns limit stream = false := by
    rw [hafter] at hreader
    exact hreader
  have hrest := segments_rest harrives hlines
  rw [unread, hafter, current_after_of_not hover, List.reverse_reverse, hrest,
    filter_blank_of_isLine fun line hline => hlines line (List.mem_of_mem_drop hline),
    List.append_eq_nil_iff] at hunread
  obtain ⟨hqueue, hdrop⟩ := hunread
  rw [hdrop] at hrest
  obtain ⟨hremainder, hoctets⟩ := List.append_eq_nil_iff.1 (eq_nil_of_segments hrest)
  refine ⟨h.attached, h.size, ?_, ?_, ?_, h.ends, h.calm, fun _ hm => absurd hm List.not_mem_nil,
    fun _ hm => absurd hm List.not_mem_nil⟩
  · rw [hafter, after, after, hover, hremainder, overruns_nil]
    rfl
  · rw [hoctets]
    rfl
  · rw [hqueue]
    rfl

end Stands

end Link

end KeyControl
