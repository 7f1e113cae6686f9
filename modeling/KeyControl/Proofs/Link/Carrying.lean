import KeyControl.Proofs.Link.Delivery
import KeyControl.Proofs.Wire.Frames
import KeyControl.Proofs.Wire.RoundTrip

/-!
# A link that carries replies

A link whose socket neither fails nor ends, and on which nothing but frames of replies arrives,
carries these replies: some are done, and the lines that are still unread, wherever they are, are
those of the rest (`Link.Carries.unread_eq`).  When the other side answers a frame with more replies,
they come behind the rest (`Link.Carries.send`).  A call that receives hands back the first of the
rest, and times out only if there is none (`Link.Carries.recv`).
-/

namespace KeyControl

/-! ## Inboxes on which nothing but octets arrives -/

namespace Inbox

/-- Octets that arrive last come behind the others, if the stream does not end before. -/
theorem append_data {es : Inbox} (h : es.ends = false) (bs : Bytes) :
    octets (es ++ [.data bs]) = es.octets ++ bs ∧ ends (es ++ [.data bs]) = false ∧
      interruptions (es ++ [.data bs]) = es.interruptions := by
  induction es with
  | nil => exact ⟨List.append_nil bs, rfl, rfl⟩
  | cons e es ih =>
    cases e with
    | data cs =>
      obtain ⟨hoctets, hends, hcount⟩ := ih h
      refine ⟨?_, hends, hcount⟩
      rw [List.cons_append, octets, hoctets, octets, List.append_assoc]
    | timeout =>
      obtain ⟨hoctets, hends, hcount⟩ := ih h
      exact ⟨hoctets, hends, congrArg Nat.succ hcount⟩
    | failed text =>
      obtain ⟨hoctets, hends, hcount⟩ := ih h
      exact ⟨hoctets, hends, congrArg Nat.succ hcount⟩
    | ended => cases h

theorem receive_ne_failed (size : Nat) {es : Inbox} (h : es.interruptions = 0) (text : Text) :
    (receive size es).2.1 ≠ .failed text := by
  induction es with
  | nil => exact Read.noConfusion
  | cons e es ih =>
    cases e with
    | data bs =>
      cases bs with
      | nil => exact ih h
      | cons b bs => exact Read.noConfusion
    | timeout => cases h
    | failed text => cases h
    | ended => exact Read.noConfusion

end Inbox

namespace Link

open LineBuffer

/-- Where nothing interrupts, reading is interrupted only because nothing came in time. -/
theorem eq_timeout_of_fill {size : Int} (hsize : 0 < size.toNat) {wait : Wait} {reader : LineBuffer}
    {inbox : Inbox} {journal : Journal} {cause : Failure} (hcalm : inbox.interruptions = 0)
    (h : (fill size wait reader inbox journal).outcome = .failed cause)
    (hcause : cause.interrupts = true) : cause = .timeout wait := by
  rw [fill] at h
  split at h
  · cases h
    cases hcause
  · have hexplains := Inbox.receive_explains hsize inbox
    have hfailed := Inbox.receive_ne_failed size.toNat hcalm
    split at h
    next count read rest hread =>
    rw [hread] at hexplains hfailed
    cases read with
    | timeout =>
      cases h
      rfl
    | failed text => exact absurd rfl (hfailed text)
    | ended =>
      dsimp only at h
      split at h <;> cases h
    | octets bs =>
      obtain ⟨hne, hyields⟩ := hexplains
      obtain ⟨b, bs, rfl⟩ := List.exists_cons_of_ne_nil hne
      dsimp only at h
      split at h
      · -- Only here does reading go on, and what is left of the inbox interrupts no more.
        have hrest : rest.interruptions = 0 := by
          have hcount := hyields.interruptions
          rw [hcalm, Nat.zero_add] at hcount
          exact hcount.symm
        exact eq_timeout_of_fill hsize hrest h hcause
      · cases h
      · cases h
        cases hcause
termination_by inbox.weight
decreasing_by exact Inbox.weight_lt_of_receive hread

/-! ## Replies on a link -/

theorem newFrames_nil (limit : Nat) (stream : Bytes) : newFrames limit stream [] = [] := by
  rw [newFrames, List.append_nil, framesOf, leading,
    segments_of_notMem (newline_notMem_remainder stream)]
  rfl

theorem isLine_payloads (ms : List Message) : ∀ line ∈ ms.map Message.payload, IsLine line :=
  List.forall_mem_map.2 fun m _ => m.wire.isLine_encode

variable {π : Type}

def inbox (l : Link π) : Inbox :=
  match l.attachment.socket with
  | some s => s.inbox
  | none => []

/-- The lines that a link has not handed back yet: those in the queue, and those in what it has
begun to read and what is still to come. -/
def unread (l : Link π) : List Bytes :=
  l.lines ++ (segments (l.reader.current.reverse ++ l.inbox.octets)).1.filter (! ·.blank)

/-- A link carries replies: those done have been handed back, the rest is unread. -/
structure Carries (limit : Nat) (stream : Bytes) (done rest : List Message) (l : Link π) :
    Prop where
  attached : ∃ fault, l.attachment = .attached ⟨l.inbox, [], fault⟩ true
  size : 0 < l.readSize.toNat
  /-- The reader has read some of what arrives, -/
  reader : l.reader = after limit stream
  /-- and with the rest that is the stream of all replies. -/
  octets : stream ++ l.inbox.octets = joinLines ((done ++ rest).map Message.payload)
  /-- The frames read are those done and those queued. -/
  frames : framesOf limit stream = done.map Message.payload ++ l.lines
  ends : l.inbox.ends = false
  calm : l.inbox.interruptions = 0
  fits : ∀ m ∈ done ++ rest, tooLong limit m.payload = false
  replies : ∀ m ∈ done ++ rest, .replies ∈ m.readings

theorem carries_new (limit : Nat) {size : Nat} (hsize : 1 ≤ size) (fault : Option Text) (peer : π) :
    Carries limit [] [] [] (Link.new (some ⟨[], [], fault⟩) size limit peer) where
  attached := ⟨fault, rfl⟩
  size := by
    show 0 < (size : Int).toNat
    omega
  reader := empty_eq_after limit
  octets := rfl
  frames := rfl
  ends := rfl
  calm := rfl
  fits _ hm := absurd hm List.not_mem_nil
  replies _ hm := absurd hm List.not_mem_nil

namespace Carries

variable {limit : Nat} {stream : Bytes} {done rest : List Message} {l : Link π}

theorem overruns_eq_false (h : Carries limit stream done rest l) :
    overruns limit (stream ++ l.inbox.octets) = false := by
  rw [h.octets]
  exact overruns_joinLines (isLine_payloads _) (List.forall_mem_map.2 h.fits)

theorem lines_append_newFrames (h : Carries limit stream done rest l) :
    l.lines ++ newFrames limit stream l.inbox.octets = rest.map Message.payload := by
  have hall : framesOf limit (stream ++ l.inbox.octets) =
      done.map Message.payload ++ rest.map Message.payload := by
    rw [h.octets, framesOf_joinLines (isLine_payloads _) (List.forall_mem_map.2 h.fits),
      List.map_append]
  rw [framesOf_append_of_not (overruns_eq_false_of_append h.overruns_eq_false), h.frames,
    List.append_assoc] at hall
  exact List.append_cancel_left hall

/-- **The unread lines are those of the rest.** -/
theorem unread_eq (h : Carries limit stream done rest l) :
    l.unread = rest.map Message.payload := by
  have hover := overruns_eq_false_of_append h.overruns_eq_false
  have hremainder : overruns limit ((segments stream).2 ++ l.inbox.octets) = false := by
    rw [← overruns_append_of_not hover]
    exact h.overruns_eq_false
  rw [← h.lines_append_newFrames, newFrames, framesOf, leading_of_not hremainder, unread, h.reader,
    current_after_of_not hover, List.reverse_reverse]

/-- **The unread lines are decoded to the rest.** -/
theorem map_decoder_unread (h : Carries limit stream done rest l) :
    l.unread.map Reading.replies.decoder = rest.map .ok := by
  rw [h.unread_eq, List.map_map]
  refine List.map_congr_left fun m hm => ?_
  rw [Function.comp_apply, Reading.decoder,
    Message.decode_payload (h.replies m (List.mem_append_right _ hm))]

/-- **An answer of more replies comes behind the rest.** -/
theorem send {answer : Peer π} {p : Parcel} {bs : Bytes} {ms : List Message} {state : π}
    {calls : Journal} (h : Carries limit stream done rest l) (hp : p.frame = .ok bs)
    (hanswer : answer bs l.peer =
      ⟨.ok [.data (joinLines (ms.map Message.payload))], state, calls⟩)
    (hfits : ∀ m ∈ ms, tooLong limit m.payload = false)
    (hreplies : ∀ m ∈ ms, .replies ∈ m.readings) :
    ∃ l', l.send answer p = (.ok (), l') ∧ l'.peer = state ∧
      Carries limit stream done (rest ++ ms) l' := by
  obtain ⟨fault, hattached⟩ := h.attached
  obtain ⟨hoctets, hends, hcount⟩ :=
    Inbox.append_data h.ends (joinLines (ms.map Message.payload))
  refine ⟨⟨.attached ⟨l.inbox ++ [.data (joinLines (ms.map Message.payload))], [], fault⟩ true,
    l.reader, l.lines, l.readSize, state, calls ++ .sendAll bs :: l.journal⟩, ?_, rfl, ?_⟩
  · rw [Link.send, hattached]
    dsimp only
    rw [hp]
    dsimp only
    rw [write]
    dsimp only [List.head?_nil]
    rw [hanswer]
    rfl
  · refine ⟨⟨fault, rfl⟩, h.size, h.reader, ?_, h.frames, hends, hcount.trans h.calm, ?_, ?_⟩
    · show stream ++ Inbox.octets (l.inbox ++ _) = _
      rw [hoctets, ← List.append_assoc, h.octets, ← joinLines_append, ← List.map_append,
        List.append_assoc]
    · rw [← List.append_assoc]
      exact fun m hm => (List.mem_append.1 hm).elim (h.fits m) (hfits m)
    · rw [← List.append_assoc]
      exact fun m hm => (List.mem_append.1 hm).elim (h.replies m) (hreplies m)

/-- The first line in the queue is the first reply of the rest. -/
theorem hand_back {line : Bytes} {more : List Bytes} (h : Carries limit stream done rest l)
    (hlines : l.lines = line :: more) :
    ∃ m rest', rest = m :: rest' ∧ Reading.replies.decoder line = .ok m ∧
      Carries limit stream (done ++ [m]) rest'
        ⟨l.attachment, l.reader, more, l.readSize, l.peer, l.journal⟩ := by
  have hall := h.lines_append_newFrames
  rw [hlines, List.cons_append, eq_comm, List.map_eq_cons_iff] at hall
  obtain ⟨m, rest', rfl, rfl, -⟩ := hall
  have hm : m ∈ done ++ m :: rest' := List.mem_append_right _ List.mem_cons_self
  have hdone : done ++ [m] ++ rest' = done ++ m :: rest' := List.append_cons .. |>.symm
  refine ⟨m, rest', rfl, ?_, h.attached, h.size, h.reader, hdone ▸ h.octets, ?_, h.ends, h.calm,
    hdone ▸ h.fits, hdone ▸ h.replies⟩
  · rw [Reading.decoder, Message.decode_payload (h.replies m hm)]
  · rw [h.frames, hlines, List.map_append, List.append_assoc]
    rfl

/-- Reading takes octets from what is still to come, and puts the frames it completes into the
queue. -/
theorem filled {s : Socket} {f : Filled} {chunk : Bytes} {lines : List Bytes}
    (h : Carries limit stream done rest l) (hattached : l.attachment = .attached s true)
    (hyields : l.inbox.Yields chunk 0 f.inbox) (hreader : f.reader = after limit (stream ++ chunk))
    (hframes : framesOf limit (stream ++ chunk) = done.map Message.payload ++ lines) :
    Carries limit (stream ++ chunk) done rest (l.filled s f true lines) := by
  obtain ⟨fault, hfault⟩ := h.attached
  rw [hattached] at hfault
  cases hfault
  refine ⟨⟨fault, rfl⟩, h.size, hreader, ?_, hframes, hyields.ends.trans h.ends, ?_, h.fits,
    h.replies⟩
  · show stream ++ chunk ++ f.inbox.octets = _
    rw [List.append_assoc, ← hyields.octets, h.octets]
  · have hcount := hyields.interruptions
    rw [h.calm, Nat.zero_add] at hcount
    exact hcount.symm

/-- **A call that receives hands back the first of the rest**, and times out if and only if there is
none. -/
theorem recv (h : Carries limit stream done rest l) (wait : Wait) :
    (∃ m rest' stream', rest = m :: rest' ∧ (l.recv Reading.replies.decoder wait).1 = .ok m ∧
      Carries limit stream' (done ++ [m]) rest' (l.recv Reading.replies.decoder wait).2) ∨
    (∃ stream', rest = [] ∧ (l.recv Reading.replies.decoder wait).1 = .error (.timeout wait) ∧
      Carries limit stream' done [] (l.recv Reading.replies.decoder wait).2) := by
  obtain ⟨fault, hattached⟩ := h.attached
  cases hlines : l.lines with
  | cons line more =>
    obtain ⟨m, rest', hrest, hdecode, hcarries⟩ := h.hand_back hlines
    rw [recv_of_lines hattached hlines]
    exact .inl ⟨m, rest', stream, hrest, hdecode, hcarries⟩
  | nil =>
    have hdone : framesOf limit stream = done.map Message.payload := by
      rw [h.frames, hlines, List.append_nil]
    have hall := h.overruns_eq_false
    have hfilling := @filling limit l.readSize h.size wait stream l.inbox l.journal
    have htimeout : ∀ cause, (fill l.readSize wait (after limit stream) l.inbox l.journal).outcome =
        .failed cause → cause.interrupts = true → cause = .timeout wait :=
      fun _ => eq_timeout_of_fill h.size h.calm
    rw [recv_of_no_lines hattached hlines, h.reader]
    generalize fill l.readSize wait (after limit stream) l.inbox l.journal = f at hfilling htimeout
    obtain ⟨outcome, reader, inbox, journal⟩ := f
    cases hfilling with
    | @lines chunk _ ls hyields hne hframes =>
      obtain ⟨line, more, rfl⟩ := List.exists_cons_of_ne_nil hne
      rw [hdone] at hframes
      obtain ⟨m, rest', hrest, hdecode, hcarries⟩ :=
        (h.filled (f := ⟨_, _, inbox, journal⟩) hattached hyields rfl hframes).hand_back rfl
      exact .inl ⟨m, rest', stream ++ chunk, hrest, hdecode, hcarries⟩
    | @overflow chunk _ hyields hover hframes =>
      rw [hyields.octets, ← List.append_assoc, overruns_append hover] at hall
      cases hall
    | @interrupted chunk _ count cause hcause hyields hcount hover hframes =>
      -- Nothing interrupts, so the inbox is empty, and everything that arrives has been read.
      have hcalm := hyields.interruptions
      rw [h.calm] at hcalm
      obtain rfl : count = 0 := by omega
      obtain rfl : inbox = [] := hcount.resolve_left (by omega)
      have hcarries := h.filled (f := ⟨.failed cause, _, [], journal⟩) hattached hyields rfl
        (hframes.trans (hdone.trans (List.append_nil _).symm))
      have hnone : newFrames limit (stream ++ chunk) [] = rest.map Message.payload :=
        hcarries.lines_append_newFrames
      rw [newFrames_nil, eq_comm, List.map_eq_nil_iff] at hnone
      subst hnone
      cases htimeout cause rfl hcause
      exact .inr ⟨stream ++ chunk, rfl, rfl, hcarries⟩
    | ended hends hover hframes =>
      rw [h.ends] at hends
      cases hends

end Carries

end Link

end KeyControl
