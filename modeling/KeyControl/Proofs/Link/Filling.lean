import KeyControl.Link.Basic
import KeyControl.Proofs.Link.Inbox
import KeyControl.Proofs.Wire.LineBuffer

/-!
# Reading until a line is complete

`Link.fill` reads again and again, until frames are complete, or a read is interrupted, or the
stream ends, or a line is too long.  `Link.Filling` names these four and says for each which octets
were taken from the inbox and what the reader has made of them.  The reader starts as the buffer
after some stream, and is at the end the buffer after that stream and the octets taken; nothing that
was read on the way has been lost (`Link.filling`).

The calls that are made on the way are those of reading (`Link.exists_calls_fill`), and how
often the socket is called is bounded by how much there is to read (`Link.length_journal_fill`).
-/

namespace KeyControl

/-- Whether a failure is one of a single read: nothing came in time, or the read failed. -/
def Failure.interrupts : Failure → Bool
  | timeout _ => true
  | unusable (.recvFailed _) => true
  | _ => false

/-- Whether a call is made in reading: it limits the time to wait, or reads from the socket. -/
def Call.reads : Call → Bool
  | setTimeout _ => true
  | recv _ => true
  | _ => false

namespace Link

open LineBuffer

/-- What the end of a stream is reported as, depending on the remainder. -/
def endingOf (remainder : Bytes) : Failure :=
  if remainder.blank then .unusable .closedByPeer else .incomplete (.cutOff remainder.length)

/-- What reading behind a stream comes to: the outcome, the reader and the inbox at the end. -/
inductive Filling (limit : Nat) (stream : Bytes) (inbox : Inbox) :
    Outcome → LineBuffer → Inbox → Prop
  /-- The octets taken complete frames. -/
  | lines {chunk : Bytes} {rest : Inbox} {ls : List Bytes} (hyields : inbox.Yields chunk 0 rest)
      (hne : ls ≠ []) (hframes : framesOf limit (stream ++ chunk) = framesOf limit stream ++ ls) :
      Filling limit stream inbox (.lines ls) (after limit (stream ++ chunk)) rest
  /-- The octets taken complete no frame, and a line is too long. -/
  | overflow {chunk : Bytes} {rest : Inbox} (hyields : inbox.Yields chunk 0 rest)
      (hover : overruns limit (stream ++ chunk) = true)
      (hframes : framesOf limit (stream ++ chunk) = framesOf limit stream) :
      Filling limit stream inbox (.failed (.undecodable (.lineTooLong limit)))
        (after limit (stream ++ chunk)) rest
  /-- The octets taken complete no frame, and a read is interrupted: by an event, or because
  nothing is left. -/
  | interrupted {chunk : Bytes} {rest : Inbox} {count : Nat} (cause : Failure)
      (hcause : cause.interrupts = true) (hyields : inbox.Yields chunk count rest)
      (hcount : count = 1 ∨ rest = []) (hover : overruns limit (stream ++ chunk) = false)
      (hframes : framesOf limit (stream ++ chunk) = framesOf limit stream) :
      Filling limit stream inbox (.failed cause) (after limit (stream ++ chunk)) rest
  /-- All octets there are complete no frame, and the stream ends. -/
  | ended {reader : LineBuffer} {rest : Inbox} (hends : inbox.ends = true)
      (hover : overruns limit (stream ++ inbox.octets) = false)
      (hframes : framesOf limit (stream ++ inbox.octets) = framesOf limit stream) :
      Filling limit stream inbox (.ended (endingOf (segments (stream ++ inbox.octets)).2))
        reader rest

variable {limit : Nat} {stream : Bytes}

/-- Octets that complete no frame may stand before what reading comes to. -/
theorem Filling.prepend {chunk : Bytes} {inbox mid rest : Inbox} {o : Outcome} {b : LineBuffer}
    (hyields : inbox.Yields chunk 0 mid)
    (hframes : framesOf limit (stream ++ chunk) = framesOf limit stream)
    (h : Filling limit (stream ++ chunk) mid o b rest) : Filling limit stream inbox o b rest := by
  cases h with
  | lines hy hne hf =>
    rw [List.append_assoc] at hf ⊢
    rw [hframes] at hf
    exact .lines (hyields.trans hy) hne hf
  | overflow hy hover hf =>
    rw [List.append_assoc] at hover hf ⊢
    rw [hframes] at hf
    exact .overflow (hyields.trans hy) hover hf
  | interrupted cause hcause hy hcount hover hf =>
    rw [List.append_assoc] at hover hf ⊢
    rw [hframes] at hf
    have hyields' := hyields.trans hy
    rw [Nat.zero_add] at hyields'
    exact .interrupted cause hcause hyields' hcount hover hf
  | ended hends hover hf =>
    rw [List.append_assoc, ← hyields.octets] at hover hf ⊢
    rw [hframes] at hf
    exact .ended (hyields.ends ▸ hends) hover hf

theorem Filling.of_overruns (inbox : Inbox) (h : overruns limit stream = true) :
    Filling limit stream inbox (.failed (.undecodable (.lineTooLong limit))) (after limit stream)
      inbox := by
  have hall : stream ++ [] = stream := List.append_nil stream
  have hfilling := Filling.overflow (.refl inbox) (hall.symm ▸ h) (congrArg _ hall)
  rwa [hall] at hfilling

theorem Filling.of_interrupts {inbox rest : Inbox} {count : Nat} {cause : Failure}
    (hcause : cause.interrupts = true) (hyields : inbox.Yields [] count rest)
    (hcount : count = 1 ∨ rest = []) (hover : overruns limit stream = false) :
    Filling limit stream inbox (.failed cause) (after limit stream) rest := by
  have hall : stream ++ [] = stream := List.append_nil stream
  have hfilling := Filling.interrupted cause hcause hyields hcount (hall.symm ▸ hover)
    (congrArg _ hall)
  rwa [hall] at hfilling

theorem Filling.of_ends {inbox rest : Inbox} (reader : LineBuffer) (hoctets : inbox.octets = [])
    (hends : inbox.ends = true) (hover : overruns limit stream = false) :
    Filling limit stream inbox (.ended (endingOf (segments stream).2)) reader rest := by
  have hall : stream ++ inbox.octets = stream := by rw [hoctets, List.append_nil]
  have hfilling := @Filling.ended limit stream inbox reader rest hends (hall.symm ▸ hover)
    (congrArg _ hall)
  rwa [hall] at hfilling

/-- **Reading until a line is complete loses nothing**, however often it reads. -/
theorem filling {size : Int} (hsize : 0 < size.toNat) (wait : Wait) (stream : Bytes)
    (inbox : Inbox) (journal : Journal) :
    let f := fill size wait (after limit stream) inbox journal
    Filling limit stream inbox f.outcome f.reader f.inbox := by
  intro f
  have hf : f = fill size wait (after limit stream) inbox journal := rfl
  rw [fill] at hf
  cases hover : overruns limit stream with
  | true =>
    have hfailed : (after limit stream).failed = true := hover
    rw [if_pos hfailed] at hf
    rw [hf]
    exact .of_overruns inbox hover
  | false =>
    have hfailed : ¬ (after limit stream).failed = true := by
      rw [Bool.not_eq_true]
      exact hover
    have hexplains := Inbox.receive_explains hsize inbox
    rw [if_neg hfailed] at hf
    split at hf
    next count read rest hread =>
    rw [hread] at hexplains
    cases read with
    | timeout =>
      obtain ⟨count, hyields, hcount⟩ :
          ∃ count, inbox.Yields [] count rest ∧ (count = 1 ∨ rest = []) := by
        rcases hexplains with h | ⟨h, hrest⟩
        · exact ⟨1, h, .inl rfl⟩
        · exact ⟨0, h, .inr hrest⟩
      rw [hf]
      exact .of_interrupts rfl hyields hcount hover
    | failed text =>
      rw [hf]
      exact .of_interrupts rfl hexplains (.inl rfl) hover
    | ended =>
      obtain ⟨hoctets, hends⟩ := hexplains
      have h : Filling limit stream inbox _ _ rest :=
        .of_ends (after limit stream).close.1 hoctets hends hover
      rw [endingOf] at h
      rw [hf]
      dsimp only
      rw [close_after hover]
      cases hblank : (segments stream).2.blank with
      | true =>
        rw [hblank] at h
        exact h
      | false =>
        rw [hblank] at h
        exact h
    | octets bs =>
      -- Only here may reading go on: behind a longer stream, and with less in the inbox.
      obtain ⟨hne, hyields⟩ := hexplains
      obtain ⟨b, bs, rfl⟩ := List.exists_cons_of_ne_nil hne
      have hframes := framesOf_append_of_not hover (b :: bs)
      dsimp only at hf
      rw [feed_after hover, feedResult] at hf
      cases hnew : newFrames limit stream (b :: bs) with
      | cons l ls =>
        rw [hnew] at hf hframes
        rw [List.isEmpty_cons, Bool.and_false, if_neg Bool.false_ne_true] at hf
        rw [hf]
        exact .lines hyields (List.cons_ne_nil l ls) hframes
      | nil =>
        rw [hnew, List.append_nil] at hframes
        rw [hnew, List.isEmpty_nil, Bool.and_true] at hf
        cases hover' : overruns limit (stream ++ b :: bs) with
        | true =>
          rw [hover', if_pos rfl] at hf
          rw [hf]
          exact .overflow hyields hover' hframes
        | false =>
          rw [hover', if_neg Bool.false_ne_true] at hf
          rw [hf]
          exact (filling hsize wait (stream ++ b :: bs) rest _).prepend hyields hframes
termination_by inbox.weight
decreasing_by exact Inbox.weight_lt_of_receive hread

theorem fill_of_failed {reader : LineBuffer} (h : reader.failed = true) (size : Int) (wait : Wait)
    (inbox : Inbox) (journal : Journal) :
    fill size wait reader inbox journal =
      ⟨.failed (.undecodable reader.overflow), reader, inbox, journal⟩ := by
  rw [fill, if_pos h]

/-- **Reading until a line is complete only reads**: each call that it makes sets the time to wait,
or asks for as much as one read is for. -/
theorem exists_calls_fill (size : Int) (wait : Wait) (reader : LineBuffer) (inbox : Inbox)
    (journal : Journal) :
    ∃ calls, (fill size wait reader inbox journal).journal = calls ++ journal ∧
      ∀ c ∈ calls, c = .setTimeout wait ∨ c = .recv size := by
  rw [fill]
  split
  · exact ⟨[], rfl, List.forall_mem_nil _⟩
  · split
    next count read rest hread =>
    have hcalls : ∃ calls,
        List.replicate count (Call.recv size) ++ .setTimeout wait :: journal = calls ++ journal ∧
          ∀ c ∈ calls, c = .setTimeout wait ∨ c = .recv size := by
      refine ⟨List.replicate count (.recv size) ++ [.setTimeout wait], List.append_cons .., ?_⟩
      exact List.forall_mem_append.2 ⟨fun c hc => .inr (List.eq_of_mem_replicate hc),
        List.forall_mem_singleton.2 (.inl rfl)⟩
    cases read with
    | timeout => exact hcalls
    | failed text => exact hcalls
    | ended =>
      dsimp only
      split <;> exact hcalls
    | octets bs =>
      cases bs with
      | nil =>
        dsimp only
        split <;> exact hcalls
      | cons b bs =>
        dsimp only
        split
        · next reader' _ =>
          obtain ⟨before, hbefore, hreads⟩ := hcalls
          obtain ⟨calls, hjournal, hcalls⟩ := exists_calls_fill size wait reader' rest
            (List.replicate count (.recv size) ++ .setTimeout wait :: journal)
          refine ⟨calls ++ before, ?_, List.forall_mem_append.2 ⟨hcalls, hreads⟩⟩
          rw [hjournal, hbefore, List.append_assoc]
        · exact hcalls
        · exact hcalls
termination_by inbox.weight
decreasing_by exact Inbox.weight_lt_of_receive hread

/-- **Reading until a line is complete calls the socket only so often**: at most twice for every
event and octet that it takes, and twice more. -/
theorem length_journal_fill {size : Int} (hsize : 0 < size.toNat) (wait : Wait)
    (reader : LineBuffer) (inbox : Inbox) (journal : Journal) :
    let f := fill size wait reader inbox journal
    f.journal.length + 2 * f.inbox.weight ≤ journal.length + 2 * inbox.weight + 2 := by
  intro f
  have hf : f = fill size wait reader inbox journal := rfl
  cases hfailed : reader.failed with
  | true =>
    rw [fill_of_failed hfailed] at hf
    rw [hf]
    exact Nat.le_add_right _ 2
  | false =>
    rw [fill, hfailed, if_neg Bool.false_ne_true] at hf
    obtain ⟨hone, hall, hoctets⟩ := Inbox.receive_count hsize inbox
    split at hf
    next count read rest hread =>
    rw [hread] at hone hall hoctets
    dsimp only at hone hall hoctets
    have hlen : (List.replicate count (Call.recv size) ++ .setTimeout wait :: journal).length =
        count + 1 + journal.length := by
      rw [List.length_append, List.length_replicate, List.length_cons]
      omega
    -- A read that goes on takes as much as it calls; one that does not may fall short by one.
    have hlast : (List.replicate count (Call.recv size) ++ .setTimeout wait :: journal).length +
        2 * rest.weight ≤ journal.length + 2 * inbox.weight + 2 := by
      omega
    cases read with
    | timeout =>
      rw [hf]
      exact hlast
    | failed text =>
      rw [hf]
      exact hlast
    | ended =>
      dsimp only at hf
      split at hf
      · rw [hf]
        exact hlast
      · rw [hf]
        exact hlast
    | octets bs =>
      have htaken := hoctets bs rfl
      cases bs with
      | nil =>
        dsimp only at hf
        split at hf
        · rw [hf]
          exact hlast
        · rw [hf]
          exact hlast
      | cons b bs =>
        dsimp only at hf
        split at hf
        · next reader' _ =>
          have hrest := length_journal_fill hsize wait reader' rest
            (List.replicate count (Call.recv size) ++ .setTimeout wait :: journal)
          rw [hf]
          dsimp only at hrest
          omega
        · rw [hf]
          exact hlast
        · rw [hf]
          exact hlast
termination_by inbox.weight
decreasing_by exact Inbox.weight_lt_of_receive hread

end Link

end KeyControl
