import KeyControl.Proofs.Link.Filling
import KeyControl.Proofs.Wire.Decoding

/-!
# A link delivers every line once

A link that only receives goes through at most two stages.  While it is reading, the frames of what
it has read so far are those handed back and those queued.  Once a line was too long, or the stream
has ended, all frames have been handed back and the link stays as it is.  `Link.Stage` says this of
a link together with everything that receiving has given so far; every further call preserves it
(`Link.Stage.recv`), and so does every run of calls (`Link.Stage.recvAll`).

Interruptions, which are timeouts and failed reads, may come in between at any time.  They are left
out when the outcomes are compared with the frames of the stream in `Link.recvAll_new`, and counted
to show that the frames do arrive.
-/

namespace KeyControl

/-! ## Decoders -/

/-- The decoder that reads lines with a parser. -/
def Decoder.ofParser (parse : Bytes → Except DecodeError Message) : Decoder :=
  fun line => (parse line).mapError .undecodable

/-- The parser of the messages expected. -/
def Reading.parser (r : Reading) (line : Bytes) : Except DecodeError Message :=
  match (Payload.octets line).decode r with
  | .ok m => .ok m
  | .error (.undecodable cause) => .error cause
  | .error (.surrogates _) => .error .malformed

/-- **The decoder of the messages expected reads lines with a parser.** -/
theorem Reading.decoder_eq_ofParser (r : Reading) : r.decoder = Decoder.ofParser r.parser := by
  funext line
  rw [decoder, Decoder.ofParser, parser]
  cases h : (Payload.octets line).decode r with
  | ok m => rfl
  | error e =>
    obtain ⟨cause, rfl⟩ := Payload.undecodable_of_decode_octets h
    rfl

namespace Link

open LineBuffer

abbrev Received := Except Failure Message

/-- Whether receiving was interrupted: nothing came in time, or a read failed. -/
def interrupted : Received → Bool
  | .error cause => cause.interrupts
  | .ok _ => false

/-- Everything that receiving gave, interruptions left out. -/
def settled (outcomes : List Received) : List Received :=
  outcomes.filter (! interrupted ·)

variable {π : Type}

def recvAll (decode : Decoder) : List Wait → Link π → List Received × Link π
  | [], l => ([], l)
  | wait :: waits, l =>
    ((l.recv decode wait).1 :: ((l.recv decode wait).2.recvAll decode waits).1,
      ((l.recv decode wait).2.recvAll decode waits).2)

abbrev tooLongError (limit : Nat) : Received :=
  .error (.undecodable (.lineTooLong limit))

abbrev closedError : Received :=
  .error (.unusable .closed)

/-! ## Single outcomes -/

theorem settled_append (xs ys : List Received) : settled (xs ++ ys) = settled xs ++ settled ys :=
  List.filter_append ..

theorem settled_of_interrupted {x : Received} (h : interrupted x = true) : settled [x] = [] := by
  rw [settled, List.filter_singleton, h]
  rfl

theorem settled_of_not {x : Received} (h : interrupted x = false) : settled [x] = [x] := by
  rw [settled, List.filter_singleton, h]
  rfl

theorem interrupted_ofParser (parse : Bytes → Except DecodeError Message) (line : Bytes) :
    interrupted (Decoder.ofParser parse line) = false := by
  rw [Decoder.ofParser]
  cases parse line with
  | ok m => rfl
  | error e => rfl

theorem interrupts_endingOf (remainder : Bytes) : (endingOf remainder).interrupts = false := by
  rw [endingOf]
  split
  · rfl
  · rfl

/-! ## Stages -/

variable {parse : Bytes → Except DecodeError Message} {limit : Nat} {script : Inbox}

/-- Where a link over a script of events stands, and what receiving has given so far. -/
inductive Stage (parse : Bytes → Except DecodeError Message) (limit : Nat) (script : Inbox) :
    List Received → Link π → Prop
  /-- Part of the stream is read.  Its frames are handed back or queued.  All calls handed a frame
  back, apart from those that were interrupted, unless no frame is left. -/
  | reading {outcomes : List Received} {l : Link π} {s : Socket} (stream : Bytes)
      (done : List Bytes) (count : Nat) (hattached : l.attachment = .attached s true)
      (hreader : l.reader = after limit stream) (hyields : script.Yields stream count s.inbox)
      (hframes : framesOf limit stream = done ++ l.lines)
      (houtcomes : settled outcomes = done.map (Decoder.ofParser parse))
      (hcount : outcomes.length ≤ done.length + count ∨
        (framesOf limit script.octets).length ≤ done.length) :
      Stage parse limit script outcomes l
  /-- All frames are handed back, and the error for a line that is too long has been given. -/
  | overflowed {outcomes : List Received} {l : Link π} {s : Socket} (stream : Bytes) (count : Nat)
      (hover : overruns limit script.octets = true) (hattached : l.attachment = .attached s true)
      (hreader : l.reader = after limit stream) (hstream : overruns limit stream = true)
      (hlines : l.lines = [])
      (houtcomes : settled outcomes =
        (framesOf limit script.octets).map (Decoder.ofParser parse) ++
          List.replicate (count + 1) (tooLongError limit)) :
      Stage parse limit script outcomes l
  /-- All frames are handed back, and the end of the stream has been reported. -/
  | ended {outcomes : List Received} {l : Link π} {s : Socket} (count : Nat)
      (hover : overruns limit script.octets = false) (hends : script.ends = true)
      (hattached : l.attachment = .attached s false)
      (houtcomes : settled outcomes =
        (framesOf limit script.octets).map (Decoder.ofParser parse) ++
          .error (endingOf (segments script.octets).2) :: List.replicate count closedError) :
      Stage parse limit script outcomes l

theorem recv_of_closed {l : Link π} {s : Socket} (h : l.attachment = .attached s false)
    (decode : Decoder) (wait : Wait) : l.recv decode wait = (closedError, l) := by
  rw [recv, h]

theorem recv_of_isOpen {l : Link π} {line : Bytes} {rest : List Bytes} (hopen : l.isOpen = true)
    (hlines : l.lines = line :: rest) (decode : Decoder) (wait : Wait) :
    l.recv decode wait =
      (decode line, ⟨l.attachment, l.reader, rest, l.readSize, l.peer, l.journal⟩) := by
  obtain ⟨⟨socket, isOpen⟩, reader, lines, readSize, peer, journal⟩ := l
  obtain rfl : isOpen = true := hopen
  obtain rfl : lines = line :: rest := hlines
  rfl

theorem recv_of_lines {l : Link π} {s : Socket} {line : Bytes} {rest : List Bytes}
    (hattached : l.attachment = .attached s true) (hlines : l.lines = line :: rest)
    (decode : Decoder) (wait : Wait) :
    l.recv decode wait =
      (decode line, ⟨l.attachment, l.reader, rest, l.readSize, l.peer, l.journal⟩) :=
  recv_of_isOpen (by rw [isOpen, hattached]) hlines decode wait

/-- The link after reading until a line is complete. -/
def filled (l : Link π) (s : Socket) (f : Filled) (isOpen : Bool) (lines : List Bytes) : Link π :=
  ⟨.attached ⟨f.inbox, s.sendFaults, s.closeFault⟩ isOpen, f.reader, lines, l.readSize, l.peer,
    f.journal⟩

/-- What receiving makes of reading until a line is complete. -/
def conclude (l : Link π) (s : Socket) (decode : Decoder) (f : Filled) : Received × Link π :=
  match f.outcome with
  | .lines ls => (l.filled s f true ls).deliver decode
  | .failed cause => (.error cause, l.filled s f true [])
  | .ended cause => (.error cause, l.filled s f false [])

theorem recv_of_no_lines {l : Link π} {s : Socket} (hattached : l.attachment = .attached s true)
    (hlines : l.lines = []) (decode : Decoder) (wait : Wait) :
    l.recv decode wait =
      l.conclude s decode (fill l.readSize wait l.reader s.inbox l.journal) := by
  rw [recv, hattached]
  dsimp only
  rw [hlines, List.isEmpty_nil, if_pos rfl]
  rfl

/-- Whatever comes of reading, the link has read, and hands back or keeps what it has read. -/
theorem exists_conclude_eq (l : Link π) (s : Socket) (decode : Decoder) (f : Filled) :
    ∃ x isOpen lines, l.conclude s decode f = (x, l.filled s f isOpen lines) := by
  rw [conclude]
  split
  · next ls _ => cases ls <;> exact ⟨_, _, _, rfl⟩
  · exact ⟨_, _, _, rfl⟩
  · exact ⟨_, _, _, rfl⟩

/-- **What receiving can do**: fail and leave the link as it is, hand back the first line, or read
from the socket. -/
theorem recv_cases (l : Link π) (decode : Decoder) (wait : Wait) :
    (∃ e, l.recv decode wait = (.error e, l)) ∨
    (∃ line rest, l.isOpen = true ∧ l.lines = line :: rest ∧
      l.recv decode wait =
        (decode line, ⟨l.attachment, l.reader, rest, l.readSize, l.peer, l.journal⟩)) ∨
    ∃ s, l.attachment = .attached s true ∧ l.lines = [] ∧
      l.recv decode wait =
        l.conclude s decode (fill l.readSize wait l.reader s.inbox l.journal) := by
  rcases hattached : l.attachment with ⟨socket, isOpen⟩
  cases isOpen with
  | false =>
    refine .inl ⟨.unusable .closed, ?_⟩
    rw [recv, hattached]
  | true =>
    cases hlines : l.lines with
    | cons line rest =>
      have hopen : l.isOpen = true := by rw [isOpen, hattached]
      refine .inr (.inl ⟨line, rest, hopen, rfl, ?_⟩)
      rw [recv_of_isOpen hopen hlines, hattached]
    | nil =>
      cases socket with
      | some s => exact .inr (.inr ⟨s, rfl, rfl, recv_of_no_lines hattached hlines decode wait⟩)
      | none =>
        rw [recv, hattached]
        dsimp only
        rw [hlines, List.isEmpty_nil, if_pos rfl]
        split
        · exact .inl ⟨_, rfl⟩
        · exact .inl ⟨_, rfl⟩

theorem exists_recv_snd_eq (l : Link π) (decode : Decoder) (wait : Wait) :
    ∃ attachment reader lines journal,
      (l.recv decode wait).2 = ⟨attachment, reader, lines, l.readSize, l.peer, journal⟩ := by
  rcases l.recv_cases decode wait with ⟨e, hrecv⟩ | ⟨line, rest, -, -, hrecv⟩ | ⟨s, -, -, hrecv⟩
  · exact ⟨_, _, _, _, congrArg Prod.snd hrecv⟩
  · exact ⟨_, _, _, _, congrArg Prod.snd hrecv⟩
  · obtain ⟨x, isOpen, lines, hconclude⟩ :=
      l.exists_conclude_eq s decode (fill l.readSize wait l.reader s.inbox l.journal)
    exact ⟨_, _, _, _, congrArg Prod.snd (hrecv.trans hconclude)⟩

theorem readSize_recv (l : Link π) (decode : Decoder) (wait : Wait) :
    (l.recv decode wait).2.readSize = l.readSize := by
  obtain ⟨attachment, reader, lines, journal, h⟩ := l.exists_recv_snd_eq decode wait
  rw [h]

theorem peer_recv (l : Link π) (decode : Decoder) (wait : Wait) :
    (l.recv decode wait).2.peer = l.peer := by
  obtain ⟨attachment, reader, lines, journal, h⟩ := l.exists_recv_snd_eq decode wait
  rw [h]

/-- **The calls made in receiving** set the time to wait, and ask for as much as one read is for. -/
theorem exists_calls_recv (l : Link π) (decode : Decoder) (wait : Wait) :
    ∃ calls, (l.recv decode wait).2.journal = calls ++ l.journal ∧
      ∀ c ∈ calls, c = .setTimeout wait ∨ c = .recv l.readSize := by
  rcases l.recv_cases decode wait with ⟨e, hrecv⟩ | ⟨line, rest, -, -, hrecv⟩ | ⟨s, -, -, hrecv⟩
  · exact ⟨[], by rw [hrecv]; rfl, List.forall_mem_nil _⟩
  · exact ⟨[], by rw [hrecv]; rfl, List.forall_mem_nil _⟩
  · obtain ⟨x, isOpen, lines, hconclude⟩ :=
      l.exists_conclude_eq s decode (fill l.readSize wait l.reader s.inbox l.journal)
    rw [hrecv, hconclude]
    exact exists_calls_fill l.readSize wait l.reader s.inbox l.journal

theorem exists_journal_recv_eq (l : Link π) (decode : Decoder) (wait : Wait) :
    ∃ calls, (l.recv decode wait).2.journal = calls ++ l.journal ∧
      ∀ c ∈ calls, c.reads = true := by
  obtain ⟨calls, hjournal, hcalls⟩ := l.exists_calls_recv decode wait
  refine ⟨calls, hjournal, fun c hc => ?_⟩
  rcases hcalls c hc with rfl | rfl <;> rfl

/-- How much a link still has to read. -/
def weight (l : Link π) : Nat :=
  match l.attachment.socket with
  | some s => s.inbox.weight
  | none => 0

/-- **Receiving calls the socket only so often.** -/
theorem length_journal_recv {l : Link π} (hsize : 0 < l.readSize.toNat) (decode : Decoder)
    (wait : Wait) :
    (l.recv decode wait).2.journal.length + 2 * (l.recv decode wait).2.weight ≤
      l.journal.length + 2 * l.weight + 2 := by
  rcases l.recv_cases decode wait with ⟨e, hrecv⟩ | ⟨line, rest, -, -, hrecv⟩ |
    ⟨s, hattached, -, hrecv⟩
  · rw [hrecv]
    exact Nat.le_add_right _ 2
  · rw [hrecv]
    exact Nat.le_add_right _ 2
  · have hweight : l.weight = s.inbox.weight := by rw [weight, hattached]
    obtain ⟨x, isOpen, lines, hconclude⟩ :=
      l.exists_conclude_eq s decode (fill l.readSize wait l.reader s.inbox l.journal)
    rw [hrecv, hconclude, hweight]
    exact length_journal_fill hsize wait l.reader s.inbox l.journal

/-- A link whose reader has failed and that has no lines left reports the error, and stays as it
is: it does not touch the socket. -/
theorem recv_of_overflowed {l : Link π} {s : Socket} {stream : Bytes}
    (hattached : l.attachment = .attached s true) (hreader : l.reader = after limit stream)
    (hstream : overruns limit stream = true) (hlines : l.lines = []) (decode : Decoder)
    (wait : Wait) : l.recv decode wait = (tooLongError limit, l) := by
  have hfailed : (after limit stream).failed = true := hstream
  obtain ⟨attachment, reader, lines, readSize, peer, journal⟩ := l
  dsimp only at hattached hreader hlines
  rw [hattached, hreader, hlines, recv]
  dsimp only
  rw [List.isEmpty_nil, if_pos rfl, fill_of_failed hfailed]
  rfl

theorem recvAll_of_forall_recv {l : Link π} {decode : Decoder} {x : Received}
    (h : ∀ wait, l.recv decode wait = (x, l)) (waits : List Wait) :
    l.recvAll decode waits = (waits.map fun _ => x, l) := by
  induction waits with
  | nil => rfl
  | cons wait waits ih => rw [recvAll, h wait, ih, List.map_cons]

/-- What a script has to give behind the frames: the error for a line that is too long, at every
call; or the end of the stream once, and then that the link is closed; or nothing. -/
def finale (limit : Nat) (script : Inbox) (calls : Nat) : List Received :=
  if overruns limit script.octets then List.replicate calls (tooLongError limit)
  else if script.ends then
    .error (endingOf (segments script.octets).2) :: List.replicate calls closedError
  else []

theorem framesOf_prefix_append (limit : Nat) (stream more : Bytes) :
    framesOf limit stream <+: framesOf limit (stream ++ more) := by
  cases h : overruns limit stream with
  | true => exact framesOf_append h more ▸ List.prefix_rfl
  | false => exact ⟨_, (framesOf_append_of_not h more).symm⟩

namespace Stage

variable {outcomes : List Received} {l : Link π}

/-- What reading comes to leads a link that has handed everything back to its next stage. -/
theorem conclude {s : Socket} {stream : Bytes} {count : Nat} {f : Filled}
    (hyields : script.Yields stream count s.inbox)
    (houtcomes : settled outcomes = (framesOf limit stream).map (Decoder.ofParser parse))
    (hcount : outcomes.length ≤ (framesOf limit stream).length + count ∨
      (framesOf limit script.octets).length ≤ (framesOf limit stream).length)
    (hf : Filling limit stream s.inbox f.outcome f.reader f.inbox) (l : Link π) :
    Stage parse limit script (outcomes ++ [(l.conclude s (Decoder.ofParser parse) f).1])
      (l.conclude s (Decoder.ofParser parse) f).2 := by
  obtain ⟨outcome, reader, inbox, journal⟩ := f
  cases hf with
  | @lines chunk rest ls hy hne hframes =>
    obtain ⟨line, ls, rfl⟩ := List.exists_cons_of_ne_nil hne
    refine .reading (stream ++ chunk) (framesOf limit stream ++ [line]) _ rfl rfl
      (hyields.trans hy) ?_ ?_ ?_
    · rw [hframes, List.append_assoc]
      rfl
    · show settled (outcomes ++ [Decoder.ofParser parse line]) = _
      rw [settled_append, houtcomes, settled_of_not (interrupted_ofParser parse line),
        List.map_append, List.map_singleton]
    · rw [List.length_append, List.length_append, List.length_singleton, List.length_singleton]
      omega
  | @overflow chunk rest hy hover hframes =>
    have hall := (hyields.trans hy).octets
    refine .overflowed (stream ++ chunk) 0 ?_ rfl rfl hover rfl ?_
    · rw [hall]
      exact overruns_append hover _
    · rw [settled_append, houtcomes, hall, framesOf_append hover, hframes]
      rfl
  | @interrupted chunk rest n cause hcause hy hn hover hframes =>
    refine .reading (stream ++ chunk) (framesOf limit stream) _ rfl rfl (hyields.trans hy) ?_ ?_ ?_
    · exact hframes.trans (List.append_nil _).symm
    · have hsettled : settled [.error cause] = [] := settled_of_interrupted hcause
      show settled (outcomes ++ [.error cause]) = _
      rw [settled_append, houtcomes, hsettled, List.append_nil]
    · rw [List.length_append, List.length_singleton]
      -- The interruption counts, unless the script has run out.
      rcases hn with rfl | rfl
      · omega
      · refine .inr ?_
        rw [(hyields.trans hy).octets, Inbox.octets, List.append_nil, hframes]
  | @ended reader rest hends hover hframes =>
    have hall := hyields.octets
    rw [← hall] at hover hframes
    refine .ended 0 hover (hyields.ends ▸ hends) rfl ?_
    rw [settled_append, houtcomes, hframes, ← hall]
    exact congrArg _ (settled_of_not (interrupts_endingOf _))

/-- **Receiving once more leads from stage to stage.** -/
theorem recv (h : Stage parse limit script outcomes l) (hsize : 0 < l.readSize.toNat)
    (wait : Wait) :
    Stage parse limit script (outcomes ++ [(l.recv (Decoder.ofParser parse) wait).1])
      (l.recv (Decoder.ofParser parse) wait).2 := by
  cases h with
  | @reading s stream done count hattached hreader hyields hframes houtcomes hcount =>
    cases hlines : l.lines with
    | cons line rest =>
      have hrecv := recv_of_lines hattached hlines (Decoder.ofParser parse) wait
      rw [hrecv]
      refine .reading stream (done ++ [line]) count hattached hreader hyields ?_ ?_ ?_
      · rw [hframes, hlines, List.append_assoc, List.singleton_append]
      · rw [settled_append, houtcomes, settled_of_not (interrupted_ofParser parse line),
          List.map_append, List.map_singleton]
      · rw [List.length_append, List.length_append, List.length_singleton, List.length_singleton]
        omega
    | nil =>
      rw [hlines, List.append_nil] at hframes
      rw [recv_of_no_lines hattached hlines, hreader]
      rw [← hframes] at houtcomes hcount
      exact conclude hyields houtcomes hcount (filling hsize wait stream s.inbox l.journal) l
  | overflowed stream count hover hattached hreader hstream hlines houtcomes =>
    rw [recv_of_overflowed hattached hreader hstream hlines]
    refine .overflowed stream (count + 1) hover hattached hreader hstream hlines ?_
    rw [settled_append, houtcomes, settled_of_not rfl, List.append_assoc,
      ← List.replicate_succ']
  | ended count hover hends hattached houtcomes =>
    rw [recv_of_closed hattached]
    refine .ended (count + 1) hover hends hattached ?_
    rw [settled_append, houtcomes, settled_of_not rfl, List.append_assoc, List.cons_append,
      ← List.replicate_succ']

/-- **Every run of calls leads from stage to stage.** -/
theorem recvAll (h : Stage parse limit script outcomes l) (hsize : 0 < l.readSize.toNat)
    (waits : List Wait) :
    Stage parse limit script (outcomes ++ (l.recvAll (Decoder.ofParser parse) waits).1)
      (l.recvAll (Decoder.ofParser parse) waits).2 := by
  induction waits generalizing outcomes l with
  | nil =>
    rw [Link.recvAll, List.append_nil]
    exact h
  | cons wait waits ih =>
    have hnext := ih (h.recv hsize wait) (by rw [readSize_recv]; exact hsize)
    rw [List.append_assoc, List.singleton_append] at hnext
    exact hnext

theorem new (parse : Bytes → Except DecodeError Message) (s : Socket) (size : Int) (limit : Nat)
    (peer : π) : Stage parse limit s.inbox [] (Link.new (some s) size limit peer) := by
  have hempty : framesOf limit [] = [] := rfl
  exact .reading [] [] 0 rfl (empty_eq_after limit) (.refl s.inbox) hempty rfl
    (.inl (Nat.zero_le _))

theorem done_prefix_framesOf {stream : Bytes} {count : Nat} {rest : Inbox} {done lines : List Bytes}
    (hyields : script.Yields stream count rest) (hframes : framesOf limit stream = done ++ lines) :
    done <+: framesOf limit script.octets := by
  have hprefix := framesOf_prefix_append limit stream rest.octets
  rw [← hyields.octets, hframes] at hprefix
  exact (List.prefix_append done lines).trans hprefix

/-- **What receiving gives is the beginning of what the script has to give.** -/
theorem settled_prefix_append (h : Stage parse limit script outcomes l) {count : Nat}
    (hcount : outcomes.length ≤ count) :
    settled outcomes <+: (framesOf limit script.octets).map (Decoder.ofParser parse) ++
      finale limit script count := by
  have hlength : (settled outcomes).length ≤ count :=
    (List.length_filter_le _ outcomes).trans hcount
  cases h with
  | reading stream done n hattached hreader hyields hframes houtcomes _ =>
    rw [houtcomes]
    exact ((done_prefix_framesOf hyields hframes).map _).trans (List.prefix_append _ _)
  | overflowed stream n hover hattached hreader hstream hlines houtcomes =>
    rw [houtcomes, List.length_append, List.length_replicate] at hlength
    rw [houtcomes, finale, if_pos hover, List.prefix_append_right_inj]
    exact List.prefix_replicate_iff.2 ⟨by rw [List.length_replicate]; omega, by simp⟩
  | ended n hover hends hattached houtcomes =>
    rw [houtcomes, List.length_append, List.length_cons, List.length_replicate] at hlength
    rw [houtcomes, finale, hover, if_neg Bool.false_ne_true, if_pos hends,
      List.prefix_append_right_inj, List.cons_prefix_cons]
    refine ⟨rfl, ?_⟩
    exact List.prefix_replicate_iff.2 ⟨by rw [List.length_replicate]; omega, by simp⟩

/-- **All frames arrive**, once there were enough calls for them and for the interruptions. -/
theorem prefix_settled (h : Stage parse limit script outcomes l)
    (hcalls : (framesOf limit script.octets).length + script.interruptions ≤ outcomes.length) :
    (framesOf limit script.octets).map (Decoder.ofParser parse) <+: settled outcomes := by
  cases h with
  | reading stream done n hattached hreader hyields hframes houtcomes hcount =>
    have hprefix := done_prefix_framesOf hyields hframes
    have hn := hyields.interruptions
    have hlength : done.length = (framesOf limit script.octets).length := by
      have hle := hprefix.length_le
      omega
    rw [houtcomes]
    exact hprefix.eq_of_length hlength ▸ List.prefix_rfl
  | overflowed _ _ _ _ _ _ _ houtcomes =>
    rw [houtcomes]
    exact List.prefix_append _ _
  | ended _ _ _ _ houtcomes =>
    rw [houtcomes]
    exact List.prefix_append _ _

/-- **Behind the frames and what ends them, the link stays as it is**, and every call reports the
same. -/
theorem recvAll_eq (h : Stage parse limit script outcomes l)
    (hlength : (framesOf limit script.octets).length < (settled outcomes).length)
    (waits : List Wait) :
    l.recvAll (Decoder.ofParser parse) waits =
      (waits.map fun _ =>
        if overruns limit script.octets then tooLongError limit else closedError, l) := by
  cases h with
  | reading stream done n hattached hreader hyields hframes houtcomes _ =>
    have hle := (done_prefix_framesOf hyields hframes).length_le
    rw [houtcomes, List.length_map] at hlength
    omega
  | overflowed _ _ hover hattached hreader hstream hlines _ =>
    rw [hover, if_pos rfl]
    exact recvAll_of_forall_recv (recv_of_overflowed hattached hreader hstream hlines _) waits
  | ended _ hover _ hattached _ =>
    rw [hover, if_neg Bool.false_ne_true]
    exact recvAll_of_forall_recv (recv_of_closed hattached _) waits

end Stage

/-! ## Runs -/

theorem length_recvAll (decode : Decoder) (waits : List Wait) (l : Link π) :
    (l.recvAll decode waits).1.length = waits.length := by
  induction waits generalizing l with
  | nil => rfl
  | cons wait waits ih => rw [recvAll, List.length_cons, ih, List.length_cons]

/-- **A run of calls calls the socket only so often.** -/
theorem length_journal_recvAll (decode : Decoder) (waits : List Wait) {l : Link π}
    (hsize : 0 < l.readSize.toNat) :
    (l.recvAll decode waits).2.journal.length + 2 * (l.recvAll decode waits).2.weight ≤
      l.journal.length + 2 * l.weight + 2 * waits.length := by
  induction waits generalizing l with
  | nil => exact Nat.le_refl _
  | cons wait waits ih =>
    have hrest := ih (l := (l.recv decode wait).2) (by rw [readSize_recv]; exact hsize)
    have hfirst := length_journal_recv hsize decode wait
    rw [recvAll, List.length_cons]
    dsimp only
    omega

/-- **A link delivers every line once, in order, whatever its socket does.**  What a fresh link over
a script of events gives, interruptions left out, is the beginning of: the frames of the stream
ahead of the first line that is too long, each decoded; and then, if there is such a line, the error
for it at every call, or else, if the stream ends, its end once and from then on that the link is
closed.  The frames do arrive, once there were enough calls for them and for the interruptions.
Once the error for a line that is too long, or the end of the stream, has been given, further calls
change nothing: they do not touch the socket.  And every call ends, for the number of calls of the
socket is bounded. -/
theorem recvAll_new (parse : Bytes → Except DecodeError Message) (s : Socket) {size : Nat}
    (hsize : 1 ≤ size) (limit : Nat) (peer : π) (waits : List Wait) :
    let decode := Decoder.ofParser parse
    let frames := framesOf limit s.inbox.octets
    let result := (Link.new (some s) size limit peer).recvAll decode waits
    settled result.1 <+: frames.map decode ++ finale limit s.inbox waits.length ∧
      (frames.length + s.inbox.interruptions ≤ waits.length →
        frames.map decode <+: settled result.1) ∧
      (frames.length < (settled result.1).length → ∀ more,
        result.2.recvAll decode more =
          (more.map fun _ =>
            if overruns limit s.inbox.octets then tooLongError limit else closedError, result.2)) ∧
      result.2.journal.length ≤ 2 * (s.inbox.weight + waits.length) := by
  intro decode frames result
  have hpos : 0 < (Link.new (some s) (size : ℤ) limit peer).readSize.toNat := by
    show 0 < (size : ℤ).toNat
    omega
  have hstage := (Stage.new parse s size limit peer).recvAll hpos waits
  rw [List.nil_append] at hstage
  have hlength : result.1.length = waits.length := length_recvAll decode waits _
  refine ⟨hstage.settled_prefix_append hlength.le, fun hcalls => ?_, hstage.recvAll_eq, ?_⟩
  · exact hstage.prefix_settled (by rw [hlength]; exact hcalls)
  · have hjournal := length_journal_recvAll decode waits hpos
    have hweight : (Link.new (some s) (size : ℤ) limit peer).weight = s.inbox.weight := rfl
    have hnil : (Link.new (some s) (size : ℤ) limit peer).journal.length = 0 := rfl
    show (Link.recvAll decode waits _).2.journal.length ≤ _
    omega

/-- Two lines come in three pieces with a timeout in between, and the stream ends inside a third.
Of six calls one is interrupted; the others give the two lines, the end and twice that the link is
closed. -/
theorem recvAll_new_pieces :
    1 ≤ 2 ∧
      settled ((Link.new (some ⟨[.data [97, 10, 98], .timeout, .data [10, 99], .ended], [], none⟩)
        (2 : ℕ) (8 : ℕ) ()).recvAll (Decoder.ofParser fun _ => .error .malformed)
          (List.replicate 6 .null)).1 <+:
        [.error (.undecodable .malformed), .error (.undecodable .malformed),
          .error (.incomplete (.cutOff 1))] ++ List.replicate 6 closedError :=
  ⟨by decide, (recvAll_new (fun _ => .error .malformed)
    ⟨[.data [97, 10, 98], .timeout, .data [10, 99], .ended], [], none⟩ (by decide) 8 ()
    (List.replicate 6 .null)).1⟩

end Link

end KeyControl
