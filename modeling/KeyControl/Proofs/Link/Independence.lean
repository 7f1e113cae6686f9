import KeyControl.Proofs.Link.Lifecycle

/-!
# Sending and receiving do not disturb each other

Everything but sending goes by one part of a link: whether it is open, what its socket has in store,
the lines that are being read or have been read, and the calls that were made in reading.  This part
is the *view* of the link (`Link.View`).  Two lemmas carry the whole argument.  Sending does not
touch the view (`Link.view_send`), as long as the other side answers with nothing to read
(`Peer.Mute`), whatever else comes of it.  And the other uses give the same, and lead to the same
view, from any two links with the same view (`Link.use_congr`).

So a run with some sends in it is, seen from the other uses, the run without them
(`Link.seen_trace`).  What is written, on the other hand, is decided by the sends: each one made
while the link is open, of a parcel that can be encoded, writes the frame of that parcel, and
nothing else is written (`Link.written_run`).  `Link.sends_apart` puts this together for links over
a socket and over none.
-/

namespace KeyControl

/-- The other side of a socket answers with nothing to read, and makes no call of the socket.  What
is written to it may still fail. -/
structure Peer.Mute {π : Type} (answer : Peer π) : Prop where
  unheard : ∀ bs state events, (answer bs state).outcome = .ok events → events = []
  keepsOff : answer.KeepsOff

theorem Peer.mute_silent : Peer.silent.Mute where
  unheard _ _ _ h := (Except.ok.inj h).symm
  keepsOff _ _ := List.forall_mem_nil _

/-- The octets that a call writes. -/
def Call.written? : Call → Option Bytes
  | sendAll bs => some bs
  | _ => none

theorem Call.reads_eq_false {c : Call} (h : c.onSocket = false) : c.reads = false := by
  cases c with
  | setTimeout _ | recv _ => cases h
  | _ => rfl

theorem Call.written?_eq_none {c : Call} (h : c.onSocket = false) : c.written? = none := by
  cases c with
  | sendAll _ => cases h
  | _ => rfl

theorem Call.written?_of_reads {c : Call} (h : c.reads = true) : c.written? = none := by
  cases c with
  | sendAll _ => cases h
  | _ => rfl

/-- What has been written, oldest first. -/
def Journal.written (j : Journal) : List Bytes :=
  j.reverse.filterMap Call.written?

theorem Journal.written_append {calls : List Call} (h : ∀ c ∈ calls, c.written? = none)
    (j : Journal) : written (calls ++ j) = j.written := by
  have hcalls : calls.reverse.filterMap Call.written? = [] :=
    List.filterMap_eq_nil_iff.2 fun c hc => h c (List.mem_reverse.1 hc)
  rw [written, List.reverse_append, List.filterMap_append, hcalls, List.append_nil, written]

theorem Journal.written_sendAll (bs : Bytes) (j : Journal) :
    written (.sendAll bs :: j) = j.written ++ [bs] := by
  rw [written, List.reverse_cons, List.filterMap_append, written]
  rfl

namespace Link

variable {π : Type}

namespace Use

/-- Whether a use is sending. -/
def isSend : Use → Bool
  | send _ => true
  | _ => false

/-- The frame that a use has to write: that of the parcel to be sent, if the link is open and the
parcel can be encoded. -/
def frame? (isOpen : Bool) : Use → Option Bytes
  | send p => if isOpen then p.frame.toOption else none
  | _ => none

end Use

/-! ## The view of a link -/

/-- What the uses other than sending go by. -/
structure View where
  isOpen : Bool
  /-- What the socket has in store, if there is one. -/
  inbox : Option Inbox
  reader : LineBuffer
  lines : List Bytes
  readSize : Int
  /-- The calls made in reading, newest first. -/
  reads : Journal

def view (l : Link π) : View where
  isOpen := l.isOpen
  inbox := l.attachment.socket.map Socket.inbox
  reader := l.reader
  lines := l.lines
  readSize := l.readSize
  reads := l.journal.filter Call.reads

/-! ## Sending -/

section Send

variable {answer : Peer π} (hanswer : answer.Mute)

include hanswer

/-- **What writing can do**: it is entered as a call, and changes the other side and the faults that
are still to come. -/
theorem exists_write_snd_eq (bs : Bytes) (s : Socket) (l : Link π) :
    ∃ faults peer calls,
      (l.write answer bs s).2 =
        ⟨.attached ⟨s.inbox, faults, s.closeFault⟩ true, l.reader, l.lines, l.readSize, peer,
          calls ++ .sendAll bs :: l.journal⟩ ∧
      ∀ c ∈ calls, c.onSocket = false := by
  obtain ⟨inbox, faults, peer, calls, hwrite, hinbox, hcalls⟩ :=
    l.exists_write_eq hanswer.keepsOff bs s
  rcases hinbox with rfl | ⟨events, hevents, rfl⟩
  · exact ⟨faults, peer, calls, hwrite, hcalls⟩
  · rw [hanswer.unheard _ _ _ hevents, List.append_nil] at hwrite
    exact ⟨faults, peer, calls, hwrite, hcalls⟩

theorem view_write {l : Link π} {s : Socket} (hattached : l.attachment = .attached s true)
    (bs : Bytes) : (l.write answer bs s).2.view = l.view := by
  obtain ⟨faults, peer, calls, hwrite, hcalls⟩ := exists_write_snd_eq hanswer bs s l
  have hreads : (calls ++ .sendAll bs :: l.journal).filter Call.reads =
      l.journal.filter Call.reads := by
    have hnil : calls.filter Call.reads = [] := List.filter_eq_nil_iff.2 fun c hc => by
      rw [Call.reads_eq_false (hcalls c hc)]
      exact Bool.false_ne_true
    rw [List.filter_append, hnil, List.nil_append]
    exact List.filter_cons_of_neg Bool.false_ne_true
  rw [hwrite, view, view, isOpen, isOpen, hattached, hreads]
  rfl

/-- **Sending does not change the view**, whether or not anything is sent. -/
theorem view_send (p : Parcel) (l : Link π) : (l.send answer p).2.view = l.view := by
  rw [send]
  split
  · rfl
  · next socket hattachment =>
    split
    · rfl
    · next bs _ =>
      cases socket with
      | some s => exact view_write hanswer hattachment bs
      | none => rfl

end Send

theorem send_of_not_isOpen {l : Link π} (h : l.isOpen = false) (answer : Peer π) (p : Parcel) :
    l.send answer p = (.error (.unusable .closed), l) := by
  obtain ⟨⟨socket, isOpen⟩, reader, lines, readSize, peer, journal⟩ := l
  obtain rfl : isOpen = false := h
  rfl

theorem send_of_frame_error {l : Link π} (h : l.isOpen = true) (answer : Peer π) {p : Parcel}
    {e : EncodeError} (hp : p.frame = .error e) :
    l.send answer p = (.error (.unencodable e), l) := by
  obtain ⟨⟨socket, isOpen⟩, reader, lines, readSize, peer, journal⟩ := l
  obtain rfl : isOpen = true := h
  rw [send, hp]

/-! ## The other uses -/

/-- What reading comes to if more calls were made before it. -/
def Filled.behind (f : Filled) (journal : Journal) : Filled :=
  ⟨f.outcome, f.reader, f.inbox, f.journal ++ journal⟩

theorem Filled.behind_append (f : Filled) (calls journal : Journal) :
    f.behind (calls ++ journal) = (f.behind calls).behind journal :=
  congrArg (Filled.mk f.outcome f.reader f.inbox) (List.append_assoc ..).symm

/-- **Reading does not depend on the calls that were made before.** -/
theorem fill_eq_behind (size : Int) (wait : Wait) (reader : LineBuffer) (inbox : Inbox)
    (journal : Journal) :
    fill size wait reader inbox journal = (fill size wait reader inbox []).behind journal := by
  cases hfailed : reader.failed with
  | true =>
    rw [fill_of_failed hfailed, fill_of_failed hfailed]
    rfl
  | false =>
    have hopen : ¬ reader.failed = true := by
      rw [hfailed]
      exact Bool.false_ne_true
    rw [fill.eq_def size wait reader inbox journal, fill.eq_def size wait reader inbox [],
      if_neg hopen, if_neg hopen]
    split
    next count read rest hread =>
    have hcalls : List.replicate count (Call.recv size) ++ .setTimeout wait :: journal =
        (List.replicate count (.recv size) ++ [.setTimeout wait]) ++ journal :=
      List.append_cons ..
    dsimp only
    rw [hcalls]
    cases read with
    | timeout => rfl
    | failed text => rfl
    | ended =>
      dsimp only
      split <;> rfl
    | octets bs =>
      cases bs with
      | nil =>
        dsimp only
        split <;> rfl
      | cons b bs =>
        dsimp only
        split
        · next reader' _ =>
          rw [fill_eq_behind size wait reader' rest (_ ++ journal), Filled.behind_append,
            ← fill_eq_behind]
        · rfl
        · rfl
termination_by inbox.weight
decreasing_by all_goals exact Inbox.weight_lt_of_receive hread

theorem recv_of_not_isOpen {l : Link π} (h : l.isOpen = false) (decode : Decoder) (wait : Wait) :
    l.recv decode wait = (closedError, l) := by
  obtain ⟨⟨socket, isOpen⟩, reader, lines, readSize, peer, journal⟩ := l
  obtain rfl : isOpen = false := h
  rfl

theorem recv_of_missing {l : Link π} (hopen : l.isOpen = true) (hlines : l.lines = [])
    (hsocket : l.attachment.socket = none) (decode : Decoder) (wait : Wait) :
    l.recv decode wait =
      (if l.reader.failed then .error (.undecodable l.reader.overflow)
        else .error (missing "settimeout"), l) := by
  obtain ⟨⟨socket, isOpen⟩, reader, lines, readSize, peer, journal⟩ := l
  obtain rfl : isOpen = true := hopen
  obtain rfl : lines = [] := hlines
  obtain rfl : socket = none := hsocket
  rw [recv]
  dsimp only
  rw [List.isEmpty_nil, if_pos rfl]
  split
  · rfl
  · rfl

namespace View

def closed (v : View) : View where
  isOpen := false
  inbox := none
  reader := if v.inbox.isSome then .empty v.reader.limit else v.reader
  lines := []
  readSize := v.readSize
  reads := v.reads

end View

theorem view_close (l : Link π) : l.close.view = l.view.closed := by
  obtain ⟨⟨socket, isOpen⟩, reader, lines, readSize, peer, journal⟩ := l
  cases socket with
  | none => rfl
  | some s =>
    rw [close]
    dsimp only
    split <;> rfl

/-- Two results are alike if they give the same and lead to the same view. -/
structure Alike {α : Type} (x y : α × Link π) : Prop where
  result : x.1 = y.1
  view : x.2.view = y.2.view

section Others

variable {l l' : Link π} (h : l.view = l'.view)

include h

theorem isOpen_congr : l.isOpen = l'.isOpen :=
  congrArg View.isOpen h

theorem lines_congr : l.lines = l'.lines :=
  congrArg View.lines h

theorem reader_congr : l.reader = l'.reader :=
  congrArg View.reader h

/-- Links with the same view have sockets with the same in store, or none of them has a socket. -/
theorem socket_congr :
    (l.attachment.socket = none ∧ l'.attachment.socket = none) ∨
      ∃ s s', l.attachment.socket = some s ∧ l'.attachment.socket = some s' ∧
        s.inbox = s'.inbox := by
  have hinbox : l.attachment.socket.map Socket.inbox = l'.attachment.socket.map Socket.inbox :=
    congrArg View.inbox h
  cases hs : l.attachment.socket with
  | none =>
    rw [hs] at hinbox
    exact .inl ⟨rfl, Option.map_eq_none_iff.1 hinbox.symm⟩
  | some s =>
    rw [hs] at hinbox
    obtain ⟨s', hs', hsame⟩ := Option.map_eq_some_iff.1 hinbox.symm
    exact .inr ⟨s, s', rfl, hs', hsame.symm⟩

/-- What is made of reading is alike from links with the same view. -/
theorem conclude_congr (s s' : Socket) (decode : Decoder) (f : Filled) :
    Alike (l.conclude s decode (f.behind l.journal))
      (l'.conclude s' decode (f.behind l'.journal)) := by
  have hreads : l.journal.filter Call.reads = l'.journal.filter Call.reads :=
    congrArg View.reads h
  have hsize : l.readSize = l'.readSize := congrArg View.readSize h
  have hview : ∀ isOpen lines, (l.filled s (f.behind l.journal) isOpen lines).view =
      (l'.filled s' (f.behind l'.journal) isOpen lines).view := by
    intro isOpen lines
    show View.mk _ _ _ _ l.readSize ((f.journal ++ l.journal).filter _) =
      View.mk _ _ _ _ l'.readSize ((f.journal ++ l'.journal).filter _)
    rw [List.filter_append, List.filter_append, hreads, hsize]
    rfl
  obtain ⟨outcome, reader, inbox, journal⟩ := f
  cases outcome with
  | lines ls =>
    cases ls with
    | nil => exact ⟨rfl, hview true []⟩
    | cons line rest => exact ⟨rfl, hview true rest⟩
  | failed cause => exact ⟨rfl, hview true []⟩
  | ended cause => exact ⟨rfl, hview false []⟩

/-- **Receiving is alike from links with the same view.** -/
theorem recv_congr (decode : Decoder) (wait : Wait) :
    Alike (l.recv decode wait) (l'.recv decode wait) := by
  have hopen := isOpen_congr h
  have hlines := lines_congr h
  cases hl : l.isOpen with
  | false =>
    rw [recv_of_not_isOpen hl, recv_of_not_isOpen (hopen ▸ hl)]
    exact ⟨rfl, h⟩
  | true =>
    rw [hl] at hopen
    cases hls : l.lines with
    | cons line rest =>
      rw [recv_of_isOpen hl hls, recv_of_isOpen hopen.symm (hlines ▸ hls)]
      exact ⟨rfl, congrArg (fun v => { v with lines := rest }) h⟩
    | nil =>
      rw [hls] at hlines
      rcases socket_congr h with ⟨hs, hs'⟩ | ⟨s, s', hs, hs', hinbox⟩
      · rw [recv_of_missing hl hls hs, recv_of_missing hopen.symm hlines.symm hs', reader_congr h]
        exact ⟨rfl, h⟩
      · have hattached : l.attachment = .attached s true := Attachment.mk.injEq .. ▸ ⟨hs, hl⟩
        have hattached' : l'.attachment = .attached s' true :=
          Attachment.mk.injEq .. ▸ ⟨hs', hopen.symm⟩
        have hsize : l.readSize = l'.readSize := congrArg View.readSize h
        rw [recv_of_no_lines hattached hls, recv_of_no_lines hattached' hlines.symm,
          fill_eq_behind _ _ _ _ l.journal, fill_eq_behind _ _ _ _ l'.journal, hinbox,
          reader_congr h, hsize]
        exact conclude_congr h s s' decode _

theorem reopen_congr : Alike l.reopen l'.reopen := by
  rw [reopen, reopen]
  rcases socket_congr h with ⟨hs, hs'⟩ | ⟨s, s', hs, hs', -⟩
  · rw [hs, hs']
    exact ⟨rfl, h⟩
  · have hview := congrArg (fun v => { v with isOpen := true }) h
    rw [view, view, hs, hs'] at hview
    rw [hs, hs']
    exact ⟨rfl, hview⟩

/-- **All uses but sending are alike from links with the same view.** -/
theorem use_congr (answer : Peer π) (decode : Decoder) {u : Use} (hu : u.isSend = false) :
    Alike (l.use answer decode u) (l'.use answer decode u) := by
  cases u with
  | send p => cases hu
  | recv wait =>
    have hrecv := recv_congr h decode wait
    exact ⟨congrArg (Except.map some) hrecv.result, hrecv.view⟩
  | reopen =>
    have hreopen := reopen_congr h
    exact ⟨congrArg (Except.map fun _ => none) hreopen.result, hreopen.view⟩
  | close => exact ⟨rfl, by rw [use, use, view_close, view_close, h]⟩

end Others

/-! ## Runs -/

/-- A use of a link, with the link before and after it, and what it gave. -/
structure Transition (π : Type) where
  use : Use
  before : Link π
  result : Use.Result
  after : Link π

namespace Transition

/-- What is seen of a transition: the use, what it gave, and the views. -/
def seen (t : Transition π) : Use × View × Use.Result × View :=
  (t.use, t.before.view, t.result, t.after.view)

/-- The frame that a transition has to write. -/
def frame? (t : Transition π) : Option Bytes :=
  t.use.frame? t.before.isOpen

end Transition

def trace (answer : Peer π) (decode : Decoder) : List Use → Link π → List (Transition π)
  | [], _ => []
  | u :: us, l =>
    ⟨u, l, (l.use answer decode u).1, (l.use answer decode u).2⟩ ::
      trace answer decode us (l.use answer decode u).2

/-- **A run is seen as the run without its sends**, from links with the same view. -/
theorem seen_trace {answer : Peer π} (hanswer : answer.Mute) (decode : Decoder) (us : List Use)
    {l l' : Link π} (h : l.view = l'.view) :
    ((trace answer decode us l).filter fun t => ! t.use.isSend).map Transition.seen =
      (trace answer decode (us.filter fun u => ! u.isSend) l').map Transition.seen := by
  induction us generalizing l l' with
  | nil => rfl
  | cons u us ih =>
    cases hu : u.isSend with
    | true =>
      obtain ⟨p, rfl⟩ : ∃ p, u = .send p := by
        cases u with
        | send p => exact ⟨p, rfl⟩
        | _ => cases hu
      have hview : (l.use answer decode (.send p)).2.view = l'.view :=
        (view_send hanswer p l).trans h
      rw [trace, List.filter_cons_of_neg (by simp [Use.isSend]),
        List.filter_cons_of_neg (by simp [Use.isSend])]
      exact ih hview
    | false =>
      have halike := use_congr h answer decode hu
      rw [trace, List.filter_cons_of_pos (by simp [hu]), List.filter_cons_of_pos (by simp [hu]),
        trace, List.map_cons, List.map_cons, ih halike.view]
      rw [Transition.seen, Transition.seen, h, halike.result, halike.view]

/-! ## What is written -/

theorem inUse_or_retired_use {answer : Peer π} (hanswer : answer.KeepsOff) (decode : Decoder)
    (u : Use) {l : Link π} (h : InUse l ∨ Retired l) :
    InUse (l.use answer decode u).2 ∨ Retired (l.use answer decode u).2 := by
  rcases h with h | h
  · by_cases hu : u = .close
    · subst hu
      exact .inr h.close.1
    · exact .inl (h.use hanswer decode hu)
  · rw [h.use answer decode u]
    exact .inr h

theorem exists_attachment_eq {l : Link π} (h : InUse l ∨ Retired l) (hopen : l.isOpen = true) :
    ∃ s, l.attachment = .attached s true := by
  rcases h with h | h
  · obtain ⟨s, hs⟩ := Option.isSome_iff_exists.1 h.attached
    exact ⟨s, Attachment.mk.injEq .. ▸ ⟨hs, hopen⟩⟩
  · rw [h.isOpen_eq_false] at hopen
    cases hopen

theorem written_send {answer : Peer π} (hanswer : answer.Mute) {l : Link π} {s : Socket}
    (hattached : l.attachment = .attached s true) {p : Parcel} {bs : Bytes}
    (hp : p.frame = .ok bs) :
    (l.send answer p).2.journal.written = l.journal.written ++ [bs] := by
  obtain ⟨faults, peer, calls, hwrite, hcalls⟩ := exists_write_snd_eq hanswer bs s l
  have hsend : l.send answer p = l.write answer bs s := by
    rw [send, hattached, hp]
  rw [hsend, hwrite, Journal.written_append fun c hc => Call.written?_eq_none (hcalls c hc),
    Journal.written_sendAll]

/-- **A use writes the frame that it has to**, and nothing else. -/
theorem written_use {answer : Peer π} (hanswer : answer.Mute) (decode : Decoder) (u : Use)
    {l : Link π} (h : InUse l ∨ Retired l) :
    (l.use answer decode u).2.journal.written =
      l.journal.written ++ (u.frame? l.isOpen).toList := by
  cases u with
  | send p =>
    show (l.send answer p).2.journal.written = _
    rw [Use.frame?]
    cases hopen : l.isOpen with
    | false =>
      rw [send_of_not_isOpen hopen]
      exact (List.append_nil _).symm
    | true =>
      obtain ⟨s, hattached⟩ := exists_attachment_eq h hopen
      cases hp : p.frame with
      | error e =>
        rw [send_of_frame_error hopen answer hp]
        exact (List.append_nil _).symm
      | ok bs =>
        rw [written_send hanswer hattached hp]
        rfl
  | recv wait =>
    obtain ⟨calls, hjournal, hreads⟩ := l.exists_journal_recv_eq decode wait
    show (l.recv decode wait).2.journal.written = l.journal.written ++ []
    rw [hjournal, Journal.written_append fun c hc => Call.written?_of_reads (hreads c hc),
      List.append_nil]
  | reopen =>
    show l.reopen.2.journal.written = l.journal.written ++ []
    rw [reopen, List.append_nil]
    split <;> rfl
  | close =>
    show l.close.journal.written = l.journal.written ++ []
    have hclose : Journal.written (.close :: l.journal) = l.journal.written :=
      Journal.written_append (List.forall_mem_singleton.2 rfl) l.journal
    rw [close, List.append_nil]
    split
    · rfl
    · split <;> exact hclose

/-- **A run writes the frames that its transitions have to write**, in order. -/
theorem written_run {answer : Peer π} (hanswer : answer.Mute) (decode : Decoder) (us : List Use)
    {l : Link π} (h : InUse l ∨ Retired l) :
    (run answer decode us l).2.journal.written =
      l.journal.written ++ (trace answer decode us l).filterMap Transition.frame? := by
  induction us generalizing l with
  | nil => exact (List.append_nil _).symm
  | cons u us ih =>
    have huse := written_use hanswer decode u h
    rw [run, trace, List.filterMap_cons]
    dsimp only
    rw [ih (inUse_or_retired_use hanswer.keepsOff decode u h), huse, List.append_assoc,
      Transition.frame?]
    cases u.frame? l.isOpen with
    | none => rfl
    | some bs => rfl

theorem use_of_mem_trace {answer : Peer π} {decode : Decoder} {us : List Use} {l : Link π}
    {t : Transition π} (h : t ∈ trace answer decode us l) :
    t.before.use answer decode t.use = (t.result, t.after) := by
  induction us generalizing l with
  | nil => cases h
  | cons u us ih =>
    rcases List.mem_cons.1 h with rfl | h
    · rfl
    · exact ih h

/-- **Sending and receiving do not disturb each other.**  Take a link over a socket or over none,
whatever happens on the socket, and use it in any way.  Each use but sending gives the same as in
the run without the sends, and goes from the same view to the same view: it finds the same in store
and leaves the same pending.  What is written are the frames of the parcels sent while the link was
open, as far as these can be encoded, each once and in order.  And a send does not change the view,
whatever comes of it; if the link is closed, or the parcel cannot be encoded, this is the error, and
the link stays as it is, so that no call is made. -/
theorem sends_apart {answer : Peer π} (hanswer : answer.Mute) (decode : Decoder)
    (socket : Option Socket) (readSize limit : Int) (peer : π) (us : List Use) :
    let l := new socket readSize limit peer
    let steps := trace answer decode us l
    (steps.filter fun t => ! t.use.isSend).map Transition.seen =
        (trace answer decode (us.filter fun u => ! u.isSend) l).map Transition.seen ∧
      (run answer decode us l).2.journal.written = steps.filterMap Transition.frame? ∧
      ∀ t ∈ steps, ∀ p, t.use = .send p →
        t.after.view = t.before.view ∧
        (t.before.isOpen = false → t.result = .error (.unusable .closed) ∧ t.after = t.before) ∧
        (t.before.isOpen = true → ∀ e, p.frame = .error e →
          t.result = .error (.unencodable e) ∧ t.after = t.before) := by
  intro l steps
  have hnew : InUse l ∨ Retired l := by
    cases socket with
    | none => exact .inr ⟨rfl, rfl, rfl⟩
    | some s => exact .inl ⟨rfl, List.not_mem_nil⟩
  have hwritten : l.journal.written = [] := rfl
  refine ⟨seen_trace hanswer decode us rfl, ?_, fun t ht p hp => ?_⟩
  · rw [written_run hanswer decode us hnew, hwritten, List.nil_append]
  · have huse := use_of_mem_trace ht
    rw [hp, use, Prod.mk.injEq] at huse
    obtain ⟨hresult, hafter⟩ := huse
    refine ⟨hafter ▸ view_send hanswer p t.before, fun hclosed => ?_, fun hopen e he => ?_⟩
    · rw [send_of_not_isOpen hclosed] at hresult hafter
      exact ⟨hresult.symm, hafter.symm⟩
    · rw [send_of_frame_error hopen answer he] at hresult hafter
      exact ⟨hresult.symm, hafter.symm⟩

/-- Between two reads, a message is sent, then something that is none, and then a message whose
write fails: the reads give what two reads alone give. -/
theorem sends_apart_faulty :
    let s : Socket :=
      ⟨[.data [123, 125, 10, 123], .ended], [none, some (Text.ofString "broken pipe")], none⟩
    let l := new (some s) 4096 0 ()
    let sends := [Use.send (.message (.ack .ok)), .send (.value .null), .send (.message (.ack .ok))]
    let frame := Message.payload (.ack .ok) ++ [newline]
    Peer.silent.Mute ∧
      ((trace Peer.silent Reading.replies.decoder (.recv .null :: sends ++ [.recv .null]) l).filter
          fun t => ! t.use.isSend).map Transition.seen =
        (trace Peer.silent Reading.replies.decoder [.recv .null, .recv .null] l).map
          Transition.seen ∧
      (run Peer.silent Reading.replies.decoder sends l).2.journal.written = [frame, frame] := by
  intro s l sends frame
  obtain ⟨hseen, -, -⟩ := sends_apart Peer.mute_silent Reading.replies.decoder (some s) 4096 0 ()
    (.recv .null :: sends ++ [.recv .null])
  obtain ⟨-, hwritten, -⟩ :=
    sends_apart Peer.mute_silent Reading.replies.decoder (some s) 4096 0 () sends
  exact ⟨Peer.mute_silent, hseen, hwritten⟩

end Link

end KeyControl
