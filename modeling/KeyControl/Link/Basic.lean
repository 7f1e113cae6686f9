import KeyControl.Link.Socket

/-!
# Links

A link exchanges messages over a socket.  `Link.send` writes one frame; `Link.recv` reads until it
has a complete line, hands back the lines in order, one for each call, and decodes each with the
reading it is given.  Closing a link detaches its socket for good.

The socket and the flag that tells whether the link is open are set by different operations, and
each is looked at where it is needed: the flag before anything is sent or received, the socket when
it is called.  An open link without a socket would fail there (`Link.missing`).
-/

namespace KeyControl

/-- Whether a link has a socket, and whether it may be used. -/
structure Attachment where
  /-- The socket, if there is one. -/
  socket : Option Socket
  /-- Whether the link may be used. -/
  isOpen : Bool
deriving DecidableEq

namespace Attachment

/-- There is a socket. -/
@[match_pattern] abbrev attached (s : Socket) (isOpen : Bool) : Attachment :=
  ⟨some s, isOpen⟩

/-- There is no socket, and the link may not be used: there never was one, or it has been closed. -/
@[match_pattern] abbrev detached : Attachment :=
  ⟨none, false⟩

end Attachment

/-- A link, with the state of the other side and the calls made so far. -/
structure Link (π : Type) where
  attachment : Attachment
  /-- The octets of the line being read. -/
  reader : LineBuffer
  /-- The lines read and not handed back yet. -/
  lines : List Bytes
  /-- The number of octets asked for in one read. -/
  readSize : Int
  peer : π
  journal : Journal

/-- How lines are decoded. -/
abbrev Decoder := Bytes → Except Failure Message

/-- The decoder of the messages expected. -/
def Reading.decoder (r : Reading) : Decoder :=
  fun line =>
    match (Payload.octets line).decode r with
    | .ok m => .ok m
    | .error e => .error (.ofPayloadError e)

namespace Link

variable {π : Type}

/-- A link over a socket, or over none. -/
def new (socket : Option Socket) (readSize lineLimit : Int) (peer : π) : Link π :=
  ⟨match socket with
    | some s => .attached s true
    | none => .detached, .empty lineLimit, [], readSize, peer, []⟩

def isOpen (l : Link π) : Bool :=
  l.attachment.isOpen

/-- The failure of calling a socket that is missing. -/
def missing (method : String) : Failure :=
  .incident (.raised (Text.ofString "AttributeError")
    (.ofString ("'NoneType' object has no attribute '" ++ method ++ "'")))

/-- Open a link, which takes a socket and nothing else. -/
def reopen (l : Link π) : Except Failure Unit × Link π :=
  match l.attachment.socket with
  | none => (.error (.unusable .noSocket), l)
  | some s => (.ok (), ⟨.attached s true, l.reader, l.lines, l.readSize, l.peer, l.journal⟩)

/-- Close a link.  The socket is closed and detached, whether or not closing it fails, and whatever
was read is dropped. -/
def close (l : Link π) : Link π :=
  match l.attachment.socket with
  | none => ⟨.detached, l.reader, [], l.readSize, l.peer, l.journal⟩
  | some s =>
    match s.close with
    | .ok () | .error _ =>
      ⟨.detached, .empty l.reader.limit, [], l.readSize, l.peer, .close :: l.journal⟩

/-- Write octets to a socket, and let the other side answer. -/
def write (answer : Peer π) (bs : Bytes) (s : Socket) (l : Link π) :
    Except Failure Unit × Link π :=
  let journal := .sendAll bs :: l.journal
  let after (inbox : Inbox) (peer : π) (journal : Journal) : Link π :=
    ⟨.attached ⟨inbox, s.sendFaults.tail, s.closeFault⟩ true, l.reader, l.lines, l.readSize, peer,
      journal⟩
  match s.sendFaults.head? with
  | some (some text) =>
    (.error (.unusable (.sendFailed text)), after s.inbox l.peer journal)
  | _ =>
    let a := answer bs l.peer
    match a.outcome with
    | .ok events => (.ok (), after (s.inbox ++ events) a.state (a.calls ++ journal))
    | .error (.incident i) =>
      let failure : Failure := if i.system then .unusable (.sendFailed i.text) else .incident i
      (.error failure, after s.inbox a.state (a.calls ++ journal))
    | .error e => (.error e, after s.inbox a.state (a.calls ++ journal))

/-- Send a parcel in one frame. -/
def send (answer : Peer π) (p : Parcel) (l : Link π) : Except Failure Unit × Link π :=
  match l.attachment with
  | ⟨_, false⟩ => (.error (.unusable .closed), l)
  | ⟨socket, true⟩ =>
    match p.frame with
    | .error e => (.error (.unencodable e), l)
    | .ok bs =>
      match socket with
      | some s => l.write answer bs s
      | none => (.error (missing "sendall"), l)

/-- What comes of reading until a line is complete. -/
inductive Outcome where
  /-- Lines are complete; there is at least one. -/
  | lines (ls : List Bytes)
  /-- Reading failed; it may be tried again. -/
  | failed (cause : Failure)
  /-- The stream has ended. -/
  | ended (cause : Failure)

/-- The state after reading until a line is complete. -/
structure Filled where
  outcome : Outcome
  reader : LineBuffer
  inbox : Inbox
  journal : Journal

/-- Read until a line is complete, or reading fails.  Each read that goes on leaves less to come. -/
def fill (size : Int) (wait : Wait) (reader : LineBuffer) (inbox : Inbox) (journal : Journal) :
    Filled :=
  if reader.failed then ⟨.failed (.undecodable reader.overflow), reader, inbox, journal⟩
  else
    match _h : Inbox.receive size.toNat inbox with
    | (count, read, rest) =>
      let journal := List.replicate count (.recv size) ++ .setTimeout wait :: journal
      match read with
      | .timeout => ⟨.failed (.timeout wait), reader, rest, journal⟩
      | .failed text => ⟨.failed (.unusable (.recvFailed text)), reader, rest, journal⟩
      | .octets (b :: bs) =>
        match reader.feed (b :: bs) with
        | (reader, .ok []) => fill size wait reader rest journal
        | (reader, .ok (l :: ls)) => ⟨.lines (l :: ls), reader, rest, journal⟩
        | (reader, .error e) => ⟨.failed (.undecodable e), reader, rest, journal⟩
      | .octets [] | .ended =>
        let (reader, result) := reader.close
        match result with
        | .error e => ⟨.ended (.ofCloseError e), reader, rest, journal⟩
        | .ok () => ⟨.ended (.unusable .closedByPeer), reader, rest, journal⟩
termination_by inbox.weight
decreasing_by
  exact Inbox.weight_lt_of_receive _h

/-- Hand back the next line, decoded. -/
def deliver (decode : Decoder) (l : Link π) : Except Failure Message × Link π :=
  match l.lines with
  | [] => (.error (.unusable .closed), l)
  | line :: rest =>
    (decode line, ⟨l.attachment, l.reader, rest, l.readSize, l.peer, l.journal⟩)

/-- Receive the next message. -/
def recv (decode : Decoder) (wait : Wait) (l : Link π) : Except Failure Message × Link π :=
  match l.attachment with
  | ⟨_, false⟩ => (.error (.unusable .closed), l)
  | ⟨socket, true⟩ =>
    if l.lines.isEmpty then
      match socket with
      | some s =>
        let f := fill l.readSize wait l.reader s.inbox l.journal
        let after (isOpen : Bool) (lines : List Bytes) : Link π :=
          ⟨.attached ⟨f.inbox, s.sendFaults, s.closeFault⟩ isOpen, f.reader, lines, l.readSize,
            l.peer, f.journal⟩
        match f.outcome with
        | .lines ls => (after true ls).deliver decode
        | .failed cause => (.error cause, after true [])
        | .ended cause => (.error cause, after false [])
      | none =>
        if l.reader.failed then (.error (.undecodable l.reader.overflow), l)
        else (.error (missing "settimeout"), l)
    else l.deliver decode

end Link

end KeyControl
