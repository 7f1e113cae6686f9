import KeyControl.Client.Basic
import KeyControl.Daemon.Basic
import KeyControl.Link.Basic

/-!
# A client joined to a daemon

`Link.exchange` lets a client work over a link.  `Daemon.peer` makes a daemon the other side of that
link: each write is cut into frames, each frame is answered, and the replies arrive together.
-/

namespace KeyControl

/-- Work over a link on which replies are expected. -/
def Link.exchange (answer : Peer π) : Exchange (Link π) where
  send p l := l.send answer p
  recv wait l := l.recv Reading.replies.decoder wait

namespace Daemon

variable {σ : Type}

/-- Answer frames one after another: the octets of all replies.  The first failure is that of the
whole. -/
def answerFrames (d : Daemon σ) : List Bytes → Desk σ → Except Failure Bytes × Desk σ
  | [], desk => (.ok [], desk)
  | f :: fs, desk =>
    match d.handle (.octets f) desk with
    | (.error e, desk) => (.error e, desk)
    | (.ok replies, desk) =>
      match frameAll replies with
      | .error e => (.error (.unencodable e), desk)
      | .ok bs =>
        match answerFrames d fs desk with
        | (.error e, desk) => (.error e, desk)
        | (.ok rest, desk) => (.ok (bs ++ rest), desk)

/-- The daemon as the other side of a socket. -/
def peer (d : Daemon σ) : Peer σ :=
  fun bs state =>
    match Bytes.frames bs with
    | .error cause => ⟨.error (.incomplete cause), state, []⟩
    | .ok fs =>
      match d.answerFrames fs ⟨state, []⟩ with
      | (.ok replies, desk) => ⟨.ok [.data replies], desk.state, desk.journal⟩
      | (.error e, desk) => ⟨.error e, desk.state, desk.journal⟩

end Daemon

end KeyControl
