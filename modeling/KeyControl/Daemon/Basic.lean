import KeyControl.Failure
import KeyControl.Message.Envelope

/-!
# The daemon

The daemon answers one request at a time.  A request to authenticate goes to the credential store
and nowhere else; every other request passes the session gate, if the policy has one, and is then
handed to whoever acts on it.  What the daemon calls on is given as functions over a state of their
own, so every behaviour of theirs is covered, and each call is entered in the journal.
-/

namespace KeyControl

/-- What a credential store knows of a session. -/
inductive SessionState where
  | valid
  | expired
  | unknown
deriving DecidableEq

/-- A credential store over a state `σ`. -/
structure Credentials (σ : Type) where
  /-- Offer a token.  The answer is a session and its expiry, both unchecked, or a rejection; the
  store may also fail. -/
  authenticate : String → Option String → σ → Except Incident (Option (Datum × Datum)) × σ
  /-- The state of a session; here too, the store may fail. -/
  check : String → σ → Except Incident SessionState × σ

/-- What comes of handing a request to whoever acts on it. -/
inductive Handled where
  /-- It failed with a text. -/
  | raised (text : Text)
  /-- It returned an object. -/
  | returned (p : Parcel)
  /-- It returned a sequence, which may fail while it is read. -/
  | produced (replies : Except Failure (List Parcel))

/-- Whoever acts on requests, over a state `σ`. -/
abbrev Handler (σ : Type) := Parcel → σ → Handled × σ

/-- Whether requests need a session.  Only where there is a credential store can they. -/
inductive Policy (σ : Type) where
  /-- Requests are served with or without a session. -/
  | lenient (store : Option (Credentials σ))
  /-- Requests are served only with a session that the store holds valid. -/
  | strict (store : Credentials σ)

namespace Policy

/-- The policy of a store and a demand. -/
def ofDemand (store : Option (Credentials σ)) (requireSession : Bool) :
    Except Failure (Policy σ) :=
  if requireSession then
    match store with
    | some s => .ok (.strict s)
    | none => .error .storeMissing
  else .ok (.lenient store)

def store? : Policy σ → Option (Credentials σ)
  | lenient store => store
  | strict store => some store

end Policy

/-- A daemon: its policy, and whoever acts on requests.  Where nobody does, every request is
acknowledged. -/
structure Daemon (σ : Type) where
  policy : Policy σ
  handler : Option (Handler σ)

/-- The state of everything that a daemon calls on, and the calls made so far. -/
structure Desk (σ : Type) where
  state : σ
  journal : Journal

namespace Parcel

/-- The replies that an object stands for: a notice or an acknowledgement for itself, nothing for
none, and a sequence for its members. -/
def replies : Parcel → Except Failure (List Parcel)
  | message (.notice n) => .ok [message (.notice n)]
  | message (.ack a) => .ok [message (.ack a)]
  | message (.request _) => .error .notReplies
  | foreign _ => .error .notReplies
  | value d =>
    match d with
    | .null => .ok []
    | .list items => .ok (items.map value)
    | .tuple items => .ok (items.map value)
    | .text t => .ok (t.map fun p => value (.text [p]))
    | .table entries => .ok (entries.map fun e => value e.1)
    | .octets bs => .ok (bs.map fun b => value (.int b.toNat))
    | .foreign name => if name = "set" then .ok [] else .error .notReplies
    | _ => .error .notReplies

/-- Whether a parcel has a tag, as messages do. -/
def isTagged : Parcel → Bool
  | message _ => true
  | _ => false

end Parcel

namespace Daemon

variable {σ : Type}

/-- Answer a request to authenticate. -/
def grant (store : Option (Credentials σ)) (token : String) (clientName : Option String)
    (desk : Desk σ) : Except Failure Notice × Desk σ :=
  match store with
  | none => (.ok .denied, desk)
  | some s =>
    let journal := .authenticate token clientName :: desk.journal
    match s.authenticate token clientName desk.state with
    | (.error incident, state) => (.error (.incident incident), ⟨state, journal⟩)
    | (.ok none, state) => (.ok .denied, ⟨state, journal⟩)
    | (.ok (some (session, expiry)), state) =>
      match Notice.granted? session expiry with
      | .ok n => (.ok n, ⟨state, journal⟩)
      | .error e => (.error (.ofGrantError e), ⟨state, journal⟩)

/-- Decide whether a request may pass: the refusal, or `none` where it may. -/
def gate (policy : Policy σ) (p : Parcel) (desk : Desk σ) :
    Except Failure (Option Notice) × Desk σ :=
  match policy with
  | .lenient _ => (.ok none, desk)
  | .strict store =>
    match p.session? with
    | none => (if p.isTagged then .ok (some .authRequired) else .error .untagged, desk)
    | some session =>
      let journal := .check session :: desk.journal
      match store.check session desk.state with
      | (.error incident, state) => (.error (.incident incident), ⟨state, journal⟩)
      | (.ok .valid, state) => (.ok none, ⟨state, journal⟩)
      | (.ok .expired, state) => (.ok (some .sessionExpired), ⟨state, journal⟩)
      | (.ok .unknown, state) => (.ok (some .authRequired), ⟨state, journal⟩)

/-- The replies to a request that has been acted on.  A failure becomes an acknowledgement with its
text; a sequence that fails while it is read fails the whole. -/
def conclude (p : Parcel) : Handled → Except Failure (List Parcel)
  | .raised text =>
    if p.isTagged then
      match Ack.failure? text with
      | .ok a => .ok [.message (.ack a)]
      | .error cause => .error (.misbuilt (.invalid cause))
    else .error .untagged
  | .returned q => q.replies
  | .produced replies => replies

/-- Hand a request to whoever acts on it. -/
def act (handler : Option (Handler σ)) (p : Parcel) (desk : Desk σ) :
    Except Failure (List Parcel) × Desk σ :=
  match handler with
  | none => (.ok [.message (.ack .ok)], desk)
  | some h =>
    let (handled, state) := h p desk.state
    (conclude p handled, ⟨state, .handle p :: desk.journal⟩)

/-- Answer a request: the replies to it, in order. -/
def dispatch (d : Daemon σ) (p : Parcel) (desk : Desk σ) : Except Failure (List Parcel) × Desk σ :=
  match p with
  | .message (.request (.authenticate token clientName)) =>
    match grant d.policy.store? token clientName desk with
    | (.ok n, desk) => (.ok [.message (.notice n)], desk)
    | (.error e, desk) => (.error e, desk)
  | p =>
    match gate d.policy p desk with
    | (.error e, desk) => (.error e, desk)
    | (.ok (some refusal), desk) => (.ok [.message (.notice refusal)], desk)
    | (.ok none, desk) => act d.handler p desk

/-- Answer a request that came as a payload.  One that cannot be decoded has no effect. -/
def handle (d : Daemon σ) (line : Payload) (desk : Desk σ) :
    Except Failure (List Parcel) × Desk σ :=
  match line.decode .requests with
  | .error e => (.error (.ofPayloadError e), desk)
  | .ok m => d.dispatch (.message m) desk

end Daemon

/-- The octets of a list of parcels, each in a frame of its own. -/
def frameAll : List Parcel → Except EncodeError Bytes
  | [] => .ok []
  | p :: ps =>
    match p.frame with
    | .error e => .error e
    | .ok bs =>
      match frameAll ps with
      | .error e => .error e
      | .ok rest => .ok (bs ++ rest)

end KeyControl
