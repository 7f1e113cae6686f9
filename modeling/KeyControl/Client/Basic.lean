import KeyControl.Failure
import KeyControl.Message.Envelope

/-!
# Control clients

A control client asks one thing at a time and waits for the next message.  It remembers the session
that the daemon granted last, puts its token into requests that carry none, and forgets it as soon
as the daemon refuses one.  The client works over any `Exchange`, that is, over any pair of
functions that send and receive.
-/

namespace KeyControl

/-- A way to send parcels and to receive messages, over a state `τ`. -/
structure Exchange (τ : Type) where
  send : Parcel → τ → Except Failure Unit × τ
  recv : Wait → τ → Except Failure Message × τ

/-- A session as the daemon granted it. -/
structure Grant where
  session : String
  expiry : Option UInt64
deriving DecidableEq

/-- What a client knows: its own name, still unchecked, and the session it holds. -/
structure Client where
  name : Datum
  grant : Option Grant
deriving DecidableEq

namespace Client

def new (name : Datum) : Client :=
  ⟨name, none⟩

def session? (c : Client) : Option String :=
  c.grant.map Grant.session

def expiry? (c : Client) : Option UInt64 :=
  c.grant.bind Grant.expiry

/-- The client after its session has been refused. -/
def forget (c : Client) : Client :=
  ⟨c.name, none⟩

/-- How long the client waits for a message that it has asked for: five seconds. -/
def patience : Wait :=
  .real (.finite ⟨false, 0x4014000000000000, by decide⟩)

/-- The request to authenticate with a token and under a name, both unchecked. -/
def greeting (token name : Datum) : Except Failure Request :=
  match Requests.check .authenticate (token, name, ()) with
  | .ok v => .ok (Request.ofVariant v)
  | .error cause => .error (.misbuilt (.invalid cause))

/-- What a client makes of the answer to an attempt to authenticate: the session is the one granted
last, and an answer that grants none is a refusal. -/
def learn (c : Client) (reply : Message) : Except Failure Message × Client :=
  match reply with
  | .notice (.authResult true (some session) expiry) =>
    (.ok reply, ⟨c.name, some ⟨session, expiry⟩⟩)
  | _ => (.error (.refused reply), c.forget)

/-- What a client makes of the answer to a request. -/
def heed (c : Client) (reply : Message) : Except Failure Message × Client :=
  if reply.refusesSession then (.error (.refused reply), c.forget) else (.ok reply, c)

/-- The parcel that is sent for a request: the token held is put in if there is none yet. -/
def stamp (c : Client) (p : Parcel) : Parcel :=
  match c.session?, p.session?, p with
  | some session, none, .message (.request r) => .message (.request (r.withSession (some session)))
  | _, _, p => p

variable {τ : Type}

/-- Exchange a token, still unchecked, for a session. -/
def authenticate (x : Exchange τ) (token : Datum) (c : Client) (t : τ) :
    Except Failure Message × Client × τ :=
  match greeting token c.name with
  | .error e => (.error e, c, t)
  | .ok r =>
    match x.send (.message (.request r)) t with
    | (.error e, t) => (.error e, c, t)
    | (.ok (), t) =>
      match x.recv patience t with
      | (.error e, t) => (.error e, c, t)
      | (.ok reply, t) =>
        let (result, c) := c.learn reply
        (result, c, t)

/-- Send a request and wait for the next message. -/
def request (x : Exchange τ) (p : Parcel) (c : Client) (t : τ) :
    Except Failure Message × Client × τ :=
  match x.send (c.stamp p) t with
  | (.error e, t) => (.error e, c, t)
  | (.ok (), t) =>
    match x.recv patience t with
    | (.error e, t) => (.error e, c, t)
    | (.ok reply, t) =>
      let (result, c) := c.heed reply
      (result, c, t)

/-- Wait for the next message, whatever it is. -/
def recv (x : Exchange τ) (wait : Wait) (c : Client) (t : τ) :
    Except Failure Message × Client × τ :=
  let (result, t) := x.recv wait t
  (result, c, t)

end Client

end KeyControl
