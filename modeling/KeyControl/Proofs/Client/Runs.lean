import KeyControl.Client.Basic
import Mathlib.Data.List.Basic

/-!
# Runs of a client

A run of a client is a list of operations over one exchange: attempts to authenticate, requests, and
waits for a message.  What passes over the exchange is seen by running the very same operations over
`Exchange.recorded`, which enters every parcel that is sent and every message that is received;
`Operation.run_recorded` says that recording changes nothing else.  `Client.trace` lists the
transitions of a run, each with the traffic it made.

An attempt to authenticate and a request end alike: a parcel is sent and the next message is made
something of.  `Client.ask` is this common end, and `Client.asked` lists the three ways it can go.
-/

namespace KeyControl

variable {τ : Type}

/-- One use of an exchange, with what came of it. -/
inductive Traffic where
  | sent (p : Parcel) (outcome : Except Failure Unit)
  | received (wait : Wait) (outcome : Except Failure Message)

/-- The parcel that was handed over to be sent. -/
def Traffic.sent? : Traffic → Option Parcel
  | sent p _ => some p
  | received _ _ => none

namespace Exchange

variable (x : Exchange τ)

/-- The exchange that also enters each use made of it, the newest last. -/
def recorded : Exchange (τ × List Traffic) where
  send p t := ((x.send p t.1).1, (x.send p t.1).2, t.2 ++ [.sent p (x.send p t.1).1])
  recv wait t :=
    ((x.recv wait t.1).1, (x.recv wait t.1).2, t.2 ++ [.received wait (x.recv wait t.1).1])

variable {x}

theorem send_recorded {p : Parcel} {t t' : τ} {outcome : Except Failure Unit}
    (h : x.send p t = (outcome, t')) (log : List Traffic) :
    x.recorded.send p (t, log) = (outcome, t', log ++ [.sent p outcome]) := by
  rw [recorded]
  dsimp only
  rw [h]

theorem recv_recorded {wait : Wait} {t t' : τ} {outcome : Except Failure Message}
    (h : x.recv wait t = (outcome, t')) (log : List Traffic) :
    x.recorded.recv wait (t, log) = (outcome, t', log ++ [.received wait outcome]) := by
  rw [recorded]
  dsimp only
  rw [h]

end Exchange

namespace Client

/-! ## Operations and transitions -/

/-- What a client can be told to do. -/
inductive Operation where
  /-- Exchange a token, still unchecked, for a session. -/
  | authenticate (token : Datum)
  /-- Send a request and wait for the next message. -/
  | request (p : Parcel)
  /-- Wait for the next message. -/
  | recv (wait : Wait)

namespace Operation

def run (x : Exchange τ) : Operation → Client → τ → Except Failure Message × Client × τ
  | authenticate token => Client.authenticate x token
  | request p => Client.request x p
  | recv wait => Client.recv x wait

/-- What passes over the exchange while an operation is carried out. -/
def traffic (x : Exchange τ) (op : Operation) (c : Client) (t : τ) : List Traffic :=
  (op.run x.recorded c (t, [])).2.2.2

end Operation

/-- An operation with the client before it, its result, the client after it, and what passed over
the exchange. -/
structure Transition where
  operation : Operation
  before : Client
  result : Except Failure Message
  after : Client
  traffic : List Traffic

/-- The parcels handed over to be sent in a transition, in order. -/
def Transition.sent (step : Transition) : List Parcel :=
  step.traffic.filterMap Traffic.sent?

/-- The transition that an operation makes. -/
def Operation.transition (x : Exchange τ) (op : Operation) (c : Client) (t : τ) : Transition :=
  ⟨op, c, (op.run x c t).1, (op.run x c t).2.1, op.traffic x c t⟩

def trace (x : Exchange τ) : List Operation → Client → τ → List Transition
  | [], _, _ => []
  | op :: ops, c, t => op.transition x c t :: trace x ops (op.run x c t).2.1 (op.run x c t).2.2

/-- The client and the exchange at the end of a run. -/
def finish (x : Exchange τ) : List Operation → Client → τ → Client × τ
  | [], c, t => (c, t)
  | op :: ops, c, t => finish x ops (op.run x c t).2.1 (op.run x c t).2.2

/-! ## How an operation can go -/

/-- Send a parcel, wait for the next message and make something of it. -/
def ask (x : Exchange τ) (p : Parcel) (conclude : Message → Except Failure Message × Client)
    (c : Client) (t : τ) : Except Failure Message × Client × τ :=
  match x.send p t with
  | (.error e, t) => (.error e, c, t)
  | (.ok (), t) =>
    match x.recv patience t with
    | (.error e, t) => (.error e, c, t)
    | (.ok reply, t) => ((conclude reply).1, (conclude reply).2, t)

theorem request_eq_ask (x : Exchange τ) (p : Parcel) (c : Client) (t : τ) :
    request x p c t = ask x (c.stamp p) c.heed c t :=
  rfl

theorem authenticate_eq_ask (x : Exchange τ) {token : Datum} {c : Client} {r : Request}
    (hr : greeting token c.name = .ok r) (t : τ) :
    authenticate x token c t = ask x (.message (.request r)) c.learn c t := by
  rw [authenticate, hr]
  rfl

theorem authenticate_of_greeting_error (x : Exchange τ) {token : Datum} {c : Client} {e : Failure}
    (he : greeting token c.name = .error e) (t : τ) :
    authenticate x token c t = (.error e, c, t) := by
  rw [authenticate, he]

/-- The ways of asking: nothing is sent, nothing is received, or there is an answer. -/
inductive Asked (x : Exchange τ) (p : Parcel) (conclude : Message → Except Failure Message × Client)
    (c : Client) (t : τ) : Except Failure Message × Client × τ → List Traffic → Prop where
  | unsent {e : Failure} {t' : τ} (hsend : x.send p t = (.error e, t')) :
    Asked x p conclude c t (.error e, c, t') [.sent p (.error e)]
  | unanswered {e : Failure} {t' t'' : τ} (hsend : x.send p t = (.ok (), t'))
    (hrecv : x.recv patience t' = (.error e, t'')) :
    Asked x p conclude c t (.error e, c, t'') [.sent p (.ok ()), .received patience (.error e)]
  | answered {reply : Message} {t' t'' : τ} (hsend : x.send p t = (.ok (), t'))
    (hrecv : x.recv patience t' = (.ok reply, t'')) :
    Asked x p conclude c t ((conclude reply).1, (conclude reply).2, t'')
      [.sent p (.ok ()), .received patience (.ok reply)]

theorem Asked.filterMap_sent? {x : Exchange τ} {p : Parcel}
    {conclude : Message → Except Failure Message × Client} {c : Client} {t : τ}
    {outcome : Except Failure Message × Client × τ} {traffic : List Traffic}
    (h : Asked x p conclude c t outcome traffic) : traffic.filterMap Traffic.sent? = [p] := by
  cases h with
  | unsent hsend => rfl
  | unanswered hsend hrecv => rfl
  | answered hsend hrecv => rfl

/-- Asking goes one of these ways, and recording it changes nothing. -/
theorem asked (x : Exchange τ) (p : Parcel) (conclude : Message → Except Failure Message × Client)
    (c : Client) (t : τ) :
    ∃ traffic, Asked x p conclude c t (ask x p conclude c t) traffic ∧
      ask x.recorded p conclude c (t, []) =
        ((ask x p conclude c t).1, (ask x p conclude c t).2.1, (ask x p conclude c t).2.2,
          traffic) := by
  rw [ask, ask]
  rcases hsend : x.send p t with ⟨⟨e⟩ | ⟨⟩, t'⟩
  · rw [Exchange.send_recorded hsend]
    exact ⟨_, .unsent hsend, rfl⟩
  · rw [Exchange.send_recorded hsend]
    dsimp only
    rcases hrecv : x.recv patience t' with ⟨⟨e⟩ | ⟨reply⟩, t''⟩
    · rw [Exchange.recv_recorded hrecv]
      exact ⟨_, .unanswered hsend hrecv, rfl⟩
    · rw [Exchange.recv_recorded hrecv]
      exact ⟨_, .answered hsend hrecv, rfl⟩

namespace Operation

variable (x : Exchange τ)

theorem asked_request (p : Parcel) (c : Client) (t : τ) :
    Asked x (c.stamp p) c.heed c t ((request p).run x c t) ((request p).traffic x c t) := by
  obtain ⟨traffic, hasked, hrecorded⟩ := asked x (c.stamp p) c.heed c t
  have htraffic : (request p).traffic x c t = traffic := by
    rw [Operation.traffic, run, request_eq_ask, hrecorded]
  rw [htraffic, run, request_eq_ask]
  exact hasked

theorem asked_authenticate {token : Datum} {c : Client} {r : Request}
    (hr : greeting token c.name = .ok r) (t : τ) :
    Asked x (.message (.request r)) c.learn c t ((authenticate token).run x c t)
      ((authenticate token).traffic x c t) := by
  obtain ⟨traffic, hasked, hrecorded⟩ := asked x (.message (.request r)) c.learn c t
  have htraffic : (authenticate token).traffic x c t = traffic := by
    rw [Operation.traffic, run, authenticate_eq_ask x.recorded hr, hrecorded]
  rw [htraffic, run, authenticate_eq_ask x hr]
  exact hasked

theorem authenticate_of_greeting_error {token : Datum} {c : Client} {e : Failure}
    (he : greeting token c.name = .error e) (t : τ) :
    (authenticate token).run x c t = (.error e, c, t) ∧
      (authenticate token).traffic x c t = [] := by
  constructor
  · exact Client.authenticate_of_greeting_error x he t
  · rw [Operation.traffic, run, Client.authenticate_of_greeting_error x.recorded he]

/-- **Recording changes nothing.**  An operation over the recorded exchange has the result, and
leaves the client and the exchange, that it has and leaves without the record. -/
theorem run_recorded (op : Operation) (c : Client) (t : τ) :
    op.run x.recorded c (t, []) =
      ((op.run x c t).1, (op.run x c t).2.1, (op.run x c t).2.2, op.traffic x c t) := by
  cases op with
  | authenticate token =>
    cases hr : greeting token c.name with
    | error e =>
      rw [Operation.traffic, run, run, Client.authenticate_of_greeting_error _ hr,
        Client.authenticate_of_greeting_error _ hr]
    | ok r =>
      obtain ⟨traffic, -, hrecorded⟩ := asked x (.message (.request r)) c.learn c t
      rw [Operation.traffic, run, run, authenticate_eq_ask _ hr, authenticate_eq_ask _ hr,
        hrecorded]
  | request p =>
    obtain ⟨traffic, -, hrecorded⟩ := asked x (c.stamp p) c.heed c t
    rw [Operation.traffic, run, run, request_eq_ask, request_eq_ask, hrecorded]
  | recv wait => rfl

end Operation

end Client

end KeyControl
