import KeyControl.Daemon.Basic

/-!
# Collaborators given by tables

A credential store and a handler of requests whose answers are known beforehand: one table says what
comes of each token, one holds the states of sessions, and one says how requests of each tag are
acted on.  `Ledger.credentials` makes a store of the first two, `Reaction.handler` a handler of the
third.
-/

namespace KeyControl

/-- What comes of offering a token. -/
inductive Issue where
  /-- The store fails. -/
  | fails (incident : Incident)
  /-- A session and its expiry are issued.  In the session, each `#` stands for the number of
  sessions issued before. -/
  | grants (session expiry : Datum)

/-- How requests of a tag are acted on.  What is to be built is built when the request is. -/
inductive Reaction where
  /-- Nothing is returned. -/
  | silent
  /-- One object is returned. -/
  | reply (p : Except BuildError Parcel)
  /-- A list is returned. -/
  | replies (ps : List (Except BuildError Parcel))
  /-- It fails with a text. -/
  | fails (text : Text)
  /-- A sequence is returned that is built while it is read, and that may fail at its end. -/
  | generates (ps : List (Except BuildError Parcel)) (ending : Option Incident)

namespace Reaction

/-- Build objects in order; the first that cannot be built is the error. -/
def build : List (Except BuildError Parcel) → Except BuildError (List Parcel)
  | [] => .ok []
  | .error e :: _ => .error e
  | .ok p :: rest => (build rest).map (p :: ·)

/-- What comes of a reaction. -/
def handled : Reaction → Handled
  | silent => .returned (.value .null)
  | reply (.ok p) => .returned p
  | reply (.error e) => .raised (Text.ofString e.text)
  | replies ps =>
    match build ps with
    | .ok qs => .produced (.ok qs)
    | .error e => .raised (Text.ofString e.text)
  | fails text => .raised text
  | generates ps ending =>
    match build ps, ending with
    | .error e, _ => .produced (.error (.misbuilt e))
    | .ok _, some incident => .produced (.error (.incident incident))
    | .ok qs, none => .produced (.ok qs)

end Reaction

/-- The state of a credential store given by tables. -/
structure Ledger where
  /-- What comes of each token; other tokens are rejected. -/
  tokens : List (String × Issue)
  /-- The states of sessions, newest first; other sessions are unknown. -/
  sessions : List (Text × SessionState)
  /-- The number of sessions issued so far. -/
  issued : Nat

namespace Ledger

def empty : Ledger :=
  ⟨[], [], 0⟩

/-- A session with each `#` replaced by a number. -/
def number (n : Nat) (session : Text) : Text :=
  session.flatMap fun p =>
    if p = .scalar '#' then Text.ofChars (integerText n) else [p]

/-- Set the state of a session. -/
def setSession (session : Text) (state : SessionState) (l : Ledger) : Ledger :=
  ⟨l.tokens, (session, state) :: l.sessions, l.issued⟩

/-- The state of a session. -/
def stateOf (l : Ledger) (session : Text) : SessionState :=
  match l.sessions.find? fun e => decide (e.1 = session) with
  | some (_, state) => state
  | none => .unknown

/-- What comes of offering a token.  A session that is text is entered as valid. -/
def authenticate (token : String) (_ : Option String) (l : Ledger) :
    Except Incident (Option (Datum × Datum)) × Ledger :=
  match Json.find? token l.tokens with
  | none => (.ok none, l)
  | some (.fails incident) => (.error incident, l)
  | some (.grants session expiry) =>
    let counted : Ledger := ⟨l.tokens, l.sessions, l.issued + 1⟩
    match session with
    | .text t =>
      let numbered := number l.issued t
      (.ok (some (.text numbered, expiry)), counted.setSession numbered .valid)
    | d => (.ok (some (d, expiry)), counted)

/-- The ledger as a credential store. -/
def credentials : Credentials Ledger where
  authenticate := authenticate
  check session l := (.ok (l.stateOf (Text.ofString session)), l)

end Ledger

/-- The handler that acts on requests of each tag as a table says, and acknowledges the others. -/
def Reaction.handler (table : List (String × Reaction)) : Handler Ledger :=
  fun p l =>
    let reaction? :=
      match p with
      | .message m => Json.find? m.tagName table
      | _ => none
    match reaction? with
    | some reaction => (reaction.handled, l)
    | none => (.returned (.message (.ack .ok)), l)

end KeyControl
