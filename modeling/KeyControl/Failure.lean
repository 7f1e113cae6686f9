import KeyControl.Settings.Basic
import KeyControl.Wire.Frames

/-!
# What can go wrong, and what was called

`Failure` collects every way an operation of the daemon or of a client may fail, each with its
cause; `Failure.text` words it.  An `Incident` is an error of a collaborator (a credential store, or
whoever acts on requests), of which only the label and the text are known.

A run of the daemon or of a client calls on things outside: a socket, a credential store, whoever
acts on requests.  The `Journal` records these calls, the newest first, so that what was asked of
them, and in which order, is part of the state of the run.
-/

namespace KeyControl

/-! ## Failures -/

/-- How long to wait for a read, in seconds.  The socket is handed whatever the caller gave. -/
abbrev Wait := Datum

/-- An error of a collaborator. -/
structure Incident where
  /-- The name of the kind of error. -/
  label : Text
  /-- Its text. -/
  text : Text
  /-- Whether the operating system reported it.  Such an error in the middle of a write counts as a
  failed write. -/
  system : Bool
deriving DecidableEq

namespace Incident

/-- The kinds of errors that the operating system reports. -/
def systemLabels : List String :=
  ["OSError", "BlockingIOError", "BrokenPipeError", "ConnectionAbortedError", "ConnectionError",
    "ConnectionRefusedError", "ConnectionResetError", "FileNotFoundError", "InterruptedError",
    "PermissionError", "TimeoutError"]

/-- The text of an error that was raised with a value: the value as plain text, save that a failed
look-up shows its key in quotes. -/
def wording (label : Text) (value : Datum) : Text :=
  if label = Text.ofString "KeyError" then Text.ofChars value.quoted else value.plain

/-- The error that is raised under a label with a value. -/
def raised (label : Text) (value : Datum) : Incident :=
  ⟨label, wording label value, systemLabels.any fun l => decide (Text.ofString l = label)⟩

end Incident

/-- Why a link to the other side cannot be used. -/
inductive LinkError where
  /-- It is closed. -/
  | closed
  /-- There never was a socket, or it has been closed. -/
  | noSocket
  /-- A write failed. -/
  | sendFailed (text : Text)
  /-- A read failed. -/
  | recvFailed (text : Text)
  /-- The other side has closed it. -/
  | closedByPeer
deriving DecidableEq

namespace LinkError

/-- The wording of an error of a link. -/
def text : LinkError → Text
  | closed => Text.ofString "transport is closed"
  | noSocket => Text.ofString "no connected socket to open"
  | sendFailed t => Text.ofString "send failed: " ++ t
  | recvFailed t => Text.ofString "recv failed: " ++ t
  | closedByPeer => Text.ofString "connection closed by peer"

end LinkError

/-- Why an operation failed. -/
inductive Failure where
  /-- A payload is no message. -/
  | undecodable (cause : DecodeError)
  /-- A parcel has no form on the wire. -/
  | unencodable (cause : EncodeError)
  /-- Octets do not make a whole number of frames. -/
  | incomplete (cause : Incomplete)
  /-- Text has no octets. -/
  | surrogates (run : SurrogateRun)
  /-- A message cannot be built. -/
  | misbuilt (cause : BuildError)
  /-- A grant lacks its session or its expiry. -/
  | hollowGrant
  /-- A variable is no setting. -/
  | setting (cause : SettingError)
  /-- Sessions are demanded, but nobody can check them. -/
  | storeMissing
  /-- Nothing came in time. -/
  | timeout (wait : Wait)
  /-- The link cannot be used. -/
  | unusable (cause : LinkError)
  /-- The other side refused for want of authentication. -/
  | refused (reply : Message)
  /-- A request was answered with something that is neither a reply nor a sequence. -/
  | notReplies
  /-- Something without a tag was handed over where its tag was needed. -/
  | untagged
  /-- A collaborator failed. -/
  | incident (cause : Incident)
deriving DecidableEq

namespace Failure

/-- The wording of a failure. -/
def text : Failure → Text
  | undecodable cause => Text.ofString cause.text
  | unencodable cause => Text.ofString cause.text
  | incomplete cause => Text.ofString cause.text
  | surrogates run => Text.ofString run.text
  | misbuilt cause => Text.ofString cause.text
  | hollowGrant => Text.ofString "a successful AuthResult needs a session_id and an expiry"
  | setting cause => cause.text
  | storeMissing =>
    Text.ofString "a credential store is required when sessions are enforced"
  | timeout wait =>
    Text.ofString "no message within " ++ wait.plain ++ Text.ofString " sec"
  | unusable cause => cause.text
  | refused reply => Text.ofString ("authentication refused: " ++ reply.tagName)
  | notReplies => Text.ofString "the replies are not a sequence"
  | untagged => Text.ofString "no tag"
  | incident cause => cause.text

/-- The failure that an undecodable payload is. -/
def ofPayloadError : PayloadError → Failure
  | .surrogates run => surrogates run
  | .undecodable cause => undecodable cause

def ofFramesError : FramesError → Failure
  | .surrogates run => surrogates run
  | .incomplete cause => incomplete cause

/-- The failure that the end of a stream may be. -/
def ofCloseError : LineBuffer.CloseError → Failure
  | .overflow cause => undecodable cause
  | .incomplete cause => incomplete cause

def ofGrantError : Notice.GrantError → Failure
  | .hollow => hollowGrant
  | .invalid cause => misbuilt (.invalid cause)

end Failure

/-! ## The journal of a run -/

/-- A call on something outside. -/
inductive Call where
  /-- Limit the time that the socket waits. -/
  | setTimeout (wait : Wait)
  /-- Read at most so many octets from the socket. -/
  | recv (size : Int)
  /-- Write octets to the socket. -/
  | sendAll (bs : Bytes)
  /-- Close the socket. -/
  | close
  /-- Offer a token to the credential store. -/
  | authenticate (token : String) (clientName : Option String)
  /-- Ask the credential store for the state of a session. -/
  | check (session : String)
  /-- Hand a request to whoever acts on it. -/
  | handle (request : Parcel)
deriving DecidableEq

/-- The calls of a run, newest first. -/
abbrev Journal := List Call

namespace Journal

/-- The calls that a journal has beyond the first `count`, oldest first. -/
def since (count : Nat) (j : Journal) : List Call :=
  (j.take (j.length - count)).reverse

end Journal

end KeyControl
