import KeyControl.Wire.Codec

/-!
# Frames

A frame is a line that is not blank.  `Payload.frames` cuts a buffer into frames at once and demands
that it ends on a line feed, trailing blanks aside.

A `LineBuffer` receives a stream in chunks and hands back each frame as soon as its line feed has
come, whatever the chunks.  A line longer than the limit makes the buffer fail for good: the frames
before that line are still handed back, and from then on every use reports the error.
-/

namespace KeyControl

/-! ## At once -/

/-- Octets that do not make a whole number of frames. -/
inductive Incomplete where
  /-- A buffer has so many octets behind its last line feed. -/
  | trailing (count : Nat)
  /-- A stream ended with so many octets of an unfinished line. -/
  | cutOff (count : Nat)
deriving DecidableEq

namespace Incomplete

/-- The wording of what is left over. -/
def text : Incomplete → String
  | trailing count => integerString count ++ " bytes follow the last newline"
  | cutOff count =>
    "stream ended partway through a message (" ++ integerString count ++ " bytes)"

end Incomplete

namespace Bytes

/-- The frames of a buffer. -/
def frames (bs : Bytes) : Except Incomplete (List Bytes) :=
  let (complete, rest) := segments bs
  if rest.blank then .ok (complete.filter (! ·.blank)) else .error (.trailing rest.length)

end Bytes

/-- Why a buffer cannot be cut into frames. -/
inductive FramesError where
  /-- It is text with lone surrogates. -/
  | surrogates (run : SurrogateRun)
  /-- It does not end on a frame. -/
  | incomplete (cause : Incomplete)
deriving DecidableEq

/-- The frames of a buffer, given as octets or as text. -/
def Payload.frames : Payload → Except FramesError (List Bytes)
  | .octets bs =>
    match Bytes.frames bs with
    | .ok fs => .ok fs
    | .error cause => .error (.incomplete cause)
  | .text t =>
    match t.surrogates? with
    | some run => .error (.surrogates run)
    | none =>
      match Bytes.frames (Utf8.encode t.chars) with
      | .ok fs => .ok fs
      | .error cause => .error (.incomplete cause)

/-! ## Piece by piece -/

/-- The state between two chunks.  The limit zero stands for none. -/
structure LineBuffer where
  limit : Int
  /-- The octets after the last line feed, newest first. -/
  current : Bytes
  /-- Whether a line was too long. -/
  failed : Bool
deriving DecidableEq

namespace LineBuffer

def empty (limit : Int) : LineBuffer :=
  ⟨limit, [], false⟩

/-- The number of octets after the last line feed. -/
def pending (b : LineBuffer) : Nat :=
  b.current.length

/-- Whether a line keeps within the limit. -/
def fits (b : LineBuffer) (line : Bytes) : Bool :=
  decide (b.limit = 0) || decide ((line.length : Int) ≤ b.limit)

/-- The error of a buffer that has failed. -/
def overflow (b : LineBuffer) : DecodeError :=
  .lineTooLong b.limit

/-- Report whether the buffer has failed. -/
def check (b : LineBuffer) : Except DecodeError Unit :=
  if b.failed then .error b.overflow else .ok ()

/-- Take a chunk: the buffer after it, and the frames that it completes.  Cutting the stream into
segments goes on where the last chunk left it.  If a line is too long, the error is reported now if
there is no frame before that line, and otherwise at the next use. -/
def feed (b : LineBuffer) (chunk : Bytes) : LineBuffer × Except DecodeError (List Bytes) :=
  if b.failed then (b, .error b.overflow)
  else
    let (done, current) := chunk.foldl extendSegments ([], b.current)
    let lines := done.reverse
    let frames := (lines.takeWhile b.fits).filter (! ·.blank)
    if lines.all b.fits && b.fits current then (⟨b.limit, current, false⟩, .ok frames)
    else (⟨b.limit, [], true⟩, if frames.isEmpty then .error b.overflow else .ok frames)

/-- Why a stream may not end where it does. -/
inductive CloseError where
  /-- A line was too long. -/
  | overflow (cause : DecodeError)
  /-- The last line is unfinished. -/
  | incomplete (cause : Incomplete)
deriving DecidableEq

/-- End the stream: the buffer is emptied, and an unfinished line that is not blank is an error. -/
def close (b : LineBuffer) : LineBuffer × Except CloseError Unit :=
  (⟨b.limit, [], b.failed⟩,
    if b.failed then .error (.overflow b.overflow)
    else if b.current.blank then .ok ()
    else .error (.incomplete (.cutOff b.pending)))

end LineBuffer

end KeyControl
