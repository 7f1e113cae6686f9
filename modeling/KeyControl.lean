import KeyControl.Text.CharacterClass
import KeyControl.Datum.Quoted
import KeyControl.Text.Utf8
import KeyControl.Number.Layout
import KeyControl.Number.Numeral
import KeyControl.Json.Reader
import KeyControl.Json.Writer
import KeyControl.Datum.Json
import KeyControl.Message.Envelope
import KeyControl.Message.Wording
import KeyControl.Wire.Codec
import KeyControl.Wire.Frames
import KeyControl.Settings.Basic
import KeyControl.Failure
import KeyControl.Daemon.Tables
import KeyControl.Link.Basic
import KeyControl.Client.Joined
import KeyControl.Proofs.Wire.RoundTrip
import KeyControl.Proofs.Wire.Frames
import KeyControl.Proofs.Link.Delivery
import KeyControl.Proofs.Daemon.Gate
import KeyControl.Proofs.Client.Runs
import KeyControl.Proofs.Client.Session
import KeyControl.Proofs.Daemon.Replies
import KeyControl.Proofs.Link.Carrying
import KeyControl.Proofs.Client.Joined
import KeyControl.Proofs.Message.Schema
import KeyControl.Proofs.Wire.Families
import KeyControl.Proofs.Daemon.Failures
import KeyControl.Proofs.Link.Standing
import KeyControl.Proofs.Client.Tokens
import KeyControl.Proofs.Json.Blanks
import KeyControl.Proofs.Json.Extent
import KeyControl.Proofs.Text.Utf8
import KeyControl.Proofs.Wire.Sources
import KeyControl.Proofs.Wire.Extent
import KeyControl.Proofs.Message.Declared
import KeyControl.Proofs.Daemon.Calm
import KeyControl.Proofs.Link.Lifecycle
import KeyControl.Proofs.Link.Independence
import KeyControl.Proofs.Wire.Framings
import KeyControl.Proofs.Message.Documents
import KeyControl.Proofs.Message.Envelope
import KeyControl.Proofs.Wire.Upkeep
import KeyControl.Proofs.Daemon.Grants
import KeyControl.Proofs.Settings.Bounds
