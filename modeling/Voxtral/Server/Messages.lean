import Voxtral.Stream.PublicApi
import Voxtral.Server.Outbound

/-!
# The messages of a realtime session

The server text messages as `json-protocol.cpp` builds them, before they are serialised, and what
`RealtimeSession::drain_events` makes of a polled stream event.
-/

namespace Voxtral

/-- A server text message.  The measurements of `session.completed` and `session.warning` are left out. -/
inductive ServerMessage
  | sessionCreated (sessionId model : String)
  | pong (id : String)
  | token (sequence : ℕ) (tokenId : ℤ) (text : Bytes) (audioEndMs : ℕ)
  | partialText (sequence : ℕ) (text : Bytes) (audioEndMs : ℕ)
  | final (sequence : ℕ) (text : Bytes) (audioEndMs : ℕ)
  | completed (sequence : ℕ)
  | warning
  | cancelled
  | error (code message : String) (fatal : Bool)
  deriving DecidableEq

/-- The `sequence` value of a message that has one. -/
def ServerMessage.sequence : ServerMessage → Option ℕ
  | .token sequence _ _ _ => some sequence
  | .partialText sequence _ _ => some sequence
  | .final sequence _ _ => some sequence
  | .completed sequence => some sequence
  | _ => none

/-- `token_event_json`. -/
def tokenEventJson (event : PublicEvent) : ServerMessage :=
  .token event.sequence event.tokenId event.text event.audioEndMs

/-- `partial_event_json`. -/
def partialEventJson (event : PublicEvent) : ServerMessage :=
  .partialText event.sequence event.text event.audioEndMs

/-- `RealtimeConfiguration`: the events asked for. -/
structure RealtimeConfiguration where
  partialEvents : Bool
  tokenEvents : Bool
  deriving DecidableEq, Repr

/-- `TerminalEvents`. -/
structure TerminalEvents where
  finalSequence : ℕ := 0
  finalAudioEndMs : ℕ := 0
  completedSequence : ℕ := 0
  finalSeen : Bool := false
  completedSeen : Bool := false
  tokenCount : ℕ := 0
  deriving DecidableEq, Repr

/-- The message `drain_events` enqueues for a polled event, if any. -/
def eventMessage (config : RealtimeConfiguration) (event : PublicEvent) :
    Option (OutboundMessage ServerMessage) :=
  match event.type with
  | .token => if config.tokenEvents then some ⟨tokenEventJson event, .token⟩ else none
  | .partialText => if config.partialEvents then some ⟨partialEventJson event, .partialText⟩ else none
  | _ => none

/-- What `drain_events` remembers of a polled event. -/
def TerminalEvents.observe (terminal : TerminalEvents) (event : PublicEvent) : TerminalEvents :=
  match event.type with
  | .token => { terminal with tokenCount := terminal.tokenCount + 1 }
  | .finalText =>
    { terminal with
      finalSeen := true
      finalSequence := event.sequence
      finalAudioEndMs := event.audioEndMs }
  | .completed => { terminal with completedSeen := true, completedSequence := event.sequence }
  | _ => terminal

/-- The two messages the worker enqueues for a completed stream with the transcript `text`; without both
terminal events it fails instead. -/
def TerminalEvents.messages (terminal : TerminalEvents) (text : Bytes) :
    List (OutboundMessage ServerMessage) :=
  if terminal.finalSeen ∧ terminal.completedSeen then
    [⟨.final terminal.finalSequence text terminal.finalAudioEndMs, .mandatory⟩,
      ⟨.completed terminal.completedSequence, .mandatory⟩]
  else []

end Voxtral
