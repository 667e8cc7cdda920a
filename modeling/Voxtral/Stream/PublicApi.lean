import Voxtral.Stream.Session
import Voxtral.Lib.Runs

/-!
# The public C interface

`voxtral-c-api.cpp`: the operations a caller has on a stream, the events it polls, and the system they
make up: a step function on streams whose runs (`runSteps`) are the object of the theorems.
-/

namespace Voxtral

variable {α φ ε γ κ : Type*}

/-- `voxtral_status`. -/
inductive PublicStatus
  | ok
  | invalidArgument
  | invalidState
  | outOfMemory
  | queueFull
  | notReady
  | cancelled
  | unsupportedAudioFormat
  | backendError
  | internalError
  deriving DecidableEq, Repr

/-- `map_status`. -/
def mapStatus : Status → PublicStatus
  | .ok => .ok
  | .invalidArgument => .invalidArgument
  | .invalidState => .invalidState
  | .busy => .invalidState
  | .unsupportedAudioFormat => .unsupportedAudioFormat
  | .cancelled => .cancelled
  | .backendError => .backendError
  | .outOfMemory => .outOfMemory
  | .limitExceeded => .queueFull
  | .internalError => .internalError

/-- `map_feed_status`, with `voxtral_stream_last_feed_status` looked up. -/
def mapFeedStatus (s : Stream α φ ε γ κ) (status : Status) : PublicStatus :=
  if status ≠ .limitExceeded then mapStatus status
  else if s.lifecycle.lastStatus = .limitExceeded ∧ s.events.decoderBackpressured then .queueFull
  else .invalidArgument

/-! ## Event text -/

/-- The width of the code point that starts at index `i` of a text whose first `stop` bytes are
available, when it is well formed (one pass of the loop of `utf8_prefix_at_most`). -/
def codePointWidthAt (text : Bytes) (stop i : ℕ) : Option ℕ :=
  let byte := fun j => (text.getD j 0).toNat
  let lead := byte i
  let continuation := fun j => 0x80 ≤ byte j ∧ byte j ≤ 0xbf
  if lead ≤ 0x7f then some 1
  else if 0xc2 ≤ lead ∧ lead ≤ 0xdf then
    if stop < i + 2 then none else if continuation (i + 1) then some 2 else none
  else if 0xe0 ≤ lead ∧ lead ≤ 0xef then
    if stop < i + 3 then none
    else if ¬ (continuation (i + 1) ∧ continuation (i + 2)) then none
    else if (lead = 0xe0 ∧ byte (i + 1) < 0xa0) ∨ (lead = 0xed ∧ 0xa0 ≤ byte (i + 1)) then none
    else some 3
  else if 0xf0 ≤ lead ∧ lead ≤ 0xf4 then
    if stop < i + 4 then none
    else if ¬ (continuation (i + 1) ∧ continuation (i + 2) ∧ continuation (i + 3)) then none
    else if (lead = 0xf0 ∧ byte (i + 1) < 0x90) ∨ (lead = 0xf4 ∧ 0x90 ≤ byte (i + 1)) then none
    else some 4
  else none

/-- At most `fuel` iterations of the loop of `utf8_prefix_at_most` from index `i`. -/
def utf8PrefixLoop (text : Bytes) (stop : ℕ) : ℕ → ℕ → ℕ
  | 0, i => i
  | fuel + 1, i =>
    if i < stop then
      match codePointWidthAt text stop i with
      | none => i
      | some width => utf8PrefixLoop text stop fuel (i + width)
    else i

/-- `utf8_prefix_at_most`. -/
def utf8PrefixAtMost (text : Bytes) (limit : ℕ) : ℕ :=
  let stop := min text.length limit
  utf8PrefixLoop text stop stop 0

/-- `voxtral_event`. -/
structure PublicEvent where
  type : EventType
  sequence : ℕ
  tokenId : ℤ
  status : PublicStatus
  specialToken : Bool
  textStable : Bool
  textTruncated : Bool
  audioStartMs : ℕ
  audioEndMs : ℕ
  /-- The text up to its terminating zero byte. -/
  text : Bytes
  deriving DecidableEq, Repr

/-- The bytes `copy_event_text` copies out of the first `stableBytes` of a text. -/
def copyEventText (source : Bytes) (stableBytes : ℕ) : Bytes :=
  source.take (utf8PrefixAtMost source (min (min stableBytes source.length) (eventTextCapacity - 1)))

/-- `event_status`. -/
def eventStatus (e : StreamEvent) : PublicStatus :=
  match e.type with
  | .cancelled => .cancelled
  | .error => mapStatus e.errorCode
  | _ => .ok

/-- The text a public event is copied from, and how much of it is stable. -/
def eventSource (e : StreamEvent) : Bytes × ℕ :=
  match e.type with
  | .partialText => (e.text, e.stablePrefixBytes)
  | .cancelled =>
    if e.text = [] then ("cancelled".toUTF8.toList, "cancelled".toUTF8.toList.length)
    else (e.text, e.text.length)
  | _ => (e.text, e.text.length)

/-- The public form of an event (`voxtral_stream_poll_event`).  CANCELLED is an error event with the
status of a cancellation. -/
def publicEvent (e : StreamEvent) (sequence : ℕ) : PublicEvent :=
  let endMs := e.tAudioSamples * 1000 / sampleRate
  let (text, stable) := eventSource e
  { type := if e.type = .cancelled then .error else e.type
    sequence := sequence
    tokenId := if e.type = .token then e.token else -1
    status := eventStatus e
    specialToken := e.special
    textStable := e.type = .partialText ∨ e.type = .finalText
    textTruncated := (copyEventText text stable).length < min stable text.length
    audioStartMs :=
      if e.type = .token ∨ e.type = .partialText then (if 80 ≤ endMs then endMs - 80 else 0) else 0
    audioEndMs := endMs
    text := copyEventText text stable }

/-! ## Operations -/

/-- A call on a stream. -/
inductive Op
  | feed (buf : FeedBuffer)
  | poll
  | finish
  | cancel

/-- What a call returns. -/
inductive Response
  | feed (status : PublicStatus) (consumed : ℕ)
  | poll (event : Option (StreamEvent × PublicEvent))
  | finish (status : PublicStatus)
  | cancel (status : PublicStatus)
  deriving DecidableEq

/-- `fail_stream_noexcept`. -/
def failStreamNoexcept (s : Stream α φ ε γ κ) (status : Status) (msg : String) :
    Stream α φ ε γ κ :=
  failStream
    (setError { s with events := { s.events with finalizingFlush := true } } status msg) status

/-- `voxtral_stream_feed_pcm16`. -/
def streamFeedPcm16 [Zero α] (eng : Engine α φ ε γ κ) (s : Stream α φ ε γ κ) (buf : FeedBuffer) :
    Option (Stream α φ ε γ κ × Response) :=
  let before := s.lifecycle.totalSamplesReceived
  (feedCommon eng s buf).map fun r =>
    let consumed := r.1.lifecycle.totalSamplesReceived - before
    let t :=
      if r.2 = .backendError ∨ r.2 = .outOfMemory ∨ r.2 = .internalError then
        failStreamNoexcept r.1 r.2 r.1.lifecycle.lastError
      else r.1
    (t, .feed (mapFeedStatus t r.2) consumed)

/-- `voxtral_stream_poll_event`. -/
def streamPollEvent (s : Stream α φ ε γ κ) : Stream α φ ε γ κ × Response :=
  match s.events.queue with
  | [] => (s, .poll none)
  | e :: rest =>
    let sequence := s.events.publicPollSequence + 1
    ({ s with events := { s.events with
        queue := rest
        polled := s.events.polled ++ [e]
        publicPollSequence := sequence } },
      .poll (some (e, publicEvent e sequence)))

/-- Answer one call. -/
def streamStep [Zero α] (eng : Engine α φ ε γ κ) (s : Stream α φ ε γ κ) :
    Op → Option (Stream α φ ε γ κ × Response)
  | .feed buf => streamFeedPcm16 eng s buf
  | .poll => some (streamPollEvent s)
  | .finish => (finishInternal eng s).map fun r => (r.1, .finish (mapStatus r.2))
  | .cancel => some ((cancelInternal s).1, .cancel (mapStatus (cancelInternal s).2))

/-- `voxtral_stream_get_final_text` of a completed stream. -/
def finalText (s : Stream α φ ε γ κ) : Option Bytes :=
  if s.lifecycle.state = .completed then some s.decoder.transcript else none

end Voxtral
