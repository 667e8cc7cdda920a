import Voxtral.Stream.Encoder

/-!
# The event queue

`voxtral-stream-events.cpp`: a bounded queue in which mandatory events are never dropped (a full queue
is reported to the caller) and snapshots of the text are replaceable.
-/

namespace Voxtral

variable {α φ ε γ κ : Type*}

/-- Bound of the queue: the configured capacity, and the fixed headroom during a terminal flush. -/
def Events.bound (ev : Events) : ℕ :=
  ev.maxEvents + if ev.finalizingFlush then terminalEventHeadroom else 0

/-- `note_enqueued`, for the queue it finds. -/
def noteEnqueued (ev : Events) (type : EventType) : Events :=
  { ev with
    eventsEmitted := ev.eventsEmitted + 1
    tokenEvents := if type = .token then ev.tokenEvents + 1 else ev.tokenEvents
    partialEvents := if type = .partialText then ev.partialEvents + 1 else ev.partialEvents
    eventQueueHighWatermark := max ev.eventQueueHighWatermark ev.queue.length }

/-- Real samples the frontend has received. -/
def acceptedSamples (s : Stream α φ ε γ κ) : ℕ := s.frontend.realSamples.length

/-- Append an event to the queue. -/
def enqueueEvent (s : Stream α φ ε γ κ) (e : StreamEvent) : Stream α φ ε γ κ :=
  { s with
    events := noteEnqueued { s.events with queue := s.events.queue ++ [e] } e.type
    trace := s.trace ++ [.enqueued e (acceptedSamples s)] }

/-- `push_event`: append a mandatory event, or report a full queue. -/
def pushEvent (s : Stream α φ ε γ κ) (e : StreamEvent) : Stream α φ ε γ κ × Bool :=
  if s.events.bound ≤ s.events.queue.length then
    (setError
      { s with events := { s.events with
          eventsOverflowed := true
          eventQueueOverflowAttempts := s.events.eventQueueOverflowAttempts + 1 } }
      .limitExceeded
      ("event queue full (bound " ++ toString s.events.bound ++ "): backpressure on " ++
        eventName e.type ++ " event"), false)
  else (enqueueEvent s e, true)

/-- Whether an event is a snapshot of the text. -/
def StreamEvent.isPartial (e : StreamEvent) : Bool := e.type = .partialText

/-- Replace the last snapshot of a queue in its place. -/
def replaceLastPartial : List StreamEvent → StreamEvent → Option (List StreamEvent)
  | [], _ => none
  | x :: xs, e =>
    match replaceLastPartial xs e with
    | some xs' => some (x :: xs')
    | none => if x.isPartial then some (e :: xs) else none

/-- Put a snapshot into the queue `queue` in the place of an older one. -/
def coalescePartial (s : Stream α φ ε γ κ) (e : StreamEvent) (queue : List StreamEvent) :
    Stream α φ ε γ κ :=
  { s with
    events := { s.events with
      queue := queue
      partialEventsCoalesced := s.events.partialEventsCoalesced + 1 }
    trace := s.trace ++ [.enqueued e (acceptedSamples s)] }

/-- `push_event_coalesced`: a snapshot moves behind the current token under aggressive coalescing,
and replaces the newest older snapshot of a full queue. -/
def pushEventCoalesced (s : Stream α φ ε γ κ) (e : StreamEvent) : Stream α φ ε γ κ × Bool :=
  if e.isPartial ∧ s.events.aggressivePartialCoalescing ∧
      s.events.queue.any StreamEvent.isPartial then
    (coalescePartial s e (s.events.queue.eraseP StreamEvent.isPartial ++ [e]), true)
  else if s.events.queue.length < s.events.bound then (enqueueEvent s e, true)
  else if e.isPartial then
    match replaceLastPartial s.events.queue e with
    | some queue => (coalescePartial s e queue, true)
    | none =>
      ({ s with events := { s.events with
          partialEventsCoalesced := s.events.partialEventsCoalesced + 1 } }, false)
  else pushEvent s e

/-- `audio_end_sample_for`: the real-audio sample at which the group of a decoder position ends. -/
def audioEndSampleFor (position : ℕ) : ℕ := (position + 1) * rawAudioLengthPerTok - streamLeftPad

/-- The TOKEN event of a step. -/
def tokenEvent (eng : Engine α φ ε γ κ) (p : PendingToken) (sequence : ℕ) : StreamEvent where
  type := .token
  token := p.token
  text := tokenPiece eng.tokenizer p.token
  special := p.special
  sequence := sequence
  decoderPosition := p.position
  audioEndSample := audioEndSampleFor p.position
  tAudioSamples := audioEndSampleFor p.position

/-- `emit_token_event`: the sequence number is committed only when the event was accepted. -/
def emitTokenEvent (eng : Engine α φ ε γ κ) (s : Stream α φ ε γ κ) (p : PendingToken) :
    Stream α φ ε γ κ × Bool :=
  let (s, pushed) := pushEventCoalesced s (tokenEvent eng p (s.decoder.tokenSequence + 1))
  if !pushed then (s, false)
  else
    ({ s with decoder := { s.decoder with tokenSequence := s.decoder.tokenSequence + 1 } }, true)

/-- The snapshot event of a decoder state. -/
def partialEvent (d : Decoder) (position : ℕ) : StreamEvent where
  type := .partialText
  text := d.partialText
  revision := d.partialRevision
  stablePrefixBytes := d.partialStableBytes
  audioEndSample := audioEndSampleFor position
  tAudioSamples := audioEndSampleFor position

/-- `emit_partial_text_event`. -/
def emitPartialTextEvent (s : Stream α φ ε γ κ) (position : ℕ) : Stream α φ ε γ κ :=
  let s := { s with
    decoder := { s.decoder with partialRevision := s.decoder.partialRevision + 1 }
    trace := s.trace ++
      [.partialPush s.events.queue s.events.bound s.events.aggressivePartialCoalescing] }
  (pushEventCoalesced s (partialEvent s.decoder position)).1

/-- `emit_final_and_completed`. -/
def emitFinalAndCompleted (s : Stream α φ ε γ κ) : Stream α φ ε γ κ :=
  let total := s.lifecycle.totalSamplesReceived
  let (s, _) := pushEvent s
    { type := .finalText, text := s.decoder.transcript, tAudioSamples := total }
  (pushEvent s { type := .completed, tAudioSamples := total }).1

/-- `emit_error`. -/
def emitError (s : Stream α φ ε γ κ) (status : Status) (msg : String) : Stream α φ ε γ κ :=
  (pushEvent s
    { type := .error, text := msg.toUTF8.toList, errorCode := status
      tAudioSamples := s.lifecycle.totalSamplesReceived }).1

end Voxtral
