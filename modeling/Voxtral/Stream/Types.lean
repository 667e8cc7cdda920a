import Voxtral.Lib.HistoryRing
import Voxtral.Mel.Frontend
import Voxtral.Stream.Tokenizer

/-!
# The stream object and its engine

`voxtral_stream` of a public incremental stream, with its sub-structures, over an abstract execution
engine: one encoder frame is a function of the Mel prefix it attends to, one adapter group a function
of its four encoder rows, a decoder step a function of the decoder state, the previous token, the
position and the audio embedding it reads.

Two things are recorded that the source does not store: every row of a device ring carries the
position it was written for, and `trace` lists the device operations and the accepted events in
order.  Neither influences a result.

Left out are the reentrancy guard, the lifecycle-only and reference modes, the diagnostic hashes and
the wall-clock telemetry.
-/

namespace Voxtral

/-! ## Engine and parameters -/

/-- `encoder_kv_schedule`: frames per logical batch and rows per physical query block. -/
structure EncoderSchedule where
  logical : ℕ
  physical : ℕ
  /-- The grids `normalize_physical_rows` produces. -/
  physical_mem : physical ∈ [4, 8, 16, 32, 64, 128]
  logical_pos : 0 < logical
  logical_dvd : logical ∣ physical

/-- The production default: four frames in a block of four rows. -/
def defaultSchedule : EncoderSchedule := ⟨4, 4, by decide, by decide, by decide⟩

/-- The execution engine of a stream: the functions its graphs compute, the tokenizer and the encoder
grids, and which graph submissions fail. -/
structure Engine (α φ ε γ κ : Type*) where
  /-- The float a signed 16-bit sample converts to. -/
  sampleOf : ℤ → α
  /-- `voxtral_mel_frame_from_window`. -/
  melFrame : List α → φ
  /-- The encoder frame whose Mel prefix this is. -/
  encoderFrame : List φ → ε
  /-- The audio embedding of a group of encoder rows. -/
  adapterGroup : List ε → γ
  /-- The decoder state after the prompt was prefilled over these audio embeddings. -/
  prefill : List ℤ → List γ → κ
  /-- One decoder step: the previous token, the position and its audio embedding. -/
  decoderStep : κ → ℤ → ℕ → γ → ℤ × κ
  tokenizer : Tokenizer
  schedule : EncoderSchedule
  /-- `encoder_finish_physical`. -/
  finishPhysical : ℕ
  finishPhysical_mem : finishPhysical ∈ [4, 8, 16, 32, 64, 128]
  /-- Whether the `n`-th graph submission fails. -/
  submitFails : ℕ → Bool

/-- `voxtral_stream_params_internal`, as far as a stream of fixed format uses it. -/
structure StreamParams where
  /-- `0` or less decodes every audio position. -/
  maxTokens : ℤ := 0
  maxTotalSamples : ℕ := uint64Max
  retainMelHistory : Bool := false

/-! ## Events -/

/-- `voxtral_stream_event_type_internal`. -/
inductive EventType
  | token
  | partialText
  | finalText
  | error
  | completed
  | cancelled
  deriving DecidableEq, Repr

/-- `voxtral_stream_event_name`. -/
def eventName : EventType → String
  | .token => "token"
  | .partialText => "partial_text"
  | .finalText => "final_text"
  | .error => "error"
  | .completed => "completed"
  | .cancelled => "cancelled"

/-- `voxtral_status_internal`. -/
inductive Status
  | ok
  | invalidArgument
  | invalidState
  | busy
  | unsupportedAudioFormat
  | cancelled
  | backendError
  | outOfMemory
  | limitExceeded
  | internalError
  deriving DecidableEq, Repr

/-- `voxtral_stream_event_internal`.  The audio time `t_audio_ms` is kept as the number of samples it
is computed from. -/
structure StreamEvent where
  type : EventType
  token : ℤ := 0
  text : Bytes := []
  /-- The sample count whose time in milliseconds is `t_audio_ms`. -/
  tAudioSamples : ℕ := 0
  errorCode : Status := .ok
  sequence : ℕ := 0
  decoderPosition : ℕ := 0
  audioEndSample : ℕ := 0
  special : Bool := false
  revision : ℕ := 0
  stablePrefixBytes : ℕ := 0
  deriving DecidableEq, Repr

/-! ## The stream -/

/-- `voxtral_stream_state_internal`. -/
inductive StreamState
  | created
  | running
  | finishing
  | completed
  | cancelled
  | failed
  deriving DecidableEq, Repr

/-- `lifecycle_state`. -/
structure Lifecycle where
  state : StreamState := .created
  lastStatus : Status := .ok
  lastError : String := ""
  cancelRequested : Bool := false
  cancelledEmitted : Bool := false
  totalSamplesReceived : ℕ := 0
  totalSamplesConsumed : ℕ := 0
  feedCalls : ℕ := 0
  inferenceRuns : ℕ := 0

/-- `voxtral_encoder_stream` with its `voxtral_encoder_kv_state`.  `melHistory` is a history variable:
all Mel frames pushed so far. -/
structure EncoderStream (φ : Type*) where
  /-- Absolute encoder frames produced. -/
  emitted : ℕ := 0
  /-- Mel frames received. -/
  stableMel : ℕ := 0
  /-- The Mel frames retained for the convolution, the first one being frame `tailBase`. -/
  melTail : List φ := []
  tailBase : ℕ := 0
  finalized : Bool := false
  melHistory : List φ := []

/-- `frontend_state`; the Mel frontend and the encoder are created before the first sample instead of
lazily at it.  `realSamples` is a history variable: the real samples handed to the Mel frontend. -/
structure Frontend (α φ : Type*) where
  melFe : MelFrontend α φ
  leftPadInjected : Bool := false
  enc : EncoderStream φ := {}
  encPushedFrames : ℕ := 0
  realSamples : List α := []

/-- `pending_token`: a step that ran but whose event has not fitted the queue. -/
structure PendingToken where
  token : ℤ
  position : ℕ
  special : Bool
  deriving DecidableEq, Repr

/-- `decoder_state` of an incremental stream. -/
structure Decoder where
  adapterGroupsCommitted : ℕ := 0
  adapterCommitCalls : ℕ := 0
  decoderPrefillDone : Bool := false
  decoderPrevToken : ℤ := 0
  decoderPosition : ℕ := 0
  decoderSteps : ℕ := 0
  decoderTokensEmitted : ℕ := 0
  tokensBeforeFinish : ℕ := 0
  decoderEos : Bool := false
  tokenSequence : ℕ := 0
  partialRevision : ℕ := 0
  partialText : Bytes := []
  partialStableBytes : ℕ := 0
  pending : Option PendingToken := none
  tokens : List ℤ := []
  transcript : Bytes := []
  deriving DecidableEq

/-- `event_state`.  `polled` is a history variable: the events taken from the queue. -/
structure Events where
  queue : List StreamEvent := []
  maxEvents : ℕ := maxEventsLimit
  eventsOverflowed : Bool := false
  eventsEmitted : ℕ := 0
  tokenEvents : ℕ := 0
  partialEvents : ℕ := 0
  partialEventsCoalesced : ℕ := 0
  eventQueueHighWatermark : ℕ := 0
  eventQueueOverflowAttempts : ℕ := 0
  publicPollSequence : ℕ := 0
  decoderBackpressured : Bool := false
  finalizingFlush : Bool := false
  aggressivePartialCoalescing : Bool := false
  polled : List StreamEvent := []

/-- The device state of the context the stream leased, and the number of graphs submitted to it. -/
structure Device (ε γ κ : Type*) where
  encOutRing : HistoryRing ε
  audioEmbRing : HistoryRing γ
  decKv : κ
  submits : ℕ := 0

/-- One entry of the history of a stream. -/
inductive TraceEntry (ε γ : Type*)
  /-- A graph ran over the encoder frames `[qStart, qStart + n)`. -/
  | encoderRun (qStart n physical : ℕ)
  /-- The audio embedding of a group was computed from these encoder rows. -/
  | adapterGroup (group : ℕ) (rows : List (RingRow ε))
  /-- The decoder was prefilled over these audio embeddings. -/
  | prefill (rows : List (RingRow γ))
  /-- A decoder step ran at `position` and returned `result`. -/
  | decoderStep (prevToken : ℤ) (position : ℕ) (row : RingRow γ) (result : ℤ)
  /-- An event was appended to the queue when `accepted` real samples were with the frontend. -/
  | enqueued (event : StreamEvent) (accepted : ℕ)
  /-- A snapshot was about to be pushed in this situation. -/
  | partialPush (queue : List StreamEvent) (bound : ℕ) (aggressive : Bool)

/-- `voxtral_stream`. -/
structure Stream (α φ ε γ κ : Type*) where
  params : StreamParams := {}
  lifecycle : Lifecycle := {}
  frontend : Frontend α φ
  decoder : Decoder := {}
  events : Events := {}
  device : Device ε γ κ
  trace : List (TraceEntry ε γ) := []

/-- A freshly created (or reset) public stream on a device in any state. -/
def Stream.create {α φ ε γ κ : Type*} (maxEvents : ℕ) (device : Device ε γ κ) :
    Stream α φ ε γ κ where
  frontend := { melFe := { retainHistory := false } }
  events := { maxEvents := maxEvents }
  device := device

end Voxtral
