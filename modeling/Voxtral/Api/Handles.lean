import Voxtral.Api.VersionedInputs
import Voxtral.Stream.Twins

/-!
# The handles of the C interface

A caller of the C interface holds contexts and streams.  A stream works on the device state of its context
(its rings, its K/V, its backend), which the next stream of that context will find as this one left it; the
flag `public_stream_active` says that a context has lent its state.  `libraryStep` answers the calls of a
caller who uses a handle only as long as it is alive.
-/

namespace Voxtral

variable {α φ ε γ κ : Type*}

/-! ## Objects -/

/-- What a context is made of when it is created. -/
structure ContextBackend (α φ ε γ κ : Type*) where
  engine : Engine α φ ε γ κ
  /-- `clear_kv_cache`. -/
  clearKv : κ → κ
  /-- `voxtral_context_supports_incremental_internal`. -/
  supportsIncremental : Bool

/-- `voxtral_context`, as far as the C interface and the streams use it. -/
structure PublicContext (α φ ε γ κ : Type*) where
  backend : ContextBackend α φ ε γ κ
  device : Device ε γ κ
  publicStreamActive : Bool := false
  publicLastStatus : ℕ := 0
  publicLastError : String := ""

/-- `voxtral_stream`: its context, and its records.  The device state in the records is out of date; a call
borrows that of the context. -/
structure PublicStream (α φ ε γ κ : Type*) where
  ctx : ℕ
  stream : Stream α φ ε γ κ

/-- The objects that are alive, by their handles.  Handles are numbered in the order of their creation. -/
structure Library (α φ ε γ κ : Type*) where
  contexts : ℕ → Option (PublicContext α φ ε γ κ) := fun _ => none
  streams : ℕ → Option (PublicStream α φ ε γ κ) := fun _ => none
  contextCount : ℕ := 0
  streamCount : ℕ := 0

/-! ## Calls -/

/-- How `voxtral_init_from_model` ends. -/
inductive InitOutcome (α φ ε γ κ : Type*)
  | badAlloc
  | threw
  | null
  | made (backend : ContextBackend α φ ε γ κ) (device : Device ε γ κ)

/-- How `voxtral_stream_create_from_context_internal` ends: it allocates, which may fail or throw, and resets
the context, behind which it may throw as well. -/
inductive StreamOutcome
  | null
  | badAlloc (reset : Bool)
  | threw (reset : Bool)
  | made

/-- A call of the C interface that creates, destroys or changes an object.  A handle is `none` for a null
pointer; `out` says whether the pointer for the new handle is not null. -/
inductive LibraryCall (α φ ε γ κ : Type*)
  | contextCreate (model : Bool) (config : Option InputMemory) (out : Bool)
      (init : InitOutcome α φ ε γ κ)
  | contextDestroy (context : Option ℕ)
  | streamCreate (context : Option ℕ) (params : Option InputMemory) (out : Bool) (outcome : StreamOutcome)
  | streamDestroy (stream : Option ℕ)
  | stream (stream : Option ℕ) (call : Call)

/-- What a call returns. -/
inductive LibraryResponse
  | created (status : ℕ) (handle : Option ℕ)
  | destroyed
  | stream (response : CallResponse)
  /-- `VOXTRAL_STATUS_INVALID_ARGUMENT` for a null stream. -/
  | nullStream

/-- `VOXTRAL_STATUS_MODEL_ERROR`. -/
def modelErrorCode : ℕ := 8

/-- `kMaxEvents`, which is also `VOXTRAL_EVENT_QUEUE_CAPACITY_MAX`. -/
def maxEventCapacity : ℕ := 4096

/-! ## Streams -/

/-- `voxtral_stream_reset`. -/
def streamReset (clearKv : κ → κ) (s : Stream α φ ε γ κ) : Stream α φ ε γ κ × PublicStatus :=
  if s.lifecycle.state = .running ∨ s.lifecycle.state = .finishing then
    (setError s .invalidState "reset requires a created or terminal stream", .invalidState)
  else (resetInternal clearKv s, .ok)

/-- Answer a call on a stream. -/
def publicStep [Zero α] (backend : ContextBackend α φ ε γ κ) (s : Stream α φ ε γ κ) :
    Call → Option (Stream α φ ε γ κ × CallResponse)
  | .op op => (streamStep backend.engine s op).map fun r => (r.1, .op r.2)
  | .reset =>
    let r := streamReset backend.clearKv s
    some (r.1, .reset r.2)

/-- `voxtral_stream_set_event_capacity_internal`. -/
def setEventCapacity (s : Stream α φ ε γ κ) (maxEvents : ℕ) : Option (Stream α φ ε γ κ) :=
  if maxEvents = 0 ∨ maxEventCapacity < maxEvents ∨ s.lifecycle.state ≠ .created ∨
      s.events.queue ≠ [] then none
  else some { s with events := { s.events with maxEvents := maxEvents } }

/-- The stream `voxtral_stream_create_from_context_internal` returns: a new one, reset. -/
def createFromContext (ctx : PublicContext α φ ε γ κ) : Stream α φ ε γ κ :=
  resetInternal ctx.backend.clearKv (Stream.create maxEventCapacity ctx.device)

namespace PublicContext

/-- `set_context_error`. -/
def setError (ctx : PublicContext α φ ε γ κ) (status : ℕ) (message : String) : PublicContext α φ ε γ κ :=
  { ctx with publicLastStatus := status, publicLastError := message }

/-- `voxtral_context_try_acquire_public_stream_internal`. -/
def tryAcquire (ctx : PublicContext α φ ε γ κ) : Option (PublicContext α φ ε γ κ) :=
  if ctx.publicStreamActive then none else some { ctx with publicStreamActive := true }

/-- `voxtral_context_release_public_stream_internal`. -/
def release (ctx : PublicContext α φ ε γ κ) : PublicContext α φ ε γ κ :=
  { ctx with publicStreamActive := false }

/-- The context behind a creation that threw. -/
def afterThrow (ctx : PublicContext α φ ε γ κ) (reset : Bool) : PublicContext α φ ε γ κ :=
  if reset then { ctx with device := decoderResetIncremental ctx.backend.clearKv ctx.device } else ctx

end PublicContext

/-! ## The library -/

namespace Library

/-- The context `c` changes. -/
def storeContext (lib : Library α φ ε γ κ) (c : ℕ) (ctx : PublicContext α φ ε γ κ) : Library α φ ε γ κ :=
  { lib with contexts := Function.update lib.contexts c (some ctx) }

/-- A creation on the context `c` is refused. -/
def refuse (lib : Library α φ ε γ κ) (c : ℕ) (ctx : PublicContext α φ ε γ κ) (status : ℕ)
    (message : String) : Option (Library α φ ε γ κ × LibraryResponse) :=
  some (lib.storeContext c (ctx.setError status message), .created status none)

/-- `voxtral_context_create`. -/
def contextCreate (lib : Library α φ ε γ κ) (model : Bool) (config : Option InputMemory) (out : Bool)
    (init : InitOutcome α φ ε γ κ) : Option (Library α φ ε γ κ × LibraryResponse) :=
  if !model ∨ !out then some (lib, .created PublicStatus.invalidArgument.code none)
  else
    (normalizeContextConfig config).map fun normalized =>
      if !normalized.2 ∨ normalized.1.nThreads < 0 ∨ normalized.1.flags ≠ 0 then
        (lib, .created PublicStatus.invalidArgument.code none)
      else
        match init with
        | .badAlloc => (lib, .created PublicStatus.outOfMemory.code none)
        | .threw | .null => (lib, .created PublicStatus.backendError.code none)
        | .made backend device =>
          ({ lib with
              contexts := Function.update lib.contexts lib.contextCount
                (some (PublicContext.setError { backend, device } PublicStatus.ok.code ""))
              contextCount := lib.contextCount + 1 },
            .created PublicStatus.ok.code (some lib.contextCount))

/-- `voxtral_context_destroy`. -/
def contextDestroy (lib : Library α φ ε γ κ) (context : Option ℕ) :
    Option (Library α φ ε γ κ × LibraryResponse) :=
  match context with
  | none => some (lib, .destroyed)
  | some c =>
    (lib.contexts c).map fun ctx =>
      if ctx.publicStreamActive then
        (lib.storeContext c (ctx.setError PublicStatus.invalidState.code
          "cannot destroy context while a stream is alive"), .destroyed)
      else ({ lib with contexts := Function.update lib.contexts c none }, .destroyed)

/-- `voxtral_stream_create` behind its argument checks. -/
def streamCreateOn (lib : Library α φ ε γ κ) (c : ℕ) (ctx : PublicContext α φ ε γ κ) (capacity : ℕ)
    (outcome : StreamOutcome) : Option (Library α φ ε γ κ × LibraryResponse) :=
  match ctx.tryAcquire with
  | none =>
    lib.refuse c ctx PublicStatus.invalidState.code "one live stream per context is supported in API v1"
  | some acquired =>
    match outcome with
    | .null =>
      lib.refuse c acquired.release PublicStatus.outOfMemory.code "failed to allocate stream state"
    | .badAlloc reset =>
      lib.refuse c (acquired.afterThrow reset).release PublicStatus.outOfMemory.code
        "stream creation allocation failed"
    | .threw reset =>
      lib.refuse c (acquired.afterThrow reset).release PublicStatus.internalError.code
        "stream creation threw an internal exception"
    | .made =>
      let created := createFromContext acquired
      let used := { acquired with device := created.device }
      match setEventCapacity created capacity with
      | none =>
        lib.refuse c used.release PublicStatus.invalidArgument.code "invalid event queue capacity"
      | some s =>
        let stored := lib.storeContext c (used.setError PublicStatus.ok.code "")
        some ({ stored with
          streams := Function.update lib.streams lib.streamCount (some ⟨c, s⟩)
          streamCount := lib.streamCount + 1 }, .created PublicStatus.ok.code (some lib.streamCount))

/-- The stream parameters that `voxtral_stream_create` takes. -/
def acceptsParams (params : PublicStreamParams × Bool) : Bool :=
  params.2 && params.1.flags = 0 && params.1.reserved = 0 && params.1.audio.reserved = 0 &&
    params.1.eventQueueCapacity ≠ 0 && params.1.eventQueueCapacity ≤ maxEventCapacity

/-- The audio that `voxtral_stream_create` takes. -/
def acceptsAudio (audio : AudioConfig) : Bool :=
  audio.sampleRate = sampleRate && audio.channels = 1 && audio.format = 1

/-- `voxtral_stream_create`. -/
def streamCreate (lib : Library α φ ε γ κ) (context : Option ℕ) (params : Option InputMemory) (out : Bool)
    (outcome : StreamOutcome) : Option (Library α φ ε γ κ × LibraryResponse) :=
  match context with
  | none => some (lib, .created PublicStatus.invalidArgument.code none)
  | some c =>
    (lib.contexts c).bind fun ctx =>
      if params.isNone ∨ !out then
        lib.refuse c ctx PublicStatus.invalidArgument.code
          "stream create requires context, params and out_stream"
      else
        (normalizeStreamParams params).bind fun normalized =>
          if !acceptsParams normalized then
            lib.refuse c ctx PublicStatus.invalidArgument.code
              "invalid stream parameter structure or queue capacity"
          else if !acceptsAudio normalized.1.audio then
            lib.refuse c ctx PublicStatus.unsupportedAudioFormat.code
              "only mono 16000 Hz signed PCM16LE is supported"
          else if !ctx.backend.supportsIncremental then
            lib.refuse c ctx modelErrorCode
              "the loaded model does not support realtime incremental streaming"
          else lib.streamCreateOn c ctx normalized.1.eventQueueCapacity outcome

/-- `voxtral_stream_destroy`. -/
def streamDestroy (lib : Library α φ ε γ κ) (stream : Option ℕ) :
    Option (Library α φ ε γ κ × LibraryResponse) :=
  match stream with
  | none => some (lib, .destroyed)
  | some h =>
    (lib.streams h).bind fun ps =>
      (lib.contexts ps.ctx).map fun ctx =>
        ({ lib.storeContext ps.ctx ctx.release with
            streams := Function.update lib.streams h none }, .destroyed)

/-- A call on a stream, which works on the device of its context. -/
def streamCall [Zero α] (lib : Library α φ ε γ κ) (stream : Option ℕ) (call : Call) :
    Option (Library α φ ε γ κ × LibraryResponse) :=
  match stream with
  | none => some (lib, .nullStream)
  | some h =>
    (lib.streams h).bind fun ps =>
      (lib.contexts ps.ctx).bind fun ctx =>
        (publicStep ctx.backend { ps.stream with device := ctx.device } call).map fun r =>
          ({ lib.storeContext ps.ctx { ctx with device := r.1.device } with
              streams := Function.update lib.streams h (some ⟨ps.ctx, r.1⟩) }, .stream r.2)

end Library

/-- Answer one call of the C interface. -/
def libraryStep [Zero α] (lib : Library α φ ε γ κ) :
    LibraryCall α φ ε γ κ → Option (Library α φ ε γ κ × LibraryResponse)
  | .contextCreate model config out init => lib.contextCreate model config out init
  | .contextDestroy context => lib.contextDestroy context
  | .streamCreate context params out outcome => lib.streamCreate context params out outcome
  | .streamDestroy stream => lib.streamDestroy stream
  | .stream stream call => lib.streamCall stream call

end Voxtral
