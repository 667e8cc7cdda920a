import Voxtral.Server.Messages

/-!
# The two threads of a realtime session

The worker and the IO thread share the cancellation token, the flags of the input queue, the outbound
queue and the request to close.  A step of a thread goes from one access to these to the next.  What the
engine answers, what the client sends and when the timers fire is free.  The transport does not fail, and
the outbound queue takes what the IO thread enqueues; a worker that waits for room there takes its step
later.  The merging of partial transcripts in the queue is left out: it concerns no other message.
-/

namespace Voxtral

/-- The close code of `request_close_after_drain`. -/
inductive CloseCode
  | normal
  | goingAway
  | policyError
  | internalError
  deriving DecidableEq, Repr

/-- A message that ends a session. -/
def ServerMessage.isTerminal : ServerMessage → Bool
  | .completed _ => true
  | .cancelled => true
  | .error _ _ fatal => fatal
  | _ => false

/-- A `transcript.final`. -/
def ServerMessage.isFinal : ServerMessage → Bool
  | .final _ _ _ => true
  | _ => false

/-- `api_error_code`. -/
def apiErrorCode : PublicStatus → String
  | .invalidArgument => "invalid_argument"
  | .invalidState => "invalid_state"
  | .outOfMemory => "out_of_memory"
  | .unsupportedAudioFormat => "unsupported_audio_format"
  | .backendError => "backend_error"
  | .cancelled => "cancelled"
  | _ => "internal_error"

/-- `safe_status_message`. -/
def safeStatusMessage : PublicStatus → String
  | .invalidArgument => "The inference request is invalid."
  | .invalidState => "The inference stream is in an invalid state."
  | .outOfMemory => "The server ran out of memory."
  | .queueFull => "The inference output queue is full."
  | .notReady => "The inference result is not ready."
  | .cancelled => "The inference request was cancelled."
  | .unsupportedAudioFormat => "The audio format is unsupported."
  | .backendError => "The inference backend failed."
  | .internalError => "The server encountered an internal inference error."
  | .ok => "OK"

/-! ## Where the threads are -/

/-- What a feed of audio came to; `more` samples of the chunk are left. -/
inductive FeedAnswer
  | ok (more : Bool)
  | queueFull (more : Bool)
  | failed (code message : String)
  deriving DecidableEq

/-- The caller of `resume_backpressure`: `feed_audio`, with samples left or not, or the loop around
`finish`. -/
inductive ResumeCaller
  | feed (more : Bool)
  | finish
  deriving DecidableEq

/-- The calls of `drain_events`. -/
inductive DrainSite
  | afterFeed (answer : FeedAnswer)
  | resume (caller : ResumeCaller)
  | resumed (caller : ResumeCaller)
  | last
  deriving DecidableEq

/-- The next access of the worker. -/
inductive WorkerPoint
  | createStream
  | pop
  /-- `cancellation_->requested()` behind a pop of audio, or of the end. -/
  | popCheck (ended : Bool)
  | feedCheck
  | drain (site : DrainSite)
  | drainEnqueue (site : DrainSite) (event : PublicEvent)
  /-- `cancellation_->requested()` behind an event that says CANCELLED. -/
  | cancelledEvent (site : DrainSite)
  | resumeCheck (caller : ResumeCaller)
  | resumeFeed (caller : ResumeCaller)
  /-- `feed_audio` returned `false`. -/
  | feedFailed
  | observeLag
  | lagEnqueue
  | lagClose
  | warn
  | finishCheck
  /-- `state`, `final_text` and `metrics` behind the last drain. -/
  | readFinal
  | enqueueFinal (text : Bytes)
  | enqueueCompleted
  | finalRefused
  | completedClose
  | handleCancellation
  | cancelledEnqueue
  | cancellationClose (code : CloseCode)
  | failure (code message : String)
  | failureEnqueue (code message : String)
  | failureClose
  | done
  deriving DecidableEq

/-- What the IO thread tells the client when it gives a session up. -/
inductive IoFailure
  | protocol (code message : String)
  | shutdown
  deriving DecidableEq

/-- The next access of the IO thread; `idle` between two handlers. -/
inductive IoPoint
  | idle
  /-- `input_queue_.cancel()`, behind the request to cancel. -/
  | cancelInput (failure : Option IoFailure)
  | enqueueFailure (failure : IoFailure)
  | requestClose (failure : IoFailure)
  deriving DecidableEq

/-- The members of a configured `RealtimeSession` that the threads share, and where they are. -/
structure SessionThreads where
  cancellation : Cancellation := {}
  inputFinishing : Bool := false
  inputCancelled : Bool := false
  inputEnded : Bool := false
  readInProgress : Bool := true
  /-- All messages enqueued so far. -/
  enqueued : List ServerMessage := []
  /-- The messages not written yet. -/
  outbound : List ServerMessage := []
  closeAfterDrain : Bool := false
  closeCode : CloseCode := .normal
  /-- `closed_`, and with it `outbound_closed_`. -/
  closed : Bool := false
  terminal : TerminalEvents := {}
  worker : WorkerPoint := .createStream
  io : IoPoint := .idle

/-- What the engine and the input queue answer the worker. -/
inductive WorkerAnswer
  | ok
  | failed (code message : String)
  | audio
  | finish
  | feed (answer : FeedAnswer)
  | event (event : PublicEvent)
  | notReady
  /-- The lag is above the hard limit, or a warning is due. -/
  | hardLag
  | softLag
  | queueFull
  /-- The state of the stream is COMPLETED; its text. -/
  | completed (text : Bytes)
  /-- The payload is larger than the outbound queue. -/
  | tooLarge
  deriving DecidableEq

/-- An event of the IO thread. -/
inductive IoCall
  | readAudio
  | readPing (id : String)
  | readFinish
  | readCancel
  /-- The read completes with a message that `protocol_failure` reports. -/
  | readInvalid (code message : String)
  | readNext
  | idleTimeout
  | shutdown
  /-- The handler goes on to its next access. -/
  | proceed
  /-- A write completes. -/
  | write
  /-- The queue is drained, and the transport closed. -/
  | closeTransport

namespace SessionThreads

/-! ## Accesses -/

/-- `cancellation_->requested()`. -/
def requested (s : SessionThreads) : Bool := s.cancellation.requested

/-- `cancellation_->request`. -/
def request (s : SessionThreads) (reason : CancelReason) : SessionThreads :=
  { s with cancellation := s.cancellation.request reason }

/-- `enqueue_from_io`, and `enqueue_from_worker` when there is room. -/
def enqueue (s : SessionThreads) (message : ServerMessage) : SessionThreads :=
  if s.closed then s
  else { s with enqueued := s.enqueued ++ [message], outbound := s.outbound ++ [message] }

/-- `request_close_after_drain`. -/
def requestCloseAfterDrain (s : SessionThreads) (code : CloseCode) : SessionThreads :=
  if s.closeAfterDrain then s else { s with closeAfterDrain := true, closeCode := code }

/-- `finish_session`. -/
def finishSession (s : SessionThreads) : SessionThreads :=
  { s with closed := true, inputCancelled := true, outbound := [] }

/-- The worker goes on to `point`. -/
def goTo (s : SessionThreads) (point : WorkerPoint) : SessionThreads := { s with worker := point }

/-! ## The worker -/

/-- `enqueue_from_worker` returns `false`. -/
def refuses (s : SessionThreads) : Bool := s.closed ∨ s.cancellation.reason = .disconnect

/-- Behind a chunk that was fed. -/
def nextFeed (more : Bool) : WorkerPoint := if more then .feedCheck else .observeLag

/-- Behind a drain that returned `true`. -/
def drained : DrainSite → WorkerPoint
  | .afterFeed (.ok more) => nextFeed more
  | .afterFeed (.queueFull more) => .resumeCheck (.feed more)
  | .afterFeed (.failed code message) => .failure code message
  | .resume caller => .resumeFeed caller
  | .resumed (.feed more) => nextFeed more
  | .resumed .finish => .finishCheck
  | .last => .readFinal

/-- Behind a `resume_backpressure` that returned `false`. -/
def resumeRefused : ResumeCaller → WorkerPoint
  | .feed _ => .feedFailed
  | .finish => .done

/-- Behind a drain that returned `false`. -/
def drainRefused : DrainSite → WorkerPoint
  | .afterFeed _ => .feedFailed
  | .resume caller => resumeRefused caller
  | .resumed caller => resumeRefused caller
  | .last => .done

/-- An `EngineError` of this status. -/
def engineError (status : PublicStatus) : WorkerPoint :=
  .failure (apiErrorCode status) (safeStatusMessage status)

/-- The round of `drain_events` that polled `event`. -/
def drainEvent (config : RealtimeConfiguration) (s : SessionThreads) (site : DrainSite)
    (event : PublicEvent) : SessionThreads :=
  match event.type with
  | .error | .cancelled =>
    s.goTo (if event.status = .cancelled then .cancelledEvent site else engineError event.status)
  | _ =>
    let s := { s with terminal := s.terminal.observe event }
    if (eventMessage config event).isSome then s.goTo (.drainEnqueue site event) else s

/-- The text of the error for a lag above the hard limit. -/
def capacityExceeded : ServerMessage :=
  .error "realtime_capacity_exceeded"
    "The server cannot process this stream within the configured realtime latency limit." true

/-- The worker takes a step, on this answer of the engine or the input queue. -/
def workerStep (config : RealtimeConfiguration) (s : SessionThreads) (answer : WorkerAnswer) :
    Option SessionThreads :=
  match s.worker, answer with
  | .createStream, .ok => some (s.goTo .pop)
  | .createStream, .failed code message => some (s.goTo (.failure code message))
  | .pop, .audio => some (s.goTo (if s.inputCancelled then .handleCancellation else .popCheck false))
  | .pop, .finish =>
    if s.inputCancelled then some (s.goTo .handleCancellation)
    else if s.inputFinishing then some (s.goTo (.popCheck true))
    else none
  | .popCheck ended, .ok =>
    some (s.goTo (if s.requested then .handleCancellation else if ended then .finishCheck else .feedCheck))
  | .feedCheck, .feed answer =>
    some (s.goTo (if s.requested then .feedFailed else .drain (.afterFeed answer)))
  | .drain site, .notReady => some (s.goTo (if s.requested then drainRefused site else drained site))
  | .drain site, .event event =>
    some (if s.requested then s.goTo (drainRefused site) else drainEvent config s site event)
  | .drain site, .failed code message =>
    some (s.goTo (if s.requested then drainRefused site else .failure code message))
  | .drainEnqueue site event, .ok =>
    match eventMessage config event with
    | some message =>
      some (if s.refuses then s.goTo (drainRefused site)
        else (s.enqueue message.payload).goTo (.drain site))
    | none => some (s.goTo (.drain site))
  | .cancelledEvent site, .ok =>
    some (s.goTo (if s.requested then drainRefused site else engineError .cancelled))
  | .resumeCheck caller, .ok =>
    some (s.goTo (if s.requested then resumeRefused caller else .drain (.resume caller)))
  | .resumeFeed caller, .ok => some (s.goTo (.drain (.resumed caller)))
  | .resumeFeed caller, .queueFull => some (s.goTo (.resumeCheck caller))
  | .resumeFeed _, .failed code message => some (s.goTo (.failure code message))
  | .feedFailed, .ok => some (s.goTo (if s.requested then .handleCancellation else .done))
  | .observeLag, .hardLag => some ((s.request .capacity).goTo .lagEnqueue)
  | .observeLag, .softLag => some (s.goTo .warn)
  | .observeLag, .ok => some (s.goTo .pop)
  | .observeLag, .failed code message => some (s.goTo (.failure code message))
  | .lagEnqueue, .ok =>
    some (if s.refuses then s.goTo .lagClose else (s.enqueue capacityExceeded).goTo .lagClose)
  | .lagClose, .ok => some ((s.requestCloseAfterDrain .policyError).goTo .handleCancellation)
  | .warn, .ok =>
    some (if s.refuses then s.goTo .handleCancellation else (s.enqueue .warning).goTo .pop)
  | .finishCheck, .ok => some (s.goTo (if s.requested then .handleCancellation else .drain .last))
  | .finishCheck, .queueFull =>
    some (s.goTo (if s.requested then .handleCancellation else .resumeCheck .finish))
  | .finishCheck, .failed code message =>
    some (s.goTo (if s.requested then .handleCancellation else .failure code message))
  | .readFinal, .completed text =>
    some (s.goTo (if s.terminal.finalSeen ∧ s.terminal.completedSeen then .enqueueFinal text
      else engineError .internalError))
  | .readFinal, .failed code message => some (s.goTo (.failure code message))
  | .enqueueFinal text, .ok =>
    some (if s.refuses then s.goTo .finalRefused
      else (s.enqueue (.final s.terminal.finalSequence text s.terminal.finalAudioEndMs)).goTo
        .enqueueCompleted)
  | .enqueueFinal _, .tooLarge => some (s.goTo .finalRefused)
  | .enqueueCompleted, .ok =>
    some (if s.refuses then s.goTo .finalRefused
      else (s.enqueue (.completed s.terminal.completedSequence)).goTo .completedClose)
  | .finalRefused, .ok =>
    some (s.goTo (if s.requested then .done
      else .failure "internal_error" "The final transcript exceeds the server event limit."))
  | .completedClose, .ok => some ((s.requestCloseAfterDrain .normal).goTo .done)
  | .handleCancellation, .ok =>
    some (s.goTo (match s.cancellation.reason with
      | .client => .cancelledEnqueue
      | .capacity => .cancellationClose .policyError
      | _ => .done))
  | .cancelledEnqueue, .ok =>
    some (if s.refuses then s.goTo (.cancellationClose .normal)
      else (s.enqueue .cancelled).goTo (.cancellationClose .normal))
  | .cancellationClose code, .ok => some ((s.requestCloseAfterDrain code).goTo .done)
  | .failure code message, .ok =>
    some (s.goTo (if s.requested then .done else .failureEnqueue code message))
  | .failureEnqueue code message, .ok =>
    some (if s.refuses then s.goTo .failureClose
      else (s.enqueue (.error code message true)).goTo .failureClose)
  | .failureClose, .ok => some ((s.requestCloseAfterDrain .internalError).goTo .done)
  | _, _ => none

/-! ## The IO thread -/

/-- The reason with which a failure cancels. -/
def failureReason : IoFailure → CancelReason
  | .protocol _ _ => .protocol
  | .shutdown => .shutdown

/-- The message of a failure. -/
def failureMessage : IoFailure → ServerMessage
  | .protocol code message => .error code message true
  | .shutdown => .error "shutting_down" "The server is shutting down." true

/-- The close code of a failure. -/
def failureCloseCode : IoFailure → CloseCode
  | .protocol _ _ => .policyError
  | .shutdown => .goingAway

/-- `protocol_failure` and `initiate_shutdown`, up to `input_queue_.cancel()`. -/
def beginFailure (s : SessionThreads) (failure : IoFailure) : SessionThreads :=
  if s.closed then s
  else
    { s.request (failureReason failure) with
      inputEnded := s.inputEnded ∨ failure ≠ .shutdown
      io := .cancelInput (some failure) }

/-- A read completes. -/
def readDone (s : SessionThreads) : SessionThreads := { s with readInProgress := false }

/-- The accesses of a handler behind its first one. -/
def proceed (s : SessionThreads) : Option SessionThreads :=
  match s.io with
  | .idle => none
  | .cancelInput none => some { s with inputCancelled := true, io := .idle }
  | .cancelInput (some failure) => some { s with inputCancelled := true, io := .enqueueFailure failure }
  | .enqueueFailure failure =>
    some { s.enqueue (failureMessage failure) with io := .requestClose failure }
  | .requestClose failure =>
    some { s.requestCloseAfterDrain (failureCloseCode failure) with io := .idle }

/-- A handler of the IO thread begins. -/
def handle (s : SessionThreads) : IoCall → Option SessionThreads
  | .readAudio => if s.readInProgress ∧ ¬ s.closed then some s.readDone else none
  | .readPing id => if s.readInProgress ∧ ¬ s.closed then some (s.readDone.enqueue (.pong id)) else none
  | .readFinish =>
    if s.readInProgress ∧ ¬ s.closed then
      some { s.readDone with inputEnded := true, inputFinishing := true }
    else none
  | .readCancel =>
    if s.readInProgress ∧ ¬ s.closed then
      some { s.readDone.request .client with inputEnded := true, io := .cancelInput none }
    else none
  | .readInvalid code message =>
    if s.readInProgress ∧ ¬ s.closed then some (s.readDone.beginFailure (.protocol code message))
    else none
  | .readNext =>
    if s.closed ∨ s.closeAfterDrain ∨ s.inputEnded ∨ s.readInProgress then none
    else some { s with readInProgress := true }
  | .idleTimeout =>
    if s.closed ∨ s.inputEnded then some s
    else some (s.beginFailure (.protocol "idle_timeout"
      "The realtime session exceeded its client-frame idle timeout."))
  | .shutdown => some (s.beginFailure .shutdown)
  | .write => if s.outbound = [] ∨ s.closed then none else some { s with outbound := s.outbound.tail }
  | .closeTransport =>
    if s.closeAfterDrain ∧ s.outbound = [] ∧ ¬ s.closed then some s.finishSession else none
  | .proceed => none

/-- The IO thread takes a step. -/
def ioStep (s : SessionThreads) (call : IoCall) : Option SessionThreads :=
  match s.io, call with
  | .idle, call => s.handle call
  | _, .proceed => s.proceed
  | _, _ => none

end SessionThreads

/-- A step of one of the threads. -/
inductive SessionCall
  | worker (answer : WorkerAnswer)
  | io (call : IoCall)

/-- One step of a session. -/
def sessionStep (config : RealtimeConfiguration) (s : SessionThreads) :
    SessionCall → Option (SessionThreads × Unit)
  | .worker answer => (s.workerStep config answer).map fun s' => (s', ())
  | .io call => (s.ioStep call).map fun s' => (s', ())

end Voxtral
