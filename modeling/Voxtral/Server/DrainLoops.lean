import Voxtral.Server.Messages
import Voxtral.Server.PcmPath
import Voxtral.Stream.Drain

/-!
# The loops that drive a stream

`transcribe_batch` and the worker of a realtime session feed a stream, poll its events, resume it when its
queue was full and finish it, with loops of one shape that differ in what they do with an event and with a
failure.  Here they run while nothing cancels them.  A loop is given the number of rounds it may take and
has no result when that is too small, or when a call on the stream has none.
-/

namespace Voxtral

variable {α φ ε γ κ ρ : Type*}

/-- What a loop does with a polled event and with a failed call; `false` ends the loop. -/
structure StreamCaller (ρ : Type*) where
  onEvent : PublicEvent → ρ → ρ × Bool
  onFailure : PublicStatus → Bytes → ρ → ρ

namespace EngineStream

/-- `EngineStream::feed`. -/
def feed [Zero α] (eng : Engine α φ ε γ κ) (s : Stream α φ ε γ κ) (buf : FeedBuffer) :
    Option (Stream α φ ε γ κ × PublicStatus × ℕ) :=
  (streamFeedPcm16 eng s buf).bind fun
    | (s, .feed status consumed) => some (s, status, consumed)
    | _ => none

/-- `EngineStream::finish`. -/
def finish [Zero α] (eng : Engine α φ ε γ κ) (s : Stream α φ ε γ κ) :
    Option (Stream α φ ε γ κ × PublicStatus) :=
  (streamStep eng s .finish).bind fun
    | (s, .finish status) => some (s, status)
    | _ => none

/-- `EngineStream::last_error`: the message is cut to 255 bytes (`copy_error_message`). -/
def lastError (s : Stream α φ ε γ κ) : Bytes :=
  let source := s.lifecycle.lastError.toUTF8.toList
  source.take (utf8PrefixAtMost source 255)

/-- `EngineStream::final_text`, a C string. -/
def finalText (s : Stream α φ ε γ κ) : Bytes :=
  ((Voxtral.finalText s).getD []).takeWhile (· ≠ 0)

end EngineStream

/-! ## The loops -/

namespace StreamCaller

/-- The loop of `drain_events`. -/
def drainEvents (caller : StreamCaller ρ) :
    ℕ → Stream α φ ε γ κ → ρ → Option ((Stream α φ ε γ κ × ρ) × Bool)
  | 0, _, _ => none
  | rounds + 1, s, r =>
    match streamPollEvent s with
    | (s, .poll (some (_, event))) =>
      let (r, goesOn) := caller.onEvent event r
      if goesOn then drainEvents caller rounds s r else some ((s, r), false)
    | (s, _) => some ((s, r), true)

variable [Zero α] (caller : StreamCaller ρ) (rounds : ℕ) (eng : Engine α φ ε γ κ)

/-- The loop of `resume_after_backpressure` and of `resume_backpressure`. -/
def resumeLoop : ℕ → Stream α φ ε γ κ → ρ → Option ((Stream α φ ε γ κ × ρ) × Bool)
  | 0, _, _ => none
  | n + 1, s, r =>
    (drainEvents caller rounds s r).bind fun ((s, r), goesOn) =>
      if goesOn then
        (EngineStream.feed eng s (.null 0)).bind fun (s, status, consumed) =>
          if consumed ≠ 0 then
            some ((s, caller.onFailure .internalError
              "zero-length resume consumed audio".toUTF8.toList r), false)
          else if status = .queueFull then resumeLoop n s r
          else if status ≠ .ok then
            some ((s, caller.onFailure status (EngineStream.lastError s) r), false)
          else drainEvents caller rounds s r
      else some ((s, r), false)

/-- The loop that feeds one chunk. -/
def feedLoop : ℕ → Stream α φ ε γ κ → ρ → List ℤ → Option ((Stream α φ ε γ κ × ρ) × Bool)
  | 0, _, _, _ => none
  | n + 1, s, r, samples =>
    if samples = [] then some ((s, r), true)
    else
      (EngineStream.feed eng s (.data samples)).bind fun (s, status, consumed) =>
        let rest := samples.drop consumed
        (drainEvents caller rounds s r).bind fun ((s, r), goesOn) =>
          if goesOn then
            if status = .queueFull then
              (resumeLoop caller rounds eng rounds s r).bind fun ((s, r), goesOn) =>
                if goesOn then feedLoop n s r rest else some ((s, r), false)
            else if status ≠ .ok ∨ (consumed = 0 ∧ rest ≠ []) then
              some ((s, caller.onFailure (if status = .ok then .internalError else status)
                (EngineStream.lastError s) r), false)
            else feedLoop n s r rest
          else some ((s, r), false)

/-- The loop over the chunks. -/
def feedChunks : Stream α φ ε γ κ → ρ → List (List ℤ) → Option ((Stream α φ ε γ κ × ρ) × Bool)
  | s, r, [] => some ((s, r), true)
  | s, r, chunk :: chunks =>
    (feedLoop caller rounds eng rounds s r chunk).bind fun ((s, r), goesOn) =>
      if goesOn then feedChunks s r chunks else some ((s, r), false)

/-- The loop around `finish`. -/
def finishLoop : ℕ → Stream α φ ε γ κ → ρ → Option ((Stream α φ ε γ κ × ρ) × Bool)
  | 0, _, _ => none
  | n + 1, s, r =>
    (EngineStream.finish eng s).bind fun (s, status) =>
      if status = .queueFull then
        (resumeLoop caller rounds eng rounds s r).bind fun ((s, r), goesOn) =>
          if goesOn then finishLoop n s r else some ((s, r), false)
      else if status ≠ .ok then
        some ((s, caller.onFailure status (EngineStream.lastError s) r), false)
      else some ((s, r), true)

/-- All chunks, then the finish and its events. -/
def driveStream (s : Stream α φ ε γ κ) (r : ρ) (chunks : List (List ℤ)) :
    Option ((Stream α φ ε γ κ × ρ) × Bool) :=
  (feedChunks caller rounds eng s r chunks).bind fun ((s, r), goesOn) =>
    if goesOn then
      (finishLoop caller rounds eng rounds s r).bind fun ((s, r), goesOn) =>
        if goesOn then drainEvents caller rounds s r else some ((s, r), false)
    else some ((s, r), false)

end StreamCaller

/-! ## Batch transcription -/

/-- `kBatchChunkSamples`. -/
def kBatchChunkSamples : ℕ := 16000

/-- `BatchTranscriptionResult`, without its metrics. -/
structure BatchTranscriptionResult where
  ok : Bool := false
  cancelled : Bool := false
  status : PublicStatus := .internalError
  text : Bytes := []
  detail : Bytes := []
  tokenCount : ℕ := 0
  deriving DecidableEq

/-- The event and failure branches of `batch-transcription.cpp`. -/
def batchCaller : StreamCaller BatchTranscriptionResult where
  onEvent event result :=
    match event.type with
    | .token => ({ result with tokenCount := result.tokenCount + 1 }, true)
    | .error =>
      ({ result with
          status := event.status
          detail := event.text
          cancelled := event.status = .cancelled }, false)
    | _ => (result, true)
  onFailure status detail result := { result with status := status, detail := detail }

/-- The chunks `transcribe_batch` cuts its samples into, in at most `rounds` rounds of its loop. -/
def batchChunks : ℕ → List ℤ → List (List ℤ)
  | 0, _ => []
  | rounds + 1, samples =>
    if samples = [] then []
    else samples.take kBatchChunkSamples :: batchChunks rounds (samples.drop kBatchChunkSamples)

section Batch

variable [Zero α] (rounds : ℕ) (eng : Engine α φ ε γ κ)

/-- `resume_after_backpressure`. -/
def resumeAfterBackpressure (s : Stream α φ ε γ κ) (result : BatchTranscriptionResult) :
    Option ((Stream α φ ε γ κ × BatchTranscriptionResult) × Bool) :=
  batchCaller.resumeLoop rounds eng rounds s result

/-- `transcribe_batch`, on the stream it created and with a cancellation that nobody requests. -/
def transcribeBatch (s : Stream α φ ε γ κ) (samples : List ℤ) :
    Option (Stream α φ ε γ κ × BatchTranscriptionResult) :=
  (batchCaller.driveStream rounds eng s {} (batchChunks samples.length samples)).map
    fun ((s, result), goesOn) =>
      if goesOn then
        if s.lifecycle.state ≠ .completed then
          (s, { result with
            status := .internalError
            detail := "public stream did not reach COMPLETED".toUTF8.toList })
        else (s, { result with text := EngineStream.finalText s, ok := true, status := .ok })
      else (s, result)

end Batch

/-! ## The worker of a realtime session -/

/-- What the worker noted of the events, the messages it enqueued, and the exception that ended it. -/
structure InferenceWorker where
  terminal : TerminalEvents := {}
  enqueued : List (OutboundMessage ServerMessage) := []
  failure : Option (PublicStatus × Bytes) := none

/-- The event and failure branches of the worker, whose messages the outbound queue `accepts`. -/
def workerCaller (config : RealtimeConfiguration) (accepts : OutboundMessage ServerMessage → Bool) :
    StreamCaller InferenceWorker where
  onEvent event worker :=
    let worker := { worker with terminal := worker.terminal.observe event }
    match event.type with
    | .error | .cancelled => ({ worker with failure := some (event.status, event.text) }, false)
    | _ =>
      match eventMessage config event with
      | none => (worker, true)
      | some message =>
        if accepts message then ({ worker with enqueued := worker.enqueued ++ [message] }, true)
        else (worker, false)
  onFailure status detail worker := { worker with failure := some (status, detail) }

/-- The chunks the worker popped. -/
def poppedChunks (results : List (Option PopResult)) : List (List ℤ) :=
  results.filterMap fun
    | some (.audio chunk) => some (chunk.map Int16.toInt)
    | _ => none

section Worker

variable [Zero α] (config : RealtimeConfiguration) (accepts : OutboundMessage ServerMessage → Bool)
  (rounds : ℕ) (eng : Engine α φ ε γ κ)

/-- `RealtimeSession::resume_backpressure`. -/
def resumeBackpressure (s : Stream α φ ε γ κ) (worker : InferenceWorker) :
    Option ((Stream α φ ε γ κ × InferenceWorker) × Bool) :=
  (workerCaller config accepts).resumeLoop rounds eng rounds s worker

/-- `RealtimeSession::inference_worker`, on the stream it created and the chunks it pops before `Finish`,
while nothing disturbs it: its checks find no cancellation, so that `handle_worker_cancellation` is not
called, and `observe_lag` finds the lag below its limits, so that it neither warns nor gives the session up.
The worker with all of these is `SessionThreads.workerStep`; an undisturbed session follows this one
(`StreamSession.follows_of_undisturbed`). -/
def inferenceWorker (s : Stream α φ ε γ κ) (chunks : List (List ℤ)) :
    Option (Stream α φ ε γ κ × InferenceWorker) :=
  ((workerCaller config accepts).driveStream rounds eng s {} chunks).map fun ((s, worker), goesOn) =>
    if goesOn then
      let messages := worker.terminal.messages (EngineStream.finalText s)
      if messages = [] ∨ s.lifecycle.state ≠ .completed then
        (s, { worker with
          failure := some (.internalError, "public stream omitted terminal events".toUTF8.toList) })
      else if messages.all accepts then (s, { worker with enqueued := worker.enqueued ++ messages })
      else
        (s, { worker with
          enqueued := worker.enqueued ++ messages.takeWhile accepts
          failure := some (.internalError,
            "mandatory realtime output exceeded bounded queue limits".toUTF8.toList) })
    else (s, worker)

end Worker

end Voxtral
