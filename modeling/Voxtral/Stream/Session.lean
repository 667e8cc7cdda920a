import Voxtral.Stream.Decoder
import Voxtral.Mel.StreamCalls

/-!
# Feed, finish and cancel

The entry points of `voxtral-stream.cpp` on a public incremental stream.  A result `none` means that
the Mel frontend read outside its buffer; nothing is said about a stream after that.
-/

namespace Voxtral

variable {α φ ε γ κ : Type*}

/-- `voxtral_stream_state_name`. -/
def stateName : StreamState → String
  | .created => "created"
  | .running => "running"
  | .finishing => "finishing"
  | .completed => "completed"
  | .cancelled => "cancelled"
  | .failed => "failed"

/-- The sample buffer of a feed: a null pointer with a count, or the samples. -/
inductive FeedBuffer
  | null (count : ℕ)
  | data (samples : List ℤ)

/-- `sample_count` of a feed. -/
def FeedBuffer.count : FeedBuffer → ℕ
  | .null count => count
  | .data samples => samples.length

/-- The samples of a feed. -/
def FeedBuffer.samples : FeedBuffer → List ℤ
  | .null _ => []
  | .data samples => samples

/-- The slices a feed is drained in. -/
def audioSlices (pcm : List α) : List (List α) :=
  (List.range ((pcm.length + (audioDrainSlice - 1)) / audioDrainSlice)).map fun k =>
    (pcm.drop (audioDrainSlice * k)).take audioDrainSlice

/-- `ensure_left_pad`. -/
def ensureLeftPad [Zero α] (eng : Engine α φ ε γ κ) (s : Stream α φ ε γ κ) :
    Option (Stream α φ ε γ κ) :=
  if s.frontend.leftPadInjected then some s
  else
    (melFrontendFeedSilence eng.melFrame s.frontend.melFe streamLeftPad).map fun r =>
      { s with frontend := { s.frontend with leftPadInjected := true, melFe := r.2 } }

/-- Hand one slice to the Mel frontend and its stable frames to the encoder. -/
def absorbSlice (eng : Engine α φ ε γ κ) (s : Stream α φ ε γ κ) (slice : List α) :
    Option (Stream α φ ε γ κ × Bool) :=
  (melFrontendFeed eng.melFrame s.frontend.melFe slice).map fun r =>
    let s := { s with frontend := { s.frontend with
      melFe := r.2, realSamples := s.frontend.realSamples ++ slice } }
    if !r.1 then (setError s .backendError "incremental Mel frontend rejected feed", false)
    else drainMelToEncoder eng s false

/-- The slice loop of `feed_common`.  Once the decoder stalled on a full queue, `backpressured`, the
remaining slices only reach the encoder. -/
def feedSlices (eng : Engine α φ ε γ κ) :
    Stream α φ ε γ κ → Bool → List (List α) → Option (Stream α φ ε γ κ × Status)
  | s, backpressured, [] => some (s, if backpressured then .limitExceeded else .ok)
  | s, backpressured, slice :: rest =>
    (absorbSlice eng s slice).bind fun r =>
      if !r.2 then some (r.1, .backendError)
      else if backpressured then feedSlices eng r.1 true rest
      else
        let p := pumpIncremental eng r.1
        if p.2 = .limitExceeded then feedSlices eng p.1 true rest
        else if p.2 ≠ .ok then some p
        else feedSlices eng p.1 false rest

/-- `estimated_token_events` of a feed. -/
def estimatedTokenEvents (count : ℕ) : ℕ :=
  (count + rawAudioLengthPerTok - 1) / rawAudioLengthPerTok + nRightPadTokens + 2

/-- Whether a feed of `count` samples coalesces snapshots aggressively: the queue might not hold a
snapshot for each token, but it holds the tokens. -/
def aggressiveMode (ev : Events) (count : ℕ) : Bool :=
  ev.maxEvents < ev.queue.length + 2 * estimatedTokenEvents count ∧
    ev.queue.length + estimatedTokenEvents count + 1 ≤ ev.maxEvents

/-- The audio path of `feed_common` after the admission checks. -/
def feedAudio [Zero α] (eng : Engine α φ ε γ κ) (s : Stream α φ ε γ κ) (samples : List ℤ) :
    Option (Stream α φ ε γ κ × Status) :=
  let previous := s.events.aggressivePartialCoalescing
  let restore := fun s : Stream α φ ε γ κ =>
    { s with events := { s.events with aggressivePartialCoalescing := previous } }
  let s := { s with events := { s.events with
    aggressivePartialCoalescing := aggressiveMode s.events samples.length } }
  (ensureLeftPad eng s).bind fun s =>
    (feedSlices eng s false (audioSlices (samples.map eng.sampleOf))).map fun r =>
      if r.2 ≠ .ok ∧ r.2 ≠ .limitExceeded then (restore r.1, r.2)
      else
        let s := { r.1 with lifecycle := { r.1.lifecycle with
          totalSamplesReceived := r.1.lifecycle.totalSamplesReceived + samples.length
          feedCalls := r.1.lifecycle.feedCalls + 1
          state := if r.1.lifecycle.state = .created then .running else r.1.lifecycle.state } }
        if r.2 = .limitExceeded then (restore s, .limitExceeded) else (restore (clearError s), .ok)

/-- `feed_common` behind the resume pump: argument and admission checks. -/
def feedAdmit [Zero α] (eng : Engine α φ ε γ κ) (s : Stream α φ ε γ κ) (buf : FeedBuffer) :
    Option (Stream α φ ε γ κ × Status) :=
  let reject := fun (status : Status) (msg : String) => some (setError s status msg, status)
  match buf with
  | .null (_ + 1) => reject .invalidArgument "null samples with non-zero count"
  | .null 0 | .data [] =>
    let s := clearError s
    some ({ s with lifecycle := { s.lifecycle with feedCalls := s.lifecycle.feedCalls + 1 } }, .ok)
  | .data samples =>
    let received := s.lifecycle.totalSamplesReceived
    if maxFeedSamples < samples.length then
      reject .invalidArgument "feed exceeds per-call sample limit"
    else if uint64Max - received < samples.length then
      reject .invalidArgument "feed would overflow cumulative sample counter"
    else if int64Max < received + samples.length then
      reject .invalidArgument "stream sample position exceeds internal counter range"
    else if s.params.maxTotalSamples < received + samples.length then
      reject .limitExceeded "stream duration exceeds max_total_samples admission limit"
    else feedAudio eng s samples

/-- `feed_common`: a stream under backpressure first resumes the decoder. -/
def feedCommon [Zero α] (eng : Engine α φ ε γ κ) (s : Stream α φ ε γ κ) (buf : FeedBuffer) :
    Option (Stream α φ ε γ κ × Status) :=
  if s.lifecycle.state ≠ .created ∧ s.lifecycle.state ≠ .running then
    some (setError s .invalidState ("feed not allowed in state " ++ stateName s.lifecycle.state),
      .invalidState)
  else if s.events.decoderBackpressured then
    let p := pumpIncremental eng s
    if p.2 = .limitExceeded then
      some ({ p.1 with lifecycle := { p.1.lifecycle with
        feedCalls := p.1.lifecycle.feedCalls + 1 } }, .limitExceeded)
    else if p.2 ≠ .ok then some p
    else feedAdmit eng p.1 buf
  else feedAdmit eng s buf

/-! ## Finish -/

/-- The terminal failure of a stream. -/
def failStream (s : Stream α φ ε γ κ) (status : Status) : Stream α φ ε γ κ :=
  let s := emitError s status s.lifecycle.lastError
  { s with lifecycle := { s.lifecycle with state := .failed } }

/-- The exception handler of `voxtral_stream_finish_internal`. -/
def finishThrew (s : Stream α φ ε γ κ) (what : String) : Stream α φ ε γ κ × Status :=
  (failStream (setError s .backendError ("inference threw: " ++ what)) .backendError, .backendError)

/-- The frontend part of a finish: padding, the remaining Mel frames, the remaining encoder frames. -/
def finishFrontend [Zero α] (eng : Engine α φ ε γ κ) (s : Stream α φ ε γ κ) :
    Option (Stream α φ ε γ κ × Option String) :=
  (ensureLeftPad eng s).bind fun s =>
    (melFrontendFeedSilence eng.melFrame s.frontend.melFe
        (finishRightPad s.lifecycle.totalSamplesReceived)).bind fun r =>
      (melFrontendFinish eng.melFrame r.2).map fun melFe =>
        let d := drainMelToEncoder eng { s with frontend := { s.frontend with melFe := melFe } } true
        if !d.2 then (d.1, some d.1.lifecycle.lastError)
        else
          let f := encoderStreamFinish eng d.1
          if !f.2 then (f.1, some "incremental encoder finish failed") else (f.1, none)

/-- The successful end of a finish. -/
def completeStream (s : Stream α φ ε γ κ) : Stream α φ ε γ κ :=
  let s := emitFinalAndCompleted s
  clearError { s with lifecycle := { s.lifecycle with state := .completed } }

/-- `voxtral_stream_finish_internal` behind the backlog drain. -/
def finishLive [Zero α] (eng : Engine α φ ε γ κ) (s : Stream α φ ε γ κ) :
    Option (Stream α φ ε γ κ × Status) :=
  let s := { s with
    lifecycle := { s.lifecycle with state := .finishing }
    events := { s.events with finalizingFlush := true } }
  if s.lifecycle.totalSamplesReceived = 0 then
    some (completeStream
      { s with
        decoder := { s.decoder with transcript := [], tokens := [] }
        lifecycle := { s.lifecycle with totalSamplesConsumed := 0 } }, .ok)
  else
    (finishFrontend eng s).map fun f =>
      match f.2 with
      | some what => finishThrew f.1 what
      | none =>
        let s := { f.1 with decoder := { f.1.decoder with
          tokensBeforeFinish := f.1.decoder.decoderTokensEmitted } }
        let p := pumpIncremental eng s
        if p.2 ≠ .ok then finishThrew p.1 p.1.lifecycle.lastError
        else
          (completeStream
            { p.1 with
              decoder := { p.1.decoder with transcript := p.1.decoder.partialText }
              lifecycle := { p.1.lifecycle with
                inferenceRuns := p.1.lifecycle.inferenceRuns + 1
                totalSamplesConsumed := p.1.lifecycle.totalSamplesReceived } }, .ok)

/-- `voxtral_stream_finish_internal`. -/
def finishInternal [Zero α] (eng : Engine α φ ε γ κ) (s : Stream α φ ε γ κ) :
    Option (Stream α φ ε γ κ × Status) :=
  match s.lifecycle.state with
  | .completed => some (s, .ok)
  | .cancelled => some (s, .ok)
  | .failed => some (setError s .invalidState "finish not allowed after failure", .invalidState)
  | .finishing => some (s, .busy)
  | .created | .running =>
    if s.events.decoderBackpressured then
      let p := pumpIncremental eng s
      if p.2 = .limitExceeded then some p
      else if p.2 ≠ .ok then
        some (failStream { p.1 with events := { p.1.events with finalizingFlush := true } } p.2, p.2)
      else finishLive eng p.1
    else finishLive eng s

/-! ## Cancel -/

/-- `voxtral_stream_cancel_internal`. -/
def cancelInternal (s : Stream α φ ε γ κ) : Stream α φ ε γ κ × Status :=
  match s.lifecycle.state with
  | .completed => (setError s .invalidState "cannot cancel a completed stream", .invalidState)
  | .cancelled | .failed => (s, .ok)
  | .finishing => (setError s .invalidState "cannot cancel during finish", .invalidState)
  | .created | .running =>
    let s := { s with lifecycle := { s.lifecycle with cancelRequested := true } }
    let s :=
      if s.lifecycle.cancelledEmitted then s
      else
        let s := { s with events := { s.events with finalizingFlush := true } }
        let s := (pushEvent s
          { type := .cancelled, tAudioSamples := s.lifecycle.totalSamplesReceived }).1
        { s with lifecycle := { s.lifecycle with cancelledEmitted := true } }
    (clearError { s with lifecycle := { s.lifecycle with state := .cancelled } }, .ok)

end Voxtral
