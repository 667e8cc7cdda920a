import Voxtral.Stream.Types

/-!
# The incremental encoder

The per-layer K/V encoder of `voxtral.cpp` as a public stream drives it: Mel frames are pushed, and
`encoder_kv_drive` runs every complete logical batch through one graph and mirrors its output rows
into the device ring.  What a frame computes is `Engine.encoderFrame` of the Mel prefix it attends to;
which frames run in which graph is modelled as it is.
-/

namespace Voxtral

variable {α φ ε γ κ : Type*}

/-- `set_error`. -/
def setError (s : Stream α φ ε γ κ) (status : Status) (msg : String) : Stream α φ ε γ κ :=
  { s with lifecycle := { s.lifecycle with lastStatus := status, lastError := msg } }

/-- `clear_error`. -/
def clearError (s : Stream α φ ε γ κ) : Stream α φ ε γ κ :=
  { s with lifecycle := { s.lifecycle with lastStatus := .ok, lastError := "" } }

/-- Submit one graph and wait for it. -/
def submitGraph (eng : Engine α φ ε γ κ) (s : Stream α φ ε γ κ) : Stream α φ ε γ κ × Bool :=
  ({ s with device := { s.device with submits := s.device.submits + 1 } },
    !eng.submitFails s.device.submits)

/-- The last graph submitted failed. -/
def LastGraphFailed (eng : Engine α φ ε γ κ) (s : Stream α φ ε γ κ) : Prop :=
  eng.submitFails (s.device.submits - 1) = true

/-- A submission that does not succeed is the last failed graph. -/
lemma lastGraphFailed_submit {eng : Engine α φ ε γ κ} {s : Stream α φ ε γ κ}
    (hran : (submitGraph eng s).2 ≠ true) : LastGraphFailed eng (submitGraph eng s).1 := by
  simpa [submitGraph, LastGraphFailed] using hran

/-- `enc_frames_realizable`: encoder frames whose Mel frames are all stable. -/
def encFramesRealizable (melFrames : ℕ) : ℕ := if melFrames < 2 then 0 else (melFrames - 2) / 2 + 1

/-- `conv_mel_start` of a batch that starts at frame `qStart`. -/
def convMelStart (qStart : ℕ) : ℕ := 2 * (qStart - 2)

/-- `conv_mel_end` of the batch `[qStart, qStart + n)`. -/
def convMelEnd (qStart n : ℕ) : ℕ := 2 * (qStart + n)

/-- Encoder frame `e` of the Mel frames pushed so far. -/
def encoderFrameAt (eng : Engine α φ ε γ κ) (melHistory : List φ) (e : ℕ) : ε :=
  eng.encoderFrame (melHistory.take (2 * e + 2))

/-- The output ring after the rows of the frames `[qStart, qStart + n)` were written. -/
def writeEncRows (eng : Engine α φ ε γ κ) (melHistory : List φ) (ring : HistoryRing ε)
    (qStart : ℕ) : ℕ → HistoryRing ε
  | 0 => ring
  | n + 1 => (writeEncRows eng melHistory ring qStart n).write encOutRingCap (qStart + n)
      (encoderFrameAt eng melHistory (qStart + n))

/-- `run_encoder_kv_batch`.  The reusable four-row graph scatters its rows into the output ring
itself; any other graph is followed by a ring-copy graph. -/
def runEncoderKvBatch (eng : Engine α φ ε γ κ) (s : Stream α φ ε γ κ) (qStart n physical : ℕ) :
    Stream α φ ε γ κ × Bool :=
  let enc := s.frontend.enc
  if convMelStart qStart < enc.tailBase ∨ enc.tailBase + enc.melTail.length < convMelEnd qStart n then
    (s, false)
  else
    let (s, ran) := submitGraph eng s
    if !ran then (s, false)
    else
      let (s, copied) := if n = 4 ∧ physical = 4 then (s, true) else submitGraph eng s
      if !copied then (s, false)
      else
        ({ s with
            frontend := { s.frontend with enc := { s.frontend.enc with emitted := qStart + n } }
            device := { s.device with
              encOutRing := writeEncRows eng enc.melHistory s.device.encOutRing qStart n }
            trace := s.trace ++ [.encoderRun qStart n physical] }, true)

/-- `encoder_kv_trim_tail`. -/
def encoderKvTrimTail (enc : EncoderStream φ) : EncoderStream φ :=
  let keepFrom := 2 * (enc.emitted - 2)
  if enc.tailBase < keepFrom then
    { enc with melTail := enc.melTail.drop (keepFrom - enc.tailBase), tailBase := keepFrom }
  else enc

/-- `encoder_kv_run`: the plan fits the K/V ring, and the Mel frames of the batch are stable. -/
def encoderKvRun (eng : Engine α φ ε γ κ) (s : Stream α φ ε γ κ) (q0 n physical : ℕ) :
    Stream α φ ε γ κ × Bool :=
  if n = 0 ∨ encKvCap - encWindow < n then (s, false)
  else if s.frontend.enc.stableMel < convMelEnd q0 n then (s, false)
  else
    let (s, ran) := runEncoderKvBatch eng s q0 n physical
    if !ran then (s, false)
    else
      ({ s with frontend := { s.frontend with enc := encoderKvTrimTail s.frontend.enc } }, true)

/-- At most `fuel` iterations of the loop of `encoder_kv_drive`. -/
def encoderKvDriveLoop (eng : Engine α φ ε γ κ) (final : Bool) (target : ℕ) :
    ℕ → Stream α φ ε γ κ → Stream α φ ε γ κ × Bool
  | 0, s => (s, true)
  | fuel + 1, s =>
    let emitted := s.frontend.enc.emitted
    if target ≤ emitted then (s, true)
    -- hold the padded startup prefix back until the 128-frame block is complete
    else if emitted = 0 ∧ final = false ∧ target < encKvMaxNew then (s, true)
    else if emitted = 0 ∧ encKvMaxNew ≤ target then
      let (s, ran) := encoderKvRun eng s 0 encKvMaxNew encKvMaxNew
      if !ran then (s, false) else encoderKvDriveLoop eng final target fuel s
    else if final = false ∧ target - emitted < eng.schedule.logical then (s, true)
    else
      let physical := if final then eng.finishPhysical else eng.schedule.physical
      let logical := if final then eng.finishPhysical else eng.schedule.logical
      let room := physical - emitted % physical
      let n := min (min logical room) (target - emitted)
      if n = 0 then (s, false)
      else
        let (s, ran) := encoderKvRun eng s emitted n physical
        if !ran then (s, false) else encoderKvDriveLoop eng final target fuel s

/-- `encoder_kv_drive`.  Every iteration that goes on emits a frame, so the loop takes no more
iterations than there are frames to emit. -/
def encoderKvDrive (eng : Engine α φ ε γ κ) (s : Stream α φ ε γ κ) (final : Bool) :
    Stream α φ ε γ κ × Bool :=
  let target := encFramesRealizable s.frontend.enc.stableMel
  encoderKvDriveLoop eng final target (target - s.frontend.enc.emitted) s

/-- `voxtral_encoder_stream_push_mel` and `voxtral_encoder_stream_push_mel_final` of the frames
`[baseFrame, baseFrame + frames.length)`. -/
def encoderStreamPushMel (eng : Engine α φ ε γ κ) (s : Stream α φ ε γ κ) (final : Bool)
    (frames : List φ) (baseFrame : ℕ) : Stream α φ ε γ κ × Bool :=
  let enc := s.frontend.enc
  if enc.finalized then (s, false)
  else if frames = [] then (s, true)
  else if baseFrame ≠ enc.stableMel then (s, false)
  else
    encoderKvDrive eng
      { s with frontend := { s.frontend with enc := { enc with
          melTail := enc.melTail ++ frames
          stableMel := enc.stableMel + frames.length
          melHistory := enc.melHistory ++ frames } } }
      final

/-- `voxtral_encoder_stream_finish`. -/
def encoderStreamFinish (eng : Engine α φ ε γ κ) (s : Stream α φ ε γ κ) :
    Stream α φ ε γ κ × Bool :=
  if s.frontend.enc.finalized then (s, true)
  else
    let (s, ok) := encoderKvDrive eng s true
    ({ s with frontend := { s.frontend with enc := { s.frontend.enc with
        finalized := true
        melTail := []
        tailBase := s.frontend.enc.stableMel } } }, ok)

/-! ## Handing Mel frames over -/

/-- At most `fuel` iterations of the loop of `drain_mel_to_encoder` up to frame `total`. -/
def drainMelLoop (eng : Engine α φ ε γ κ) (total : ℕ) :
    ℕ → Stream α φ ε γ κ → Stream α φ ε γ κ × Bool
  | 0, s => (s, true)
  | fuel + 1, s =>
    let base := s.frontend.encPushedFrames
    if base < total then
      let n := min melDrainSlice (total - base)
      match melFrontendFrameData s.frontend.melFe base with
      | none => (setError s .backendError "incremental Mel frame is outside retained window", false)
      | some frames =>
        let (s, pushed) := encoderStreamPushMel eng s false (frames.take n) base
        if !pushed then
          (setError s .backendError "incremental encoder rejected Mel frames", false)
        else
          drainMelLoop eng total fuel
            { s with frontend := { s.frontend with
                encPushedFrames := base + n
                melFe := melFrontendDiscardBefore s.frontend.melFe (base + n : ℕ) } }
    else (s, true)

/-- `drain_mel_to_encoder`: hand every new stable Mel frame to the encoder, in slices of eight while
audio arrives, in one push at the finish. -/
def drainMelToEncoder (eng : Engine α φ ε γ κ) (s : Stream α φ ε γ κ) (final : Bool) :
    Stream α φ ε γ κ × Bool :=
  let total := s.frontend.melFe.nextFrame
  let base := s.frontend.encPushedFrames
  if total ≤ base then (s, true)
  else if base < s.frontend.melFe.melBaseFrame then
    (setError s .backendError "incremental Mel history base advanced past encoder cursor", false)
  else if final then
    match melFrontendFrameData s.frontend.melFe base with
    | none => (setError s .backendError "incremental encoder rejected terminal Mel frames", false)
    | some frames =>
      let (s, pushed) := encoderStreamPushMel eng s true (frames.take (total - base)) base
      if !pushed then
        (setError s .backendError "incremental encoder rejected terminal Mel frames", false)
      else
        ({ s with frontend := { s.frontend with
            encPushedFrames := total
            melFe := melFrontendDiscardBefore s.frontend.melFe total } }, true)
  else drainMelLoop eng total (total - base) s

end Voxtral
