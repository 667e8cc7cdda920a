import Voxtral.Encoder.Batches
import Voxtral.Stream.Reference

/-!
# Transcription of a whole Mel

`voxtral_transcribe_mel_internal`: the global encoder runs over the whole Mel and uploads the frames it
accumulated, and the adapter and the decoder run over the upload.  Three modes of the context steer the
graphs these functions share with the streams (`ContextModes`).  In a context without them the result
depends on nothing else the context holds; where the output ring is wanted nothing is accumulated, and
the upload reads past the end of an empty buffer.
-/

namespace Voxtral

variable {α φ ε γ κ : Type*}

/-- The modes of a context: whether the encoder mirrors its output into the device ring instead of
accumulating it, and whether the decoder reads audio embeddings from the ring, modulo its capacity. -/
structure ContextModes where
  wantEncOutRing : Bool := false
  decAudioSrc : Bool := false
  decAudioCap : ℕ := 0
  deriving DecidableEq, Repr

/-- What the backend does in a batch: which encoder graphs run, each with its copy into the output ring,
whether the encoder output can be allocated, and whether the graphs of adapter and decoder run. -/
structure BatchBackend where
  encoderRuns : EncoderRun → Bool
  allocates : Bool
  decodes : Bool

/-! ## The encoder -/

/-- The output rows of a batch of encoder frames. -/
def batchRows (eng : Engine α φ ε γ κ) (mel : List φ) (r : EncoderRun) : List ε :=
  (List.range' r.qStart r.n).map (encoderFrameAt eng mel)

/-- `enc_accum` after the batches of `encoder_kv_drive`, or nothing if a graph fails. -/
def accumulateBatches (eng : Engine α φ ε γ κ) (modes : ContextModes) (be : BatchBackend)
    (mel : List φ) : List EncoderRun → List ε → Option (List ε)
  | [], encAccum => some encAccum
  | r :: rs, encAccum =>
    if !be.encoderRuns r then none
    else
      accumulateBatches eng modes be mel rs
        (if modes.wantEncOutRing then encAccum else encAccum ++ batchRows eng mel r)

/-- The batches of the global encoder over `nFrames` Mel frames: one final drive without the reusable
stream graph. -/
def globalRuns (eng : Engine α φ ε γ κ) (nFrames : ℕ) : List EncoderRun :=
  let target := encFramesRealizable nFrames
  driveBatches eng.schedule none true target target 0

/-- What `run_encoder_global` uploads.  An upload of more frames than were accumulated reads memory
behind the accumulation. -/
inductive EncoderUpload (ε : Type*)
  | failed
  | outOfBounds
  | uploaded (rows : List ε)

/-- `run_encoder_global`. -/
def runEncoderGlobal (eng : Engine α φ ε γ κ) (modes : ContextModes) (be : BatchBackend)
    (mel : List φ) : EncoderUpload ε :=
  if mel.length = 0 then .failed
  else
    match accumulateBatches eng modes be mel (globalRuns eng mel.length) [] with
    | none => .failed
    | some encAccum =>
      let emitted := frameCount (globalRuns eng mel.length)
      let used := emitted / downsampleFactor * downsampleFactor
      if used = 0 then .failed
      else if !be.allocates then .failed
      else if encAccum.length < used then .outOfBounds
      else .uploaded (encAccum.take used)

/-! ## Adapter and decoder -/

/-- The audio embeddings the decoder graphs read, position after position: `decoder_memory`, or the columns
of the ring. -/
def audioColumns (modes : ContextModes) (ring : HistoryRing γ) (decoderMemory : List γ) : List γ :=
  if modes.decAudioSrc then
    (List.range decoderMemory.length).map fun pos =>
      (ring (if 0 < modes.decAudioCap then pos % modes.decAudioCap else pos)).value
  else decoderMemory

/-- The decoder part of `run_adapter_and_decode_realtime`. -/
def decodeAudio (eng : Engine α φ ε γ κ) (columns : List γ) (maxTokens : ℤ) : Option VoxtralResult :=
  let nAudio := columns.length
  if nAudio < promptLength then none
  else
    let kv := eng.prefill (promptIds.take (promptLength - 1)) (columns.take (promptLength - 1))
    (runDecoderStep eng columns kv (promptIds.getD (promptLength - 1) 0)
        (promptLength - 1)).bind fun first =>
      (decodeLoop eng columns maxTokens (nAudio - promptLength) first.2 first.1 promptLength
          [first.1]).map fun tokens =>
        ⟨popEos tokens, decodeTokens eng.tokenizer (popEos tokens)⟩

/-- The reference decodes the adapter's own output. -/
lemma decodeAudio_runAdapter (eng : Engine α φ ε γ κ) (rows : List ε) (maxTokens : ℤ) :
    decodeAudio eng (runAdapter eng rows) maxTokens =
      runAdapterAndDecodeRealtime eng rows maxTokens := rfl

/-- The result of a batch call. -/
inductive BatchOutcome (ε : Type*)
  | failed
  | outOfBounds
  | done (encoderOutput : List ε) (result : VoxtralResult)

/-- `voxtral_transcribe_mel_internal` with the global encoder, on a context with these modes and this
content of the ring of audio embeddings. -/
def transcribeMel (eng : Engine α φ ε γ κ) (modes : ContextModes) (ring : HistoryRing γ)
    (be : BatchBackend) (mel : List φ) (maxTokens : ℤ) : BatchOutcome ε :=
  match runEncoderGlobal eng modes be mel with
  | .failed => .failed
  | .outOfBounds => .outOfBounds
  | .uploaded rows =>
    if !be.decodes then .failed
    else
      match decodeAudio eng (audioColumns modes ring (runAdapter eng rows)) maxTokens with
      | none => .failed
      | some result => .done rows result

/-- Whether a batch call reaches its upload: every encoder graph runs, the frames make at least one
adapter group, and their buffer can be allocated. -/
def reachesUpload (eng : Engine α φ ε γ κ) (be : BatchBackend) (mel : List φ) : Bool :=
  (globalRuns eng mel.length).all be.encoderRuns ∧ downsampleFactor ≤ encFramesRealizable mel.length ∧
    be.allocates

/-! ## The frames of the global encoder -/

/-- A final drive emits every frame once. -/
lemma framesOf_driveBatches (sch : EncoderSchedule) (terminal : Option TerminalRows) (target fuel e : ℕ)
    (hfuel : target ≤ e + fuel) :
    framesOf (driveBatches sch terminal true target fuel e) = List.range' e (target - e) := by
  induction fuel generalizing e with
  | zero =>
    rw [driveBatches, Nat.sub_eq_zero_of_le (by omega)]
    rfl
  | succ fuel ih =>
    rw [driveBatches]
    by_cases hdone : target ≤ e
    · rw [if_pos hdone, Nat.sub_eq_zero_of_le hdone]
      rfl
    rw [if_neg hdone, if_neg (by simp)]
    have hcons : ∀ n physical, 0 < n → e + n ≤ target →
        framesOf (⟨e, n, physical⟩ :: driveBatches sch terminal true target fuel (e + n)) =
          List.range' e (target - e) := by
      intro n physical hpos hle
      change List.range' e n ++ framesOf (driveBatches sch terminal true target fuel (e + n)) = _
      rw [ih (e + n) (by omega), List.range'_append_1]
      congr 1
      omega
    by_cases hblock : e = 0 ∧ encKvMaxNew ≤ target
    · rw [if_pos hblock]
      obtain ⟨rfl, htarget⟩ := hblock
      exact hcons encKvMaxNew encKvMaxNew (by decide) (by omega)
    · rw [if_neg hblock, if_neg (by simp)]
      simp only [if_true]
      obtain ⟨hphysical, hpos, -⟩ := grid_bounds sch terminal
      have hrows : 0 < (terminal.map Subtype.val).getD sch.physical := by
        simp only [List.mem_cons, List.not_mem_nil, or_false] at hphysical
        omega
      have hroom := Nat.mod_lt e hrows
      exact hcons _ _ (by omega) (by omega)

/-- The frames of the global encoder. -/
lemma framesOf_globalRuns (eng : Engine α φ ε γ κ) (nFrames : ℕ) :
    framesOf (globalRuns eng nFrames) = List.range (encFramesRealizable nFrames) := by
  rw [globalRuns, framesOf_driveBatches _ _ _ _ _ (by omega), Nat.sub_zero, List.range_eq_range']

/-- The batches of a whole file cover its realizable frames. -/
lemma frameCount_globalRuns (eng : Engine α φ ε γ κ) (nFrames : ℕ) :
    frameCount (globalRuns eng nFrames) = encFramesRealizable nFrames := by
  rw [← framesOf_length, framesOf_globalRuns, List.length_range]

/-- If every graph runs, the encoder accumulates the rows of its batches, or nothing into a ring. -/
lemma accumulateBatches_eq (eng : Engine α φ ε γ κ) (modes : ContextModes) (be : BatchBackend)
    (mel : List φ) (runs : List EncoderRun) (encAccum : List ε) :
    accumulateBatches eng modes be mel runs encAccum =
      if runs.all be.encoderRuns then
        some (if modes.wantEncOutRing then encAccum
          else encAccum ++ (framesOf runs).map (encoderFrameAt eng mel))
      else none := by
  induction runs generalizing encAccum with
  | nil => simp [accumulateBatches, framesOf]
  | cons r rs ih =>
    rw [accumulateBatches, List.all_cons]
    cases hruns : be.encoderRuns r with
    | false => simp
    | true =>
      simp only [Bool.not_true, Bool.false_eq_true, if_false, Bool.true_and, ih]
      cases modes.wantEncOutRing with
      | true => simp
      | false => simp [framesOf, batchRows]

/-- Without the output ring the upload is the frames of the Mel, as many as make whole groups; with it the
upload reads past the accumulation. -/
lemma runEncoderGlobal_eq (eng : Engine α φ ε γ κ) (modes : ContextModes) (be : BatchBackend)
    (mel : List φ) :
    runEncoderGlobal eng modes be mel =
      if reachesUpload eng be mel then
        if modes.wantEncOutRing then .outOfBounds
        else .uploaded ((List.range (encFramesRealizable mel.length / downsampleFactor *
          downsampleFactor)).map (encoderFrameAt eng mel))
      else .failed := by
  unfold runEncoderGlobal reachesUpload
  rw [accumulateBatches_eq, frameCount_globalRuns, framesOf_globalRuns]
  set target := encFramesRealizable mel.length with htarget
  by_cases hempty : mel.length = 0
  · have hzero : target = 0 := by rw [htarget, hempty]; rfl
    rw [if_pos hempty, hzero]
    simp
  rw [if_neg hempty]
  cases hall : (globalRuns eng mel.length).all be.encoderRuns with
  | false => simp
  | true =>
    simp only [if_true, List.nil_append, true_and, decide_eq_true_eq]
    by_cases hshort : target / downsampleFactor * downsampleFactor = 0
    · rw [if_pos hshort, if_neg]
      rintro ⟨hfour, -⟩
      simp only [downsampleFactor] at hshort hfour
      omega
    · have hfour : downsampleFactor ≤ target := by
        simp only [downsampleFactor] at hshort ⊢
        omega
      rw [if_neg hshort]
      have hle : target / downsampleFactor * downsampleFactor ≤ target := Nat.div_mul_le_self _ _
      cases be.allocates with
      | false => simp
      | true =>
        cases modes.wantEncOutRing with
        | true =>
          simp only [Bool.not_true, Bool.false_eq_true, if_false, if_true, List.length_nil, and_true]
          rw [if_pos (Nat.pos_of_ne_zero hshort), if_pos hfour]
        | false =>
          simp only [Bool.not_true, Bool.false_eq_true, if_false, and_true, List.length_map,
            List.length_range]
          rw [if_neg (not_lt.mpr hle), if_pos hfour, ← List.map_take, List.take_range,
            min_eq_left hle]

/-- On a context without stream modes a batch call does not depend on the rings. -/
lemma transcribeMel_clean (eng : Engine α φ ε γ κ) {modes modes' : ContextModes}
    (hwant : modes.wantEncOutRing = modes'.wantEncOutRing) (hsrc : modes.decAudioSrc = false)
    (hsrc' : modes'.decAudioSrc = false) (ring ring' : HistoryRing γ) (be : BatchBackend)
    (mel : List φ) (maxTokens : ℤ) :
    transcribeMel eng modes ring be mel maxTokens =
      transcribeMel eng modes' ring' be mel maxTokens := by
  unfold transcribeMel
  rw [runEncoderGlobal_eq, runEncoderGlobal_eq, hwant]
  simp [audioColumns, hsrc, hsrc']

/-- A batch call that reaches its upload reads out of bounds exactly where the output ring is wanted. -/
lemma transcribeMel_outOfBounds_iff (eng : Engine α φ ε γ κ) (modes : ContextModes)
    (ring : HistoryRing γ) (be : BatchBackend) (mel : List φ) (maxTokens : ℤ) :
    transcribeMel eng modes ring be mel maxTokens = .outOfBounds ↔
      reachesUpload eng be mel = true ∧ modes.wantEncOutRing = true := by
  unfold transcribeMel
  rw [runEncoderGlobal_eq]
  cases reachesUpload eng be mel with
  | false => simp
  | true =>
    cases modes.wantEncOutRing with
    | true => simp
    | false =>
      simp only [if_true, Bool.false_eq_true, if_false, and_false, iff_false]
      cases be.decodes with
      | false => simp
      | true =>
        simp only [Bool.not_true, Bool.false_eq_true, if_false]
        split <;> simp

end Voxtral
