import Voxtral.Batch.Transcribe
import Voxtral.Mel.Batch
import Voxtral.Stream.FeedPlan
import Voxtral.Wav.Agreement

/-!
# Transcription of a whole file

`voxtral_transcribe_file` loads the samples of a file and pads them as a stream does while it is fed and
finished, computes the spectrogram of the padded signal at once and hands it to the global encoder.  As
long as the padded signal has a 32-bit length the result is the finish-only reference on the same samples.
A result `none` stands for undefined behaviour and for an allocation that throws.
-/

namespace Voxtral

variable {α β ε γ κ : Type*}

/-- The frames of a bin-major matrix of `n` columns. -/
def melColumns (n : ℕ) (mel : ℕ → β) : List (MelVector β) :=
  (List.range n).map fun f m => mel (m * n + f)

section Audio

variable [Zero α] [Zero β] (eng : Engine α (MelVector β) ε γ κ) (modes : ContextModes)
  (ring : HistoryRing γ) (be : BatchBackend)

/-- `voxtral_transcribe_from_audio` of a realtime model.  The padded length is computed in 32 bits. -/
def transcribeFromAudio (audio : List α) (nSamples : ℤ) (maxTokens : ℤ) : Option (BatchOutcome ε) :=
  if nSamples ≤ 0 then some .failed
  else
    let nRaw := nSamples.toNat
    let alignPad := (rawAudioLengthPerTok - nRaw % rawAudioLengthPerTok) % rawAudioLengthPerTok
    let rightPad := alignPad + nRightPadTokens * rawAudioLengthPerTok
    if 2 ^ 31 ≤ streamLeftPad + nRaw + rightPad then none
    else
      let padded := List.replicate streamLeftPad 0 ++ audio.take nRaw ++ List.replicate rightPad 0
      (computeMelEven eng.melFrame padded).map fun mel =>
        transcribeMel eng modes ring be (melColumns mel.1.toNat mel.2) maxTokens

/-- `voxtral_transcribe_audio`: the length is narrowed to 32 bits. -/
def transcribeAudio (audio : List α) (maxTokens : ℤ) : Option (BatchOutcome ε) :=
  transcribeFromAudio eng modes ring be audio (narrow32 audio.length) maxTokens

/-- `voxtral_transcribe_file` of a file with these bytes, with the conversion of a sample to a float, and
of 32-bit words of so many channels to floats. -/
def transcribeFile (toFloat : ℚ → α) (mixFloat32 : List UInt8 → ℕ → List α) (bytes : List UInt8)
    (maxTokens : ℤ) : Option (BatchOutcome ε) :=
  match loadWavFile bytes with
  | .rejected => some .failed
  | .undefined => none
  | .pcm audio => transcribeAudio eng modes ring be (audio.map toFloat) maxTokens
  | .float32 raw numChannels => transcribeAudio eng modes ring be (mixFloat32 raw numChannels) maxTokens

end Audio

/-! ## The spectrogram -/

section Mel

variable [Zero α] [Zero β] (eng : Engine α (MelVector β) ε γ κ)

/-- A finished signal is a whole number of positions long, so that its spectrogram is not trimmed, and no
such length lies among the last 400 of the 32-bit range. -/
lemma computeMelEven_finished {samples : List α} (hfits : PaddedFits samples.length) :
    ∃ mel, computeMelEven eng.melFrame (finishedSignal samples) = some mel ∧
      melColumns mel.1.toNat mel.2 = melRows eng (finishedSignal samples) := by
  have hlength : (finishedSignal samples).length = 1280 * finishGroups samples.length := by
    rw [← length_finished, finishedSignal, List.length_append, List.length_append, List.length_replicate,
      List.length_replicate]
    rfl
  have hbound : ((finishedSignal samples).length : ℤ) < 2 ^ 31 - 400 := by
    have hpadded : 1280 * finishGroups samples.length < 2 ^ 31 := by
      rw [← length_finished]
      exact hfits
    rw [hlength]
    push_cast
    omega
  have heven : finalFrameCount (finishedSignal samples).length % 2 = 0 := by
    rw [hlength, finalFrameCount]
    omega
  obtain ⟨out, hout, hentries⟩ := computeMelEven_entries eng.melFrame hbound
  refine ⟨_, hout, ?_⟩
  have hcount : evenCount (finalFrameCount (finishedSignal samples).length) =
      finalFrameCount (finishedSignal samples).length := by
    rw [evenCount, heven, Nat.sub_zero]
  rw [hcount] at hentries
  dsimp only
  rw [hcount, Int.toNat_natCast, melColumns, melRows]
  refine List.map_congr_left fun f hf => ?_
  funext m
  rw [hentries m f (List.mem_range.mp hf), evenFrame, heven, Nat.add_zero]

end Mel

/-! ## The result -/

/-- A backend that runs every graph of a batch. -/
structure BatchBackend.Runs (be : BatchBackend) : Prop where
  encoder : ∀ run, be.encoderRuns run = true
  allocates : be.allocates = true
  decodes : be.decodes = true

/-- A context whose batch calls keep to their own buffers. -/
structure ContextModes.Clean (modes : ContextModes) : Prop where
  accumulates : modes.wantEncOutRing = false
  readsMemory : modes.decAudioSrc = false

section Result

variable [Zero α] [Zero β] {eng : Engine α (MelVector β) ε γ κ} {modes : ContextModes}
  {be : BatchBackend}

omit [Zero β] in
/-- A batch call over the Mel frames of a finished signal is the reference over its encoder rows. -/
lemma transcribeMel_finished (hmodes : modes.Clean) (hruns : be.Runs) (ring : HistoryRing γ)
    (samples : List α) (maxTokens : ℤ) :
    transcribeMel eng modes ring be (melRows eng (finishedSignal samples)) maxTokens =
      match runAdapterAndDecodeRealtime eng (encoderRows eng (melRows eng (finishedSignal samples)))
        maxTokens with
      | none => .failed
      | some result => .done (encoderRows eng (melRows eng (finishedSignal samples))) result := by
  have hlen := length_melRows_finishedSignal eng samples
  have hgroups : 49 ≤ finishGroups samples.length := Nat.le_add_right _ _
  have hrealizable : encFramesRealizable (melRows eng (finishedSignal samples)).length =
      4 * finishGroups samples.length := by
    rw [encFramesRealizable_eq, hlen]
    omega
  have hreaches : reachesUpload eng be (melRows eng (finishedSignal samples)) = true := by
    have hall : (globalRuns eng (melRows eng (finishedSignal samples)).length).all be.encoderRuns = true :=
      List.all_eq_true.mpr fun run _ => hruns.encoder run
    unfold reachesUpload
    rw [hall, hrealizable, hruns.allocates]
    simp only [downsampleFactor, decide_eq_true_eq, and_true, true_and]
    omega
  have hwhole : encFramesRealizable (melRows eng (finishedSignal samples)).length / downsampleFactor *
      downsampleFactor = encFramesRealizable (melRows eng (finishedSignal samples)).length := by
    rw [hrealizable, downsampleFactor]
    omega
  have hupload : runEncoderGlobal eng modes be (melRows eng (finishedSignal samples)) =
      .uploaded (encoderRows eng (melRows eng (finishedSignal samples))) := by
    rw [runEncoderGlobal_eq, if_pos hreaches, hmodes.accumulates, if_neg Bool.false_ne_true, hwhole]
    rfl
  unfold transcribeMel
  rw [hupload]
  dsimp only
  rw [hruns.decodes, audioColumns, hmodes.readsMemory, if_neg Bool.false_ne_true, decodeAudio_runAdapter]
  rfl

variable (eng) in
/-- Samples that were converted one by one are transcribed as the finish-only reference transcribes
them. -/
lemma transcribeAudio_reference (hmodes : modes.Clean) (hruns : be.Runs) (ring : HistoryRing γ)
    {pcm : List ℤ} (hne : pcm ≠ []) (hfits : PaddedFits pcm.length) :
    ∃ rows result, transcribeAudio eng modes ring be (pcm.map eng.sampleOf) 0 = some (.done rows result) ∧
      utteranceReference eng pcm = some result := by
  have hfits' : PaddedFits (pcm.map eng.sampleOf).length := by
    rw [List.length_map]
    exact hfits
  have hpos : 0 < pcm.length := List.length_pos_of_ne_nil hne
  have hnarrow : narrow32 (pcm.map eng.sampleOf).length = pcm.length := by
    rw [List.length_map]
    refine narrow32_of_fits (by omega) ?_
    have hle : pcm.length ≤ streamLeftPad + pcm.length + finishRightPad pcm.length := by omega
    have hlt : pcm.length < 2 ^ 31 := lt_of_le_of_lt hle hfits
    omega
  have hpadded : List.replicate streamLeftPad (0 : α) ++ (pcm.map eng.sampleOf).take pcm.length ++
      List.replicate (finishRightPad pcm.length) 0 = finishedSignal (pcm.map eng.sampleOf) := by
    rw [List.take_of_length_le (List.length_map _).le, finishedSignal, List.length_map]
  obtain ⟨mel, hmel, hcolumns⟩ := computeMelEven_finished eng hfits'
  have hshort : ¬ 2 ^ 31 ≤ streamLeftPad + pcm.length + finishRightPad pcm.length := not_le.mpr hfits
  have hfrom : transcribeAudio eng modes ring be (pcm.map eng.sampleOf) 0 = some
      (transcribeMel eng modes ring be (melRows eng (finishedSignal (pcm.map eng.sampleOf))) 0) := by
    unfold transcribeAudio transcribeFromAudio
    rw [hnarrow, if_neg (by omega)]
    simp only [Int.toNat_natCast]
    change (if 2 ^ 31 ≤ streamLeftPad + pcm.length + finishRightPad pcm.length then none
      else (computeMelEven eng.melFrame (List.replicate streamLeftPad (0 : α) ++
        (pcm.map eng.sampleOf).take pcm.length ++ List.replicate (finishRightPad pcm.length) 0)).map
          fun mel => transcribeMel eng modes ring be (melColumns mel.1.toNat mel.2) 0) = _
    rw [if_neg hshort, hpadded, hmel, ← hcolumns]
    rfl
  rw [hfrom, transcribeMel_finished hmodes hruns]
  have hreference := utteranceReference_eq eng pcm
  unfold utteranceReference at hreference
  rw [hreference]
  exact ⟨_, _, rfl, utteranceReference_eq eng pcm⟩

end Result

end Voxtral
