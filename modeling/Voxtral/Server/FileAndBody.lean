import Voxtral.Batch.WholeFile
import Voxtral.Server.TranscriptPaths

/-!
# A WAV file on the command line, in a request body and in a session

The command line reads a file with the library's reader and decodes it at once; the server reads a request
body with a reader of its own and drives a stream; a client may send the same samples over a session.
Where both readers take the file for the same samples, all three end with one text.
-/

namespace Voxtral

variable {α β ε γ κ : Type*}

/-- The library reads the server's samples from an aligned file of one 16-bit channel. -/
lemma loadWavFile_of_parse {body : List UInt8} {audio : AudioData} {before behind : List RiffChunk}
    {fmt data : RiffChunk} (hparse : parsePcm16Wav body = .ok audio)
    (hchunks : RiffChunks body (riffEnd body) 12 (before ++ data :: behind))
    (hlayout : AlignedLayout before fmt data) (hmono : SaysMonoPcm16 body fmt) :
    audio.samples ≠ [] ∧ loadWavFile body = .pcm (audio.samples.map fun s => (s.toInt : ℚ) / 32768) := by
  obtain ⟨hlength, hriff, hwave, hend, st, hscan, heven, hpos, hsamples⟩ := parsePcm16Wav_ok hparse
  obtain ⟨hdata, hsize⟩ := scanChunks_data hchunks (by omega) rfl hlayout.isData hlayout.noData hscan
  have hfits : data.offset + data.size ≤ body.length := (hchunks.mem_le (by simp)).trans hend
  obtain ⟨w, hload⟩ := loadWavFile_aligned hlength hriff hwave hend hchunks hlayout
  rw [hdata, hsize, length_byteSlice hfits] at heven hpos
  rw [hsamples, hdata, hsize, hload]
  refine ⟨?_, loadSamples_mono hmono heven hfits⟩
  intro hnil
  have hcount := congrArg List.length hnil
  rw [length_decodePcm16, length_byteSlice hfits, List.length_nil] at hcount
  omega

/-- The command line decodes the file as the finish-only reference decodes the server's samples. -/
lemma transcribeFile_reference [Zero α] [Zero β] {eng : Engine α (MelVector β) ε γ κ}
    {modes : ContextModes} (hmodes : modes.Clean) {be : BatchBackend} (hbackend : be.Runs)
    (ring : HistoryRing γ) {toFloat : ℚ → α} (hfloat : ∀ s : ℤ, eng.sampleOf s = toFloat (s / 32768))
    (mixFloat32 : List UInt8 → ℕ → List α) {body : List UInt8} {samples : List Int16}
    (hload : loadWavFile body = .pcm (samples.map fun s => (s.toInt : ℚ) / 32768)) (hne : samples ≠ [])
    (hfits : PaddedFits samples.length) :
    ∃ rows result, transcribeFile eng modes ring be toFloat mixFloat32 body 0 = some (.done rows result) ∧
      utteranceReference eng (samples.map Int16.toInt) = some result := by
  have hconverted : (samples.map fun s => (s.toInt : ℚ) / 32768).map toFloat =
      (samples.map Int16.toInt).map eng.sampleOf := by
    rw [List.map_map, List.map_map]
    exact List.map_congr_left fun s _ => (hfloat s.toInt).symm
  have hsome : samples.map Int16.toInt ≠ [] := by simpa using hne
  have hfits' : PaddedFits (samples.map Int16.toInt).length := by
    rw [List.length_map]
    exact hfits
  have hreference := transcribeAudio_reference eng hmodes hbackend ring hsome hfits'
  rw [transcribeFile, hload]
  dsimp only
  rw [hconverted]
  exact hreference

/-- **A WAV file has one transcript.**  Let the server accept a body whose chunks are aligned up to the
first `data` chunk and whose last `fmt ` chunk before it says one channel of 16 bits, and let its padded
samples fit the 32-bit range.  When no graph fails, the batch run gets all it asks the backend for, and no
stream has used its context, the command line transcribes a file with these bytes without a limit on the
tokens.  The whole-body endpoint answers with the same text, up to the first zero byte, if nobody cancels it;
and so does every session whose worker pops these samples, in whatever pieces, if nobody requests its
cancellation, it stays open, its lag stays below the hard limit and the final text fits its queue. -/
theorem wav_has_one_transcript [Zero α] [Zero β] {eng : Engine α (MelVector β) ε γ κ}
    (hruns : ∀ n, eng.submitFails n = false) {maxEvents : ℕ} (hcapacity : 38 ≤ maxEvents)
    (device : Device ε γ κ) {modes : ContextModes} (hmodes : modes.Clean) {be : BatchBackend}
    (hbackend : be.Runs) (ring : HistoryRing γ) {toFloat : ℚ → α}
    (hfloat : ∀ s : ℤ, eng.sampleOf s = toFloat (s / 32768)) (mixFloat32 : List UInt8 → ℕ → List α)
    {body : List UInt8} {audio : AudioData} {before behind : List RiffChunk} {fmt data : RiffChunk}
    (hparse : parsePcm16Wav body = .ok audio)
    (hchunks : RiffChunks body (riffEnd body) 12 (before ++ data :: behind))
    (hlayout : AlignedLayout before fmt data) (hmono : SaysMonoPcm16 body fmt)
    (hfits : PaddedFits audio.samples.length) :
    ∃ rows transcript,
      transcribeFile eng modes ring be toFloat mixFloat32 body 0 = some (.done rows transcript) ∧
      (∃ least, ∀ rounds, least ≤ rounds → ∃ t answer,
        transcribeBatch rounds eng (Stream.create maxEvents device) (audio.samples.map Int16.toInt) =
          some (t, answer) ∧
        answer.ok = true ∧ answer.text = cString transcript.text) ∧
      ∀ (config : RealtimeConfiguration) (capacity : ℕ) (calls : List PcmCall) (path : PcmPath)
          (results : List (Option PopResult)),
        runSteps PcmPath.step (PcmPath.start capacity) calls = some (path, results) →
        (poppedChunks results).flatten = audio.samples.map Int16.toInt →
        ∃ bound before n ms, ∀ steps s os,
          runSteps (StreamSession.step config eng)
            (StreamSession.start (Stream.create maxEvents device) (poppedChunks results)) steps =
              some (s, os) →
          RunMeets (StreamSession.step config eng) StreamSession.Undisturbed
            (StreamSession.start (Stream.create maxEvents device) (poppedChunks results)) steps →
          StreamSession.Follows config eng bound
            (before ++ [.final n (cString transcript.text) ms, .completed (n + 1)]) steps s := by
  obtain ⟨hne, hload⟩ := loadWavFile_of_parse hparse hchunks hlayout hmono
  obtain ⟨rows, transcript, hfile, hreference⟩ :=
    transcribeFile_reference hmodes hbackend ring hfloat mixFloat32 hload hne hfits
  have hfits' : PaddedFits (audio.samples.map Int16.toInt).length := by
    rw [List.length_map]
    exact hfits
  have htext : streamText eng (audio.samples.map Int16.toInt) = transcript.text := by
    rw [streamText_reference eng (by simpa using hne)] at hreference
    exact congrArg VoxtralResult.text (Option.some.inj hreference)
  refine ⟨rows, transcript, hfile,
    ⟨enoughRounds maxEvents (audio.samples.map Int16.toInt).length, fun rounds hrounds => ?_⟩, ?_⟩
  · obtain ⟨t, ht⟩ := transcribeBatch_transcribes hruns hcapacity device hfits' hrounds
    exact ⟨t, _, ht, rfl, by rw [htext]⟩
  · intro config capacity calls path results hrun hsamples
    rw [← hsamples] at hfits' htext
    have hsize : ∀ chunk ∈ poppedChunks results, chunk ≠ [] ∧ chunk.length ≤ audioDrainSlice := by
      intro chunk hchunk
      obtain ⟨hne, hlength⟩ := poppedChunks_size hrun chunk hchunk
      exact ⟨hne, hlength.trans (by decide)⟩
    obtain ⟨bound, before, n, ms, -, hfollows⟩ :=
      session_transcribes hruns hcapacity device config hsize hfits'
    rw [htext] at hfollows
    exact ⟨bound, before, n, ms, hfollows⟩

/-- The plain engine on frames with bins. -/
def vectorEngine : Engine ℤ (MelVector ℤ) Unit Unit Unit :=
  { plainEngine defaultSchedule with
    melFrame := fun _ _ => 0
    encoderFrame := fun _ => () }

/-- A backend on which everything runs. -/
def workingBackend : BatchBackend where
  encoderRuns _ := true
  allocates := true
  decodes := true

/-- A sample between -1 and 1 as an integer. -/
def scaledSample (x : ℚ) : ℤ := (x * 32768).num

/-- The file with an unknown chunk of four bytes. -/
theorem wav_has_one_transcript_junk : ∃ audio rows transcript,
    parsePcm16Wav evenJunkWav = .ok audio ∧
    transcribeFile vectorEngine {} (fun _ => ⟨0, ()⟩) workingBackend scaledSample (fun _ _ => [])
      evenJunkWav 0 = some (.done rows transcript) ∧
    ∃ least, ∀ rounds, least ≤ rounds → ∃ t answer,
      transcribeBatch rounds vectorEngine (Stream.create 64 plainDevice)
        (audio.samples.map Int16.toInt) = some (t, answer) ∧
      answer.ok = true ∧ answer.text = cString transcript.text := by
  have hchunks : RiffChunks evenJunkWav (riffEnd evenJunkWav) 12 ([⟨fourCC "JUNK", 4, 20⟩,
      ⟨fourCC "fmt ", 16, 32⟩] ++ ⟨fourCC "data", 4, 56⟩ :: []) := by
    rw [show riffEnd evenJunkWav = 60 by decide +kernel]
    refine .cons ?_ ?_ rfl ?_ (.cons ?_ ?_ rfl ?_ (.cons ?_ ?_ rfl ?_ .nil)) <;> decide +kernel
  have hlayout : AlignedLayout [⟨fourCC "JUNK", 4, 20⟩, ⟨fourCC "fmt ", 16, 32⟩] ⟨fourCC "fmt ", 16, 32⟩
      ⟨fourCC "data", 4, 56⟩ := by
    constructor <;> decide +kernel
  have hfits : PaddedFits ([4660, -292] : List Int16).length := by
    change 40960 + 2 + finishRightPad 2 < 2 ^ 31
    decide
  have hfloat : ∀ s : ℤ, vectorEngine.sampleOf s = scaledSample (s / 32768) := by
    intro s
    rw [scaledSample, div_mul_cancel₀ _ (by decide)]
    exact (Rat.num_intCast s).symm
  have hruns : ∀ n, vectorEngine.submitFails n = false := fun _ => rfl
  have hmodes : ({} : ContextModes).Clean := ⟨rfl, rfl⟩
  have hbackend : workingBackend.Runs := ⟨fun _ => rfl, rfl, rfl⟩
  have hparse : parsePcm16Wav evenJunkWav = .ok ⟨[4660, -292], 0⟩ := by decide +kernel
  obtain ⟨rows, transcript, hfile, hbatch, -⟩ := wav_has_one_transcript hruns (show 38 ≤ 64 by decide)
    plainDevice hmodes hbackend (fun _ => ⟨0, ()⟩) hfloat (fun _ _ => []) hparse hchunks hlayout
    (by unfold SaysMonoPcm16; decide +kernel) hfits
  exact ⟨⟨[4660, -292], 0⟩, rows, transcript, hparse, hfile, hbatch⟩

end Voxtral
