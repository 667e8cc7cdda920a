import Mathlib.Algebra.Group.Nat.Defs
import Mathlib.Data.Nat.Basic

/-!
# Constants of the runtime

The macros of `include/voxtral.h` and the `constexpr` bounds of the streaming modules.  They carry
`@[simp]` so that arithmetic goals see the numerals.
-/

namespace Voxtral

/-- `VOXTRAL_SAMPLE_RATE`. -/
@[simp] def sampleRate : ℕ := 16000

/-- `VOXTRAL_NUM_MEL_BINS`. -/
@[simp] def numMelBins : ℕ := 128

/-- `VOXTRAL_HOP_LENGTH`, the hop of the Mel frontend (`FE_HOP`). -/
@[simp] def hopLength : ℕ := 160

/-- `VOXTRAL_WINDOW_SIZE`, the STFT window (`FE_N_FFT`). -/
@[simp] def windowSize : ℕ := 400

/-- `VOXTRAL_MEL_PAD`, the reflect padding on each side (`FE_PAD`). -/
@[simp] def melPad : ℕ := windowSize / 2

/-- `VOXTRAL_DOWNSAMPLE_FACTOR`: encoder frames per adapter group. -/
@[simp] def downsampleFactor : ℕ := 4

/-- `VOXTRAL_RAW_AUDIO_LENGTH_PER_TOK`: raw samples per audio token (80 ms). -/
@[simp] def rawAudioLengthPerTok : ℕ := 1280

/-- `VOXTRAL_N_LEFT_PAD_TOKENS`. -/
@[simp] def nLeftPadTokens : ℕ := 32

/-- `VOXTRAL_N_DELAY_TOKENS`. -/
@[simp] def nDelayTokens : ℕ := 6

/-- `VOXTRAL_N_RIGHT_PAD_TOKENS`. -/
@[simp] def nRightPadTokens : ℕ := 17

/-- `VOXTRAL_DEC_WINDOW`: the slots of the decoder's K/V cache. -/
@[simp] def decWindow : ℕ := 8192

/-- `kStreamLeftPad`: the streaming left zero-padding in samples. -/
@[simp] def streamLeftPad : ℕ := nLeftPadTokens * rawAudioLengthPerTok

/-- `kMaxFeedSamples`: the per-call sample limit. -/
@[simp] def maxFeedSamples : ℕ := 64 * 1024 * 1024

/-- `kAudioDrainSlice`: a large feed is drained in slices of this many samples. -/
@[simp] def audioDrainSlice : ℕ := 16000

/-- `kMelDrainSlice`: Mel frames handed to the encoder per push. -/
@[simp] def melDrainSlice : ℕ := 8

/-- `kMaxEvents`: the greatest event-queue capacity (`VOXTRAL_EVENT_QUEUE_CAPACITY_MAX`). -/
@[simp] def maxEventsLimit : ℕ := 4096

/-- `kTerminalEventHeadroom`: queue slots reserved for the terminal flush. -/
@[simp] def terminalEventHeadroom : ℕ := 64

/-- `VOXTRAL_EVENT_TEXT_CAPACITY`: size of the text array of a public event. -/
@[simp] def eventTextCapacity : ℕ := 4096

/-- `VOXTRAL_ENC_WINDOW`: frames of causal attention window. -/
@[simp] def encWindow : ℕ := 750

/-- `VOXTRAL_ENC_KV_MAX_NEW`: greatest number of new frames per encoder graph. -/
@[simp] def encKvMaxNew : ℕ := 128

/-- `VOXTRAL_ENC_KV_CAP`: slots of the encoder K/V ring. -/
@[simp] def encKvCap : ℕ := encWindow + encKvMaxNew

/-- `VOXTRAL_ENC_OUT_RING_CAP`: slots of the encoder-output ring. -/
@[simp] def encOutRingCap : ℕ := 256

/-- `VOXTRAL_AEMB_RING_CAP`: slots of the audio-embedding ring. -/
@[simp] def aembRingCap : ℕ := 256

/-- `UINT64_MAX`. -/
@[simp] def uint64Max : ℕ := 2 ^ 64 - 1

/-- `INT64_MAX`. -/
@[simp] def int64Max : ℕ := 2 ^ 63 - 1

/-- `VOXTRAL_TOKEN_BOS`. -/
@[simp] def tokenBos : ℤ := 1

/-- `VOXTRAL_TOKEN_EOS`. -/
@[simp] def tokenEos : ℤ := 2

/-- `VOXTRAL_TOKEN_STREAMING_PAD`. -/
@[simp] def tokenStreamingPad : ℤ := 32

end Voxtral
