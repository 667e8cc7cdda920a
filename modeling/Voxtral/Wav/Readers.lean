import Voxtral.Lib.Narrowing
import Voxtral.Lib.Riff
import Mathlib.Algebra.Field.Rat
import Mathlib.Algebra.BigOperators.Group.List.Basic

/-!
# The two WAV readers

`parse_pcm16_wav` of the server walks all RIFF chunks of a request body and takes the first `fmt ` and the
first `data` chunk.  `load_wav_file` of the library reads a file as a stream, from chunk header to chunk
header, until it has seen a `fmt ` and a `data` chunk, and takes the samples from where it then is.  The
arithmetic of its float samples is exact for one channel and is kept in the rationals.
-/

namespace Voxtral

/-- The four bytes of an identifier. -/
def fourCC (id : String) : List UInt8 := id.toUTF8.toList

/-! ## The server's reader -/

/-- `AudioData`. -/
structure AudioData where
  samples : List Int16
  durationMs : ℕ
  deriving DecidableEq

/-- The locals of the chunk loop of `parse_pcm16_wav`; `data` is the offset of the samples. -/
structure WavScan where
  haveFmt : Bool := false
  haveData : Bool := false
  audioFormat : ℕ := 0
  channels : ℕ := 0
  sampleRate : ℕ := 0
  byteRate : ℕ := 0
  blockAlign : ℕ := 0
  bitsPerSample : ℕ := 0
  data : ℕ := 0
  dataSize : ℕ := 0
  deriving DecidableEq

/-- A failure: its code and message. -/
abbrev AudioFailure := String × String

/-- What the loop does with a chunk. -/
def WavScan.chunk (body : List UInt8) (st : WavScan) (c : RiffChunk) : Except AudioFailure WavScan :=
  if c.id = fourCC "fmt " ∧ st.haveFmt = false then
    if c.size < 16 then .error ("invalid_argument", "The WAV fmt chunk is too small.")
    else
      .ok { st with
        audioFormat := u16le body c.offset
        channels := u16le body (c.offset + 2)
        sampleRate := u32le body (c.offset + 4)
        byteRate := u32le body (c.offset + 8)
        blockAlign := u16le body (c.offset + 12)
        bitsPerSample := u16le body (c.offset + 14)
        haveFmt := true }
  else if c.id = fourCC "data" ∧ st.haveData = false then
    .ok { st with data := c.offset, dataSize := c.size, haveData := true }
  else .ok st

/-- The chunk loop of `parse_pcm16_wav`.  Every round moves on by eight bytes at least, so as many rounds as
there are bytes are enough. -/
def scanChunks (body : List UInt8) (riffEnd : ℕ) : ℕ → ℕ → WavScan → Except AudioFailure WavScan
  | 0, _, st => .ok st
  | rounds + 1, offset, st =>
    if offset < riffEnd then
      if riffEnd - offset < 8 then .error ("invalid_argument", "The WAV chunk header is truncated.")
      else
        let size := u32le body (offset + 4)
        if riffEnd - (offset + 8) < size then .error ("invalid_argument", "The WAV chunk size is invalid.")
        else
          match st.chunk body ⟨byteSlice body offset 4, size, offset + 8⟩ with
          | .error e => .error e
          | .ok st' =>
            if size % 2 ≠ 0 then
              if offset + 8 + size = riffEnd then
                .error ("invalid_argument", "The WAV chunk padding byte is missing.")
              else scanChunks body riffEnd rounds (offset + 8 + size + 1) st'
            else scanChunks body riffEnd rounds (offset + 8 + size) st'
    else .ok st

/-- `make_audio`. -/
def makeAudio (bytes : List UInt8) : Except AudioFailure AudioData :=
  if bytes.length = 0 ∨ bytes.length % 2 ≠ 0 then
    .error ("invalid_argument", "PCM audio must contain a non-zero even number of bytes.")
  else .ok ⟨decodePcm16 bytes, (decodePcm16 bytes).length * 1000 / 16000⟩

/-- The end of the RIFF data of a body. -/
def riffEnd (body : List UInt8) : ℕ := u32le body 4 + 8

/-- `parse_pcm16_wav`. -/
def parsePcm16Wav (body : List UInt8) : Except AudioFailure AudioData :=
  if body.length < 12 ∨ byteSlice body 0 4 ≠ fourCC "RIFF" ∨ byteSlice body 8 4 ≠ fourCC "WAVE" then
    .error ("invalid_argument", "The request body is not a valid RIFF/WAVE file.")
  else if riffEnd body < 12 ∨ body.length < riffEnd body then
    .error ("invalid_argument", "The WAV RIFF size is invalid.")
  else
    match scanChunks body (riffEnd body) body.length 12 {} with
    | .error e => .error e
    | .ok st =>
      if st.haveFmt = false ∨ st.haveData = false then
        .error ("invalid_argument", "The WAV file must contain fmt and data chunks.")
      else if st.audioFormat ≠ 1 then
        .error ("unsupported_audio_format", "Only uncompressed integer PCM WAV is supported.")
      else if st.channels ≠ 1 ∨ st.sampleRate ≠ 16000 ∨ st.bitsPerSample ≠ 16 ∨ st.blockAlign ≠ 2 ∨
          st.byteRate ≠ 32000 then
        .error ("unsupported_audio_format",
          "WAV audio must be signed PCM16 little-endian, mono, 16000 Hz.")
      else makeAudio (byteSlice body st.data st.dataSize)

/-! ## The library's reader -/

/-- A `std::ifstream` on a file: once a read came short it fails. -/
structure FileStream where
  bytes : List UInt8
  pos : ℕ := 0
  failed : Bool := false
  deriving DecidableEq

/-- `read` into a buffer that held `old`: what is not read keeps its value. -/
def FileStream.read (f : FileStream) (old : List UInt8) : List UInt8 × FileStream :=
  if f.failed then (old, f)
  else
    let got := byteSlice f.bytes f.pos old.length
    (got ++ old.drop got.length,
      { f with pos := f.pos + got.length, failed := decide (got.length < old.length) })

/-- `seekg(n, std::ios::cur)`, also past the end. -/
def FileStream.seekCur (f : FileStream) (n : ℕ) : FileStream :=
  if f.failed then f else { f with pos := f.pos + n }

/-- The fields `load_wav_file` reads, as they stand in memory.  `dataOffset` is not a variable of the source:
it records where the payload of the data chunk begins, for the accesses to be judged by. -/
structure WavFields where
  audioFormat : List UInt8 := [0, 0]
  numChannels : List UInt8 := [0, 0]
  bitsPerSample : List UInt8 := [0, 0]
  sampleRate : List UInt8 := [0, 0, 0, 0]
  dataSize : ℕ := 0
  dataOffset : ℕ := 0
  foundFmt : Bool := false
  foundData : Bool := false
  deriving DecidableEq

/-- The body of a `fmt ` chunk of `subSize` bytes. -/
def readFmt (f : FileStream) (w : WavFields) (subSize : ℕ) : FileStream × WavFields :=
  let (audioFormat, f) := f.read w.audioFormat
  let (numChannels, f) := f.read w.numChannels
  let (sampleRate, f) := f.read w.sampleRate
  let (_, f) := f.read [0, 0, 0, 0]
  let (_, f) := f.read [0, 0]
  let (bitsPerSample, f) := f.read w.bitsPerSample
  (if 16 < subSize then f.seekCur (subSize - 16) else f,
    { w with audioFormat, numChannels, sampleRate, bitsPerSample, foundFmt := true })

/-- The chunk loop of `load_wav_file`.  Every round reads a header or ends it, so as many rounds as there are
bytes are enough. -/
def loadLoop : ℕ → FileStream → WavFields → FileStream × WavFields
  | 0, f, w => (f, w)
  | rounds + 1, f, w =>
    if f.failed ∨ (w.foundFmt ∧ w.foundData) then (f, w)
    else
      let (subId, f) := f.read [0, 0, 0, 0]
      let (subSize, f) := f.read [0, 0, 0, 0]
      if f.failed then (f, w)
      else if subId = fourCC "fmt " then
        loadLoop rounds (readFmt f w (leValue subSize)).1 (readFmt f w (leValue subSize)).2
      else if subId = fourCC "data" then
        loadLoop rounds f { w with dataSize := leValue subSize, dataOffset := f.pos, foundData := true }
      else loadLoop rounds (f.seekCur (leValue subSize)) w

/-- What `load_wav_file` does: return `false`, divide by zero or write behind a buffer, or return samples;
samples of a float file are left as the 32-bit words they are averaged from. -/
inductive LoadOutcome
  | rejected
  | undefined
  | pcm (audio : List ℚ)
  | float32 (raw : List UInt8) (numChannels : ℕ)
  deriving DecidableEq

/-- The average of the channels of 16-bit samples. -/
def mixPcm16 (raw : List Int16) (numChannels nSamples : ℕ) : List ℚ :=
  (List.range nSamples).map fun i =>
    ((List.range numChannels).map fun c =>
      (((raw.getD (i * numChannels + c) 0).toInt : ℚ) / 32768)).sum / numChannels

/-- `load_wav_file` behind its chunk loop. -/
def loadSamples (f : FileStream) (w : WavFields) : LoadOutcome :=
  let audioFormat := leValue w.audioFormat
  let numChannels := leValue w.numChannels
  let bitsPerSample := leValue w.bitsPerSample
  if ¬ (w.foundFmt ∧ w.foundData) then .rejected
  else if audioFormat ≠ 1 ∧ audioFormat ≠ 3 then .rejected
  else if bitsPerSample / 8 = 0 ∨ numChannels = 0 then .undefined
  else
    let nSamplesTotal := w.dataSize / (bitsPerSample / 8)
    let nSamples := nSamplesTotal / numChannels
    let got := byteSlice f.bytes f.pos w.dataSize
    if audioFormat = 1 ∧ bitsPerSample = 16 then
      if 2 * nSamplesTotal < got.length ∧ f.failed = false then .undefined
      else
        let raw := (f.read (List.replicate (2 * nSamplesTotal) 0)).1
        .pcm (mixPcm16 (decodePcm16 raw) numChannels nSamples)
    else if audioFormat = 3 ∧ bitsPerSample = 32 then
      if 4 * nSamplesTotal < got.length ∧ f.failed = false then .undefined
      else .float32 (f.read (List.replicate (4 * nSamplesTotal) 0)).1 numChannels
    else .rejected

/-- `load_wav_file` of a file with these bytes; memory that is not read counts as zero. -/
def loadWavFile (bytes : List UInt8) : LoadOutcome :=
  let (riff, f) := FileStream.read { bytes } [0, 0, 0, 0]
  if riff ≠ fourCC "RIFF" then .rejected
  else
    let (_, f) := f.read [0, 0, 0, 0]
    let (wave, f) := f.read [0, 0, 0, 0]
    if wave ≠ fourCC "WAVE" then .rejected
    else
      let r := loadLoop (bytes.length + 1) f {}
      loadSamples r.1 r.2

end Voxtral
