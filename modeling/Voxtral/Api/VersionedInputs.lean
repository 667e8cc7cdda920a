import Voxtral.Api.VersionedStructs

/-!
# Caller-owned input structures

Every input structure of the C interface starts with its size and version as well.  The library reads the
header, and of the fields it knows those that lie within the declared size; the others keep their
defaults.  The audio description in the stream parameters is a versioned structure within a versioned
structure: it is taken over only as a whole, and then read up to its own size.

A byte that may not be read has no value, and reading it has no result.  So a normalization that has a
result on memory that ends at the declared size reads no byte behind it.

## Main statements

* `readFieldIfAvailable_eq`: a field within the prefix overrides the default, and nothing else is read.
* `normalize_within_prefix`: what the three normalizations return.
-/

namespace Voxtral

/-- The memory behind an input pointer, by the offset; `none` where nothing may be read. -/
abbrev InputMemory := ℕ → Option UInt8

/-- `memcpy` of `n` bytes from an offset. -/
def InputMemory.read (mem : InputMemory) (offset n : ℕ) : Option (List UInt8) :=
  (List.range' offset n).mapM mem

/-- `read_header` of an input: whether there is an acceptable header, and the header. -/
def readInputHeader (mem : InputMemory) : Option (Option VersionedHeader) :=
  (mem.read 0 8).map fun bytes =>
    let header : VersionedHeader := ⟨leValue (bytes.take 4), leValue (bytes.drop 4)⟩
    if versionedHeaderSize ≤ header.structSize ∧ header.structSize ≤ maxVersionedStructSize ∧
        apiVersionCompatible header.apiVersion then some header
    else none

/-- `field_available`. -/
def fieldAvailable (structSize offset fieldSize : ℕ) : Bool :=
  offset ≤ structSize && fieldSize ≤ structSize - offset

/-- `read_field_if_available`; `set` writes the member of the destination. -/
def readFieldIfAvailable {τ : Type*} (source : InputMemory) (sourceSize offset fieldSize : ℕ)
    (set : τ → ℕ → τ) (destination : τ) : Option τ :=
  if fieldAvailable sourceSize offset fieldSize = false then some destination
  else (source.read offset fieldSize).map fun bytes => set destination (leValue bytes)

/-- `voxtral_model_params` with the defaults of `voxtral_model_default_params`; enumerations are the
numbers they hold. -/
structure ModelParams where
  structSize : ℕ := 24
  apiVersion : ℕ := Voxtral.apiVersion
  backend : ℕ := 1
  logLevel : ℕ := 0
  flags : ℕ := 0
  reserved : ℕ := 0
  deriving DecidableEq, Repr

/-- `voxtral_context_config` with the defaults of `voxtral_context_default_config`. -/
structure ContextConfig where
  structSize : ℕ := 16
  apiVersion : ℕ := Voxtral.apiVersion
  nThreads : ℤ := 0
  flags : ℕ := 0
  deriving DecidableEq, Repr

/-- `voxtral_audio_config` with the defaults of `voxtral_audio_default_config`. -/
structure AudioConfig where
  structSize : ℕ := 24
  apiVersion : ℕ := Voxtral.apiVersion
  sampleRate : ℕ := Voxtral.sampleRate
  channels : ℕ := 1
  format : ℕ := 1
  reserved : ℕ := 0
  deriving DecidableEq, Repr

/-- `voxtral_stream_params` with the defaults of `voxtral_stream_default_params`. -/
structure PublicStreamParams where
  structSize : ℕ := 48
  apiVersion : ℕ := Voxtral.apiVersion
  audio : AudioConfig := {}
  eventQueueCapacity : ℕ := 4096
  flags : ℕ := 0
  reserved : ℕ := 0
  deriving DecidableEq, Repr

/-- `normalize_model_params`; the Boolean is `ok`. -/
def normalizeModelParams (input : Option InputMemory) : Option (ModelParams × Bool) :=
  match input with
  | none => some ({}, true)
  | some mem =>
    (readInputHeader mem).bind fun header =>
      match header with
      | none => some ({}, false)
      | some header => do
        let out : ModelParams := {}
        let out ← readFieldIfAvailable mem header.structSize 8 4
          (fun out value => { out with backend := value }) out
        let out ← readFieldIfAvailable mem header.structSize 12 4
          (fun out value => { out with logLevel := value }) out
        let out ← readFieldIfAvailable mem header.structSize 16 4
          (fun out value => { out with flags := value }) out
        let out ← readFieldIfAvailable mem header.structSize 20 4
          (fun out value => { out with reserved := value }) out
        some ({ out with structSize := 24, apiVersion := Voxtral.apiVersion }, true)

/-- `normalize_context_config`. -/
def normalizeContextConfig (input : Option InputMemory) : Option (ContextConfig × Bool) :=
  match input with
  | none => some ({}, true)
  | some mem =>
    (readInputHeader mem).bind fun header =>
      match header with
      | none => some ({}, false)
      | some header => do
        let out : ContextConfig := {}
        let out ← readFieldIfAvailable mem header.structSize 8 4
          (fun out value => { out with nThreads := narrow32 value }) out
        let out ← readFieldIfAvailable mem header.structSize 12 4
          (fun out value => { out with flags := value }) out
        some ({ out with structSize := 16, apiVersion := Voxtral.apiVersion }, true)

/-- `normalize_audio_config`. -/
def normalizeAudioConfig (mem : InputMemory) : Option (AudioConfig × Bool) :=
  (readInputHeader mem).bind fun header =>
    match header with
    | none => some ({}, false)
    | some header => do
      let out : AudioConfig := {}
      let out ← readFieldIfAvailable mem header.structSize 8 4
        (fun out value => { out with sampleRate := value }) out
      let out ← readFieldIfAvailable mem header.structSize 12 4
        (fun out value => { out with channels := value }) out
      let out ← readFieldIfAvailable mem header.structSize 16 4
        (fun out value => { out with format := value }) out
      let out ← readFieldIfAvailable mem header.structSize 20 4
        (fun out value => { out with reserved := value }) out
      some ({ out with structSize := 24, apiVersion := Voxtral.apiVersion }, true)

/-- The part of `normalize_stream_params` about the audio description: a local copy of it, if all of it
is there, is normalized. -/
def normalizeStreamAudio (mem : InputMemory) (structSize : ℕ) (out : PublicStreamParams) :
    Option (PublicStreamParams × Bool) :=
  if fieldAvailable structSize 8 24 = true then
    (mem.read 8 24).bind fun rawAudio =>
      (normalizeAudioConfig fun i => rawAudio[i]?).map fun audio =>
        ({ out with audio := audio.1 }, audio.2)
  else some (out, true)

/-- `normalize_stream_params`. -/
def normalizeStreamParams (input : Option InputMemory) : Option (PublicStreamParams × Bool) :=
  match input with
  | none => some ({}, false)
  | some mem =>
    (readInputHeader mem).bind fun header =>
      match header with
      | none => some ({}, false)
      | some header => do
        let (out, ok) ← normalizeStreamAudio mem header.structSize {}
        let out ← readFieldIfAvailable mem header.structSize 32 4
          (fun out value => { out with eventQueueCapacity := value }) out
        let out ← readFieldIfAvailable mem header.structSize 36 4
          (fun out value => { out with flags := value }) out
        let out ← readFieldIfAvailable mem header.structSize 40 8
          (fun out value => { out with reserved := value }) out
        some ({ out with structSize := 48, apiVersion := Voxtral.apiVersion }, ok)

/-! ## Fields -/

/-- The field of `fieldSize` bytes at `offset`, if it lies within the first `size` bytes. -/
def CallerMemory.field (bytes : CallerMemory) (size offset fieldSize default : ℕ) : ℕ :=
  if offset + fieldSize ≤ size then leValue (bytes.slice offset fieldSize) else default

/-- The memory holds `bytes` up to `size`; behind that anything may be, or nothing. -/
def HoldsPrefix (mem : InputMemory) (bytes : CallerMemory) (size : ℕ) : Prop :=
  ∀ i < size, mem i = some (bytes i)

section Fields

variable {mem : InputMemory} {bytes : CallerMemory} {size : ℕ}

/-- A field is available if it ends within the declared size. -/
lemma fieldAvailable_iff (size offset fieldSize : ℕ) :
    fieldAvailable size offset fieldSize = true ↔ offset + fieldSize ≤ size := by
  unfold fieldAvailable
  rw [Bool.and_eq_true, decide_eq_true_eq, decide_eq_true_eq]
  omega

/-- A copy from within the prefix copies its bytes. -/
lemma HoldsPrefix.read (h : HoldsPrefix mem bytes size) {offset n : ℕ} (hle : offset + n ≤ size) :
    mem.read offset n = some (bytes.slice offset n) := by
  unfold InputMemory.read CallerMemory.slice
  induction n generalizing offset with
  | zero => rfl
  | succ n ih =>
    rw [List.range'_succ, List.mapM_cons, h offset (by omega), ih (by omega)]
    rfl

/-- **One field** of a structure of `whole` bytes: within the prefix it overrides the destination's,
otherwise nothing is read. -/
lemma readFieldIfAvailable_eq {τ : Type*} {whole : ℕ} (h : HoldsPrefix mem bytes (min size whole))
    {offset fieldSize : ℕ} (hwhole : offset + fieldSize ≤ whole) (set : τ → ℕ → τ)
    (destination : τ) :
    readFieldIfAvailable mem size offset fieldSize set destination =
      some (if offset + fieldSize ≤ size then
        set destination (leValue (bytes.slice offset fieldSize)) else destination) := by
  unfold readFieldIfAvailable
  by_cases hle : offset + fieldSize ≤ size
  · rw [(fieldAvailable_iff _ _ _).mpr hle, if_neg (by decide), if_pos hle,
      h.read (le_min hle hwhole)]
    rfl
  · rw [Bool.eq_false_iff.mpr ((fieldAvailable_iff _ _ _).not.mpr hle), if_pos rfl, if_neg hle]

/-- The header of an input is that of the bytes in front. -/
lemma readInputHeader_eq (h : HoldsPrefix mem bytes size) (hsize : 8 ≤ size) :
    readInputHeader mem = some (readHeader bytes) := by
  unfold readInputHeader
  rw [h.read hsize]
  rfl

/-- An accepted header declares at least itself. -/
lemma structSize_ge_of_readHeader {header : VersionedHeader} (h : readHeader bytes = some header) :
    8 ≤ header.structSize := by
  unfold readHeader at h
  dsimp only at h
  split_ifs at h with hok
  rw [← Option.some.inj h]
  exact hok.1

/-- Memory that holds a prefix holds every shorter one. -/
lemma HoldsPrefix.mono {size' : ℕ} (h : HoldsPrefix mem bytes size) (hle : size' ≤ size) :
    HoldsPrefix mem bytes size' := fun i hi => h i (Nat.lt_of_lt_of_le hi hle)

end Fields

/-! ## Structures -/

section Structures

variable {mem : InputMemory} {bytes : CallerMemory} {header : VersionedHeader}

/-- `normalize_model_params` takes the fields within the declared size and the defaults elsewhere. -/
lemma normalizeModelParams_eq (hheader : readHeader bytes = some header)
    (hmem : HoldsPrefix mem bytes (min header.structSize 24)) :
    normalizeModelParams (some mem) =
      some ({ backend := bytes.field header.structSize 8 4 1
              logLevel := bytes.field header.structSize 12 4 0
              flags := bytes.field header.structSize 16 4 0
              reserved := bytes.field header.structSize 20 4 0 }, true) := by
  have hsize := structSize_ge_of_readHeader hheader
  simp only [normalizeModelParams, readInputHeader_eq hmem (show 8 ≤ min header.structSize 24 by omega),
    hheader, Option.bind_some, readFieldIfAvailable_eq hmem (show 8 + 4 ≤ 24 by decide),
    readFieldIfAvailable_eq hmem (show 12 + 4 ≤ 24 by decide),
    readFieldIfAvailable_eq hmem (show 16 + 4 ≤ 24 by decide),
    readFieldIfAvailable_eq hmem (show 20 + 4 ≤ 24 by decide), CallerMemory.field,
    Option.bind_eq_bind]
  split_ifs <;> rfl

/-- `normalize_context_config` takes the fields within the declared size and the defaults elsewhere. -/
lemma normalizeContextConfig_eq (hheader : readHeader bytes = some header)
    (hmem : HoldsPrefix mem bytes (min header.structSize 16)) :
    normalizeContextConfig (some mem) =
      some ({ nThreads := narrow32 (bytes.field header.structSize 8 4 0)
              flags := bytes.field header.structSize 12 4 0 }, true) := by
  have hsize := structSize_ge_of_readHeader hheader
  have hdefault : narrow32 ((0 : ℕ) : ℤ) = 0 := by decide
  simp only [normalizeContextConfig,
    readInputHeader_eq hmem (show 8 ≤ min header.structSize 16 by omega), hheader,
    Option.bind_some, readFieldIfAvailable_eq hmem (show 8 + 4 ≤ 16 by decide),
    readFieldIfAvailable_eq hmem (show 12 + 4 ≤ 16 by decide), CallerMemory.field,
    Option.bind_eq_bind, Nat.cast_ite, apply_ite narrow32, hdefault]
  split_ifs <;> dsimp only

/-- `normalize_audio_config` takes the fields within the declared size and the defaults elsewhere. -/
lemma normalizeAudioConfig_eq (hheader : readHeader bytes = some header)
    (hmem : HoldsPrefix mem bytes (min header.structSize 24)) :
    normalizeAudioConfig mem =
      some ({ sampleRate := bytes.field header.structSize 8 4 sampleRate
              channels := bytes.field header.structSize 12 4 1
              format := bytes.field header.structSize 16 4 1
              reserved := bytes.field header.structSize 20 4 0 }, true) := by
  have hsize := structSize_ge_of_readHeader hheader
  simp only [normalizeAudioConfig,
    readInputHeader_eq hmem (show 8 ≤ min header.structSize 24 by omega), hheader,
    Option.bind_some, readFieldIfAvailable_eq hmem (show 8 + 4 ≤ 24 by decide),
    readFieldIfAvailable_eq hmem (show 12 + 4 ≤ 24 by decide),
    readFieldIfAvailable_eq hmem (show 16 + 4 ≤ 24 by decide),
    readFieldIfAvailable_eq hmem (show 20 + 4 ≤ 24 by decide), CallerMemory.field,
    Option.bind_eq_bind]
  split_ifs <;> rfl

/-- An audio description with an unacceptable header is not normalized. -/
lemma normalizeAudioConfig_rejected (hheader : readHeader bytes = none)
    (hmem : HoldsPrefix mem bytes 8) : normalizeAudioConfig mem = some ({}, false) := by
  rw [normalizeAudioConfig, readInputHeader_eq hmem le_rfl, hheader]
  rfl

/-- The bytes from an offset on. -/
def CallerMemory.shift (bytes : CallerMemory) (offset : ℕ) : CallerMemory :=
  fun i => bytes (offset + i)

/-- A local copy holds what was copied. -/
lemma holdsPrefix_copy (bytes : CallerMemory) (offset n : ℕ) :
    HoldsPrefix (fun i => (bytes.slice offset n)[i]?) (bytes.shift offset) n := by
  intro i hi
  change ((List.range' offset n).map bytes)[i]? = _
  rw [List.getElem?_map, List.getElem?_range' hi, Nat.one_mul]
  rfl

/-- What `normalize_stream_params` makes of the audio description: nothing unless all of it is within
the outer prefix, and then the fields within its own. -/
def streamAudio (bytes : CallerMemory) (size : ℕ) : AudioConfig × Bool :=
  if 32 ≤ size then
    match readHeader (bytes.shift 8) with
    | none => ({}, false)
    | some nested =>
      ({ sampleRate := (bytes.shift 8).field nested.structSize 8 4 sampleRate
         channels := (bytes.shift 8).field nested.structSize 12 4 1
         format := (bytes.shift 8).field nested.structSize 16 4 1
         reserved := (bytes.shift 8).field nested.structSize 20 4 0 }, true)
  else ({}, true)

/-- The audio of the stream parameters is read within both declared sizes. -/
lemma normalizeStreamAudio_eq {size : ℕ} (hmem : HoldsPrefix mem bytes (min size 48))
    (out : PublicStreamParams) (hout : out.audio = {}) :
    normalizeStreamAudio mem size out =
      some ({ out with audio := (streamAudio bytes size).1 }, (streamAudio bytes size).2) := by
  unfold normalizeStreamAudio streamAudio
  by_cases hle : 32 ≤ size
  · have hcopy := holdsPrefix_copy bytes 8 24
    rw [if_pos ((fieldAvailable_iff _ _ _).mpr hle), if_pos hle, hmem.read (by omega),
      Option.bind_some]
    cases hheader : readHeader (bytes.shift 8) with
    | none =>
      rw [normalizeAudioConfig_rejected hheader (hcopy.mono (by decide))]
      rfl
    | some nested =>
      rw [normalizeAudioConfig_eq hheader (hcopy.mono (Nat.min_le_right _ _))]
      rfl
  · rw [if_neg ((fieldAvailable_iff _ _ _).not.mpr hle), if_neg hle, ← hout]

/-- `normalize_stream_params` takes the fields within the declared size and the defaults elsewhere. -/
lemma normalizeStreamParams_eq (hheader : readHeader bytes = some header)
    (hmem : HoldsPrefix mem bytes (min header.structSize 48)) :
    normalizeStreamParams (some mem) =
      some ({ audio := (streamAudio bytes header.structSize).1
              eventQueueCapacity := bytes.field header.structSize 32 4 4096
              flags := bytes.field header.structSize 36 4 0
              reserved := bytes.field header.structSize 40 8 0 },
        (streamAudio bytes header.structSize).2) := by
  have hsize := structSize_ge_of_readHeader hheader
  simp only [normalizeStreamParams,
    readInputHeader_eq hmem (show 8 ≤ min header.structSize 48 by omega), hheader,
    Option.bind_some, normalizeStreamAudio_eq hmem {} rfl,
    readFieldIfAvailable_eq hmem (show 32 + 4 ≤ 48 by decide),
    readFieldIfAvailable_eq hmem (show 36 + 4 ≤ 48 by decide),
    readFieldIfAvailable_eq hmem (show 40 + 8 ≤ 48 by decide), CallerMemory.field,
    Option.bind_eq_bind]
  split_ifs <;> rfl

/-- **Inputs are normalized within their prefix.**  On every memory that holds `bytes` up to the declared
size, whatever is behind it and whether or not it may be read, the normalized structures are the
defaults overridden by the fields within the declared size.  The audio description is taken over as a
whole, and then up to its own size as well. -/
theorem normalize_within_prefix (bytes : CallerMemory) {header : VersionedHeader}
    (hheader : readHeader bytes = some header) (mem : InputMemory)
    (hmem : HoldsPrefix mem bytes header.structSize) :
    normalizeModelParams (some mem) =
        some ({ backend := bytes.field header.structSize 8 4 1
                logLevel := bytes.field header.structSize 12 4 0
                flags := bytes.field header.structSize 16 4 0
                reserved := bytes.field header.structSize 20 4 0 }, true) ∧
      normalizeContextConfig (some mem) =
        some ({ nThreads := narrow32 (bytes.field header.structSize 8 4 0)
                flags := bytes.field header.structSize 12 4 0 }, true) ∧
      ∃ audio ok, normalizeStreamParams (some mem) =
          some ({ audio := audio
                  eventQueueCapacity := bytes.field header.structSize 32 4 4096
                  flags := bytes.field header.structSize 36 4 0
                  reserved := bytes.field header.structSize 40 8 0 }, ok) ∧
        (header.structSize < 32 → audio = {} ∧ ok = true) ∧
        (32 ≤ header.structSize → (ok = true ↔ (readHeader (bytes.shift 8)).isSome = true) ∧
          ∀ nested, readHeader (bytes.shift 8) = some nested →
            audio =
              { sampleRate := (bytes.shift 8).field nested.structSize 8 4 sampleRate
                channels := (bytes.shift 8).field nested.structSize 12 4 1
                format := (bytes.shift 8).field nested.structSize 16 4 1
                reserved := (bytes.shift 8).field nested.structSize 20 4 0 }) := by
  refine ⟨normalizeModelParams_eq hheader (hmem.mono (Nat.min_le_left _ _)),
    normalizeContextConfig_eq hheader (hmem.mono (Nat.min_le_left _ _)), _, _,
    normalizeStreamParams_eq hheader (hmem.mono (Nat.min_le_left _ _)), ?_, ?_⟩
  · intro hshort
    rw [streamAudio, if_neg (not_le.mpr hshort)]
    exact ⟨rfl, rfl⟩
  · intro hlong
    rw [streamAudio, if_pos hlong]
    cases readHeader (bytes.shift 8) with
    | none => exact ⟨iff_of_false Bool.false_ne_true Bool.false_ne_true, nofun⟩
    | some nested =>
      refine ⟨iff_of_true rfl rfl, fun nested' hnested => ?_⟩
      rw [Option.some.inj hnested]

end Structures

/-- A structure of `size` bytes, with `nested` bytes of audio description from offset 8 on, that asks for
8000 Hz. -/
def narrowbandRequest (size nested : ℕ) : CallerMemory :=
  fun i => (leBytes 4 size ++ leBytes 4 apiVersion ++ leBytes 4 nested ++ leBytes 4 apiVersion ++
    leBytes 4 8000).getD i 0

/-- Stream parameters that end behind the audio description, which ends behind its sample rate. -/
theorem normalize_within_prefix_narrowband :
    ∃ out, normalizeStreamParams
        (some fun i => if i < 32 then some (narrowbandRequest 32 12 i) else none) =
          some (out, true) ∧
      out.audio = { sampleRate := 8000 } ∧ out.eventQueueCapacity = 4096 := by
  have hheader : readHeader (narrowbandRequest 32 12) = some ⟨32, apiVersion⟩ := by decide
  have hnested : readHeader ((narrowbandRequest 32 12).shift 8) = some ⟨12, apiVersion⟩ := by decide
  obtain ⟨-, -, audio, ok, hresult, -, hwhole⟩ := normalize_within_prefix (narrowbandRequest 32 12)
    hheader (fun i => if i < 32 then some (narrowbandRequest 32 12 i) else none)
    fun i hi => if_pos hi
  obtain ⟨hok, haudio⟩ := hwhole le_rfl
  obtain rfl : ok = true := hok.mpr (by rw [hnested]; rfl)
  refine ⟨_, hresult, ?_, ?_⟩
  · rw [haudio _ hnested]
    decide
  · change (narrowbandRequest 32 12).field 32 32 4 4096 = 4096
    decide

/-- When the stream parameters end within the audio description, its sample rate is ignored although it
lies within both declared sizes. -/
theorem normalize_ignores_partial_audio :
    ¬ ∀ (bytes : CallerMemory) (header nested : VersionedHeader) (mem : InputMemory)
        (out : PublicStreamParams),
      readHeader bytes = some header → HoldsPrefix mem bytes header.structSize →
      readHeader (bytes.shift 8) = some nested →
      normalizeStreamParams (some mem) = some (out, true) →
        out.audio.sampleRate =
          if 8 + 12 ≤ header.structSize ∧ 12 ≤ nested.structSize then
            leValue (bytes.slice (8 + 8) 4) else sampleRate := by
  intro hall
  have hrate := hall (narrowbandRequest 20 24) ⟨20, apiVersion⟩ ⟨24, apiVersion⟩
    (fun i => if i < 20 then some (narrowbandRequest 20 24 i) else none) {} (by decide)
    (fun i hi => if_pos hi) (by decide) (by decide)
  exact absurd hrate (by decide)

end Voxtral
