import Mathlib.Data.List.Chain
import Voxtral.Lib.Riff
import Voxtral.Stream.StableText

/-!
# Caller-owned output structures

Every output structure of the C interface starts with its size and version.  A query reads both from the
caller's memory, copies as many bytes as the caller's size and its own structure allow, and so replaces the
caller's size by its own.  A caller that passes the same memory again has declared, as far as the second
query can tell, the size of the structure the first query returned.
-/

namespace Voxtral

/-! ## Versioned structures -/

/-- `VOXTRAL_API_VERSION`. -/
def apiVersion : ℕ := 0x01000000

/-- `kVersionedHeaderSize`. -/
def versionedHeaderSize : ℕ := 8

/-- `kMaxVersionedStructSize`. -/
def maxVersionedStructSize : ℕ := 1024 * 1024

/-- The caller's memory, by the offset from the start of the structure. -/
abbrev CallerMemory := ℕ → UInt8

/-- `versioned_header`. -/
structure VersionedHeader where
  structSize : ℕ
  apiVersion : ℕ
  deriving DecidableEq, Repr

/-- `api_version_compatible`. -/
def apiVersionCompatible (version : ℕ) : Bool := version / 2 ^ 24 = 1

/-- The bytes `[offset, offset + n)` of the memory. -/
def CallerMemory.slice (mem : CallerMemory) (offset n : ℕ) : List UInt8 :=
  (List.range' offset n).map mem

/-- `read_header`. -/
def readHeader (mem : CallerMemory) : Option VersionedHeader :=
  let header := ⟨leValue (mem.slice 0 4), leValue (mem.slice 4 4)⟩
  if versionedHeaderSize ≤ header.structSize ∧ header.structSize ≤ maxVersionedStructSize ∧
      apiVersionCompatible header.apiVersion then some header
  else none

/-- A structure the library fills in: what follows its header. -/
structure VersionedValue where
  payload : List UInt8

/-- `sizeof`. -/
def VersionedValue.size (value : VersionedValue) : ℕ := versionedHeaderSize + value.payload.length

/-- The bytes of the structure; its header holds the size and the version of the library. -/
def VersionedValue.bytes (value : VersionedValue) : List UInt8 :=
  leBytes 4 value.size ++ (leBytes 4 apiVersion ++ value.payload)

/-- `memcpy` of the first `n` bytes to the start of the memory. -/
def CallerMemory.copy (mem : CallerMemory) (bytes : List UInt8) (n : ℕ) : CallerMemory :=
  fun i => if i < n then bytes.getD i 0 else mem i

/-- `write_versioned_output`, with the number of bytes it copied. -/
def writeVersionedOutput (mem : CallerMemory) (value : VersionedValue) : Option (CallerMemory × ℕ) :=
  match readHeader mem with
  | none => none
  | some header =>
    let copySize := min header.structSize value.size
    some (mem.copy value.bytes copySize, copySize)

/-! ## Queries -/

/-- The value of a `voxtral_status`. -/
def PublicStatus.code : PublicStatus → ℕ
  | .ok => 0
  | .invalidArgument => 1
  | .invalidState => 2
  | .outOfMemory => 3
  | .queueFull => 4
  | .notReady => 5
  | .cancelled => 6
  | .unsupportedAudioFormat => 7
  | .backendError => 9
  | .internalError => 10

/-- `copy_error_message` into the 256 bytes of an error. -/
def errorMessageBytes (message : Bytes) : List UInt8 :=
  let copied := message.take (utf8PrefixAtMost message 255)
  copied ++ List.replicate (256 - copied.length) 0

/-- `make_error`: a `voxtral_error_info`. -/
def makeError (status : ℕ) (backendCode : ℤ) (message : Bytes) : VersionedValue :=
  ⟨leBytes 4 status ++ leBytes 4 (backendCode % 2 ^ 32).toNat ++ errorMessageBytes message⟩

/-- What `voxtral_stream_get_last_error` reads of a stream: the stored status and message, and whether the
last feed was refused for a full queue. -/
structure StreamErrorSource where
  lastStatus : Status
  feedQueueFull : Bool
  lastError : Bytes

/-- The public status of the stored one. -/
def StreamErrorSource.publicStatus (source : StreamErrorSource) : PublicStatus :=
  if source.lastStatus = .limitExceeded then
    if source.feedQueueFull then .queueFull else .invalidArgument
  else mapStatus source.lastStatus

/-- What `voxtral_context_get_last_error` reads of a context. -/
structure ContextErrorSource where
  lastStatus : ℕ
  backendCode : ℤ
  lastError : Bytes

/-- What `voxtral_stream_get_metrics` reads of a stream and its context; the last three values are the bits
of doubles. -/
structure StreamMetricsSource where
  samplesReceived : ℕ
  audioDurationMs : ℕ
  encoderFrames : ℤ
  adapterGroups : ℤ
  decoderSteps : ℤ
  tokenEvents : ℕ
  partialEvents : ℕ
  decoderKvWraps : ℤ
  decoderKvEvictions : ℤ
  decoderKvBytesMoved : ℤ
  pipelineRtf : ℕ
  backlogFinalMs : ℕ
  backlogSlopeMsPerS : ℕ

/-- The `voxtral_stream_metrics` of a stream. -/
def StreamMetricsSource.value (source : StreamMetricsSource) : VersionedValue :=
  ⟨[source.samplesReceived, source.audioDurationMs, source.encoderFrames.toNat,
    source.adapterGroups.toNat, source.decoderSteps.toNat, source.tokenEvents, source.partialEvents,
    source.decoderKvWraps.toNat, source.decoderKvEvictions.toNat, source.decoderKvBytesMoved.toNat,
    source.pipelineRtf, source.backlogFinalMs, source.backlogSlopeMsPerS].flatMap (leBytes 8)⟩

/-- The `voxtral_capabilities` of a context. -/
def capabilitiesValue (supportsIncremental : Bool) : VersionedValue :=
  let streaming := if supportsIncremental then 1 else 0
  ⟨[sampleRate, 1, 1, streaming, streaming, streaming].flatMap (leBytes 4)⟩

/-- A query with the caller's structure as its output, and what it reads.  A null handle has no source;
reading the metrics may throw, with the status the query then returns. -/
inductive OutputQuery
  | streamGetLastError (source : Option StreamErrorSource)
  | contextGetLastError (source : Option ContextErrorSource)
  | streamGetMetrics (source : Option (Except PublicStatus StreamMetricsSource))
  | contextGetCapabilities (supportsIncremental : Option Bool)

/-- The structure a query returns, or the status it returns instead. -/
def OutputQuery.value : OutputQuery → Except PublicStatus VersionedValue
  | .streamGetLastError (some source) =>
    .ok (makeError source.publicStatus.code 0 source.lastError)
  | .contextGetLastError (some source) =>
    .ok (makeError source.lastStatus source.backendCode source.lastError)
  | .streamGetMetrics (some (.ok source)) => .ok source.value
  | .streamGetMetrics (some (.error status)) => .error status
  | .contextGetCapabilities (some supportsIncremental) => .ok (capabilitiesValue supportsIncremental)
  | _ => .error .invalidArgument

/-- The status of a query and the number of bytes it wrote from the start of the structure on. -/
structure OutputAnswer where
  status : PublicStatus
  written : ℕ
  deriving DecidableEq, Repr

/-- One query. -/
def outputStep (mem : CallerMemory) (query : OutputQuery) : Option (CallerMemory × OutputAnswer) :=
  match query.value with
  | .error status => some (mem, ⟨status, 0⟩)
  | .ok value =>
    match writeVersionedOutput mem value with
    | none => some (mem, ⟨.invalidArgument, 0⟩)
    | some (mem, copied) => some (mem, ⟨.ok, copied⟩)

/-- The size of the structure a query writes: an error, metrics or capabilities.  A query with a null handle
and one whose source throws write nothing. -/
def OutputQuery.structSize : OutputQuery → Option ℕ
  | .streamGetLastError (some _) => some 272
  | .contextGetLastError (some _) => some 272
  | .streamGetMetrics (some (.ok _)) => some 112
  | .contextGetCapabilities (some _) => some 32
  | _ => none

/-! ## One query -/

/-- The message array has 256 bytes. -/
lemma length_errorMessageBytes (message : Bytes) : (errorMessageBytes message).length = 256 := by
  have hcut : utf8PrefixAtMost message 255 ≤ 255 :=
    ((utf8PrefixLoop_spec (min_le_left _ _) _ 0 (Nat.zero_le _)
      (by rw [List.take_zero]; exact wellFormedUtf8_nil)).2.1).trans (min_le_right _ _)
  rw [errorMessageBytes, List.length_append, List.length_replicate, List.length_take]
  omega

/-- A `voxtral_error_info` has 272 bytes. -/
lemma makeError_size (status : ℕ) (backendCode : ℤ) (message : Bytes) :
    (makeError status backendCode message).size = 272 := by
  simp [VersionedValue.size, makeError, versionedHeaderSize, length_errorMessageBytes]

/-- A query writes a structure of its size, or fails. -/
lemma OutputQuery.value_cases (query : OutputQuery) :
    (∃ value, query.value = .ok value ∧ query.structSize = some value.size ∧
        versionedHeaderSize ≤ value.size ∧ value.size ≤ maxVersionedStructSize) ∨
      ∃ status, query.value = .error status ∧ query.structSize = none := by
  have herror : ∀ status backendCode message,
      versionedHeaderSize ≤ (makeError status backendCode message).size ∧
        (makeError status backendCode message).size ≤ maxVersionedStructSize := by
    intro status backendCode message
    rw [makeError_size]
    decide
  match query with
  | .streamGetLastError (some source) =>
    exact .inl ⟨_, rfl, by rw [makeError_size]; rfl, herror _ _ _⟩
  | .contextGetLastError (some source) =>
    exact .inl ⟨_, rfl, by rw [makeError_size]; rfl, herror _ _ _⟩
  | .streamGetMetrics (some (.ok source)) =>
    have hsize : source.value.size = 112 := by
      simp [VersionedValue.size, StreamMetricsSource.value, versionedHeaderSize]
    exact .inl ⟨source.value, rfl, by rw [hsize]; rfl, by rw [hsize]; decide, by rw [hsize]; decide⟩
  | .contextGetCapabilities (some supportsIncremental) =>
    have hsize : (capabilitiesValue supportsIncremental).size = 32 := by
      simp [VersionedValue.size, capabilitiesValue, versionedHeaderSize]
    exact .inl ⟨capabilitiesValue supportsIncremental, rfl, by rw [hsize]; rfl, by rw [hsize]; decide,
      by rw [hsize]; decide⟩
  | .streamGetLastError none => exact .inr ⟨_, rfl, rfl⟩
  | .contextGetLastError none => exact .inr ⟨_, rfl, rfl⟩
  | .streamGetMetrics none => exact .inr ⟨_, rfl, rfl⟩
  | .streamGetMetrics (some (.error status)) => exact .inr ⟨status, rfl, rfl⟩
  | .contextGetCapabilities none => exact .inr ⟨_, rfl, rfl⟩

/-- Copying at least the header leaves the library's header in the caller's memory. -/
lemma readHeader_copy (mem : CallerMemory) {value : VersionedValue} {n : ℕ}
    (hn : versionedHeaderSize ≤ n) (hlow : versionedHeaderSize ≤ value.size)
    (hhigh : value.size ≤ maxVersionedStructSize) :
    readHeader (mem.copy value.bytes n) = some ⟨value.size, apiVersion⟩ := by
  simp only [versionedHeaderSize] at hn
  have hsize : CallerMemory.slice (mem.copy value.bytes n) 0 4 = leBytes 4 value.size := by
    refine List.ext_getElem (by simp [CallerMemory.slice]) fun i hi _ => ?_
    have hi' : i < 4 := by simpa [CallerMemory.slice] using hi
    simp only [CallerMemory.slice, List.getElem_map, List.getElem_range', Nat.one_mul, Nat.zero_add,
      CallerMemory.copy, if_pos (show i < n by omega), VersionedValue.bytes]
    rw [List.getD_append _ _ _ _ (by simpa using hi'), List.getD_eq_getElem _ _ (by simpa using hi')]
  have hversion : CallerMemory.slice (mem.copy value.bytes n) 4 4 = leBytes 4 apiVersion := by
    refine List.ext_getElem (by simp [CallerMemory.slice]) fun i hi _ => ?_
    have hi' : i < 4 := by simpa [CallerMemory.slice] using hi
    simp only [CallerMemory.slice, List.getElem_map, List.getElem_range', Nat.one_mul,
      CallerMemory.copy, if_pos (show 4 + i < n by omega), VersionedValue.bytes]
    rw [List.getD_append_right _ _ _ _ (by simp), length_leBytes, Nat.add_sub_cancel_left,
      List.getD_append _ _ _ _ (by simpa using hi'), List.getD_eq_getElem _ _ (by simpa using hi')]
  have hfits : value.size < 256 ^ 4 := hhigh.trans_lt (by decide)
  unfold readHeader
  simp only [hsize, hversion, leValue_leBytes hfits, leValue_leBytes (show apiVersion < 256 ^ 4 by decide)]
  exact if_pos ⟨hlow, hhigh, by decide⟩

/-- One query on memory with an accepted header: either it writes nothing, or it writes as much as the
declared size allows and declares the size of its own structure. -/
lemma outputStep_cases {mem mem' : CallerMemory} {header : VersionedHeader} {query : OutputQuery}
    {answer : OutputAnswer} (hheader : readHeader mem = some header)
    (hstep : outputStep mem query = some (mem', answer)) :
    (query.structSize = none ∧ mem' = mem ∧ answer.written = 0) ∨
      ∃ size, query.structSize = some size ∧ answer.written = min header.structSize size ∧
        readHeader mem' = some ⟨size, apiVersion⟩ := by
  rw [outputStep] at hstep
  rcases query.value_cases with ⟨value, hvalue, hsize, hlow, hhigh⟩ | ⟨status, hvalue, hnone⟩
  · rw [hvalue] at hstep
    simp only [writeVersionedOutput, hheader] at hstep
    obtain ⟨rfl, rfl⟩ := Prod.mk.inj (Option.some.inj hstep)
    have haccepted : versionedHeaderSize ≤ header.structSize := by
      rw [readHeader] at hheader
      dsimp only at hheader
      split_ifs at hheader with hok
      rw [← Option.some.inj hheader]
      exact hok.1
    exact .inr ⟨value.size, hsize, rfl, readHeader_copy mem (le_min haccepted hlow) hlow hhigh⟩
  · rw [hvalue] at hstep
    obtain ⟨rfl, rfl⟩ := Prod.mk.inj (Option.some.inj hstep)
    exact .inl ⟨hnone, rfl, rfl⟩

/-! ## Sequences of queries -/

/-- Of every two successive structures written, one is at most `n` bytes. -/
def NoneGrows (n : ℕ) (sizes : List ℕ) : Prop := sizes.IsChain fun size next => min size next ≤ n

/-- The bytes written by a sequence of queries on memory that declares `size`. -/
lemma written_le_iff {n : ℕ} {mem mem' : CallerMemory} {header : VersionedHeader}
    {queries : List OutputQuery} {answers : List OutputAnswer} (hheader : readHeader mem = some header)
    (hrun : runSteps outputStep mem queries = some (mem', answers)) :
    (∀ answer ∈ answers, answer.written ≤ n) ↔
      NoneGrows n (header.structSize :: queries.filterMap OutputQuery.structSize) := by
  induction queries generalizing mem header answers with
  | nil =>
    simp only [runSteps_nil, Option.some.injEq, Prod.mk.injEq] at hrun
    obtain ⟨rfl, rfl⟩ := hrun
    exact iff_of_true (by simp) (List.isChain_singleton _)
  | cons query queries ih =>
    obtain ⟨mem₁, answer, answers', hstep, hrest, rfl⟩ := runSteps_cons_eq_some.mp hrun
    rw [List.forall_mem_cons]
    rcases outputStep_cases hheader hstep with ⟨hsize, rfl, hwritten⟩ | ⟨size, hsize, hwritten, hnext⟩
    · rw [ih hheader hrest, hwritten, List.filterMap_cons_none hsize]
      exact and_iff_right (Nat.zero_le n)
    · rw [ih hnext hrest, hwritten, List.filterMap_cons_some hsize]
      unfold NoneGrows
      rw [List.isChain_cons_cons]

/-- A structure of a declared size that is passed again and again without being initialised again is never
written beyond that size exactly when of every two successive queries that write, one returns a
structure of at most that size: from the second query on, the size of the previous one counts. -/
theorem output_within_declared_size {mem mem' : CallerMemory} {header : VersionedHeader}
    {queries : List OutputQuery} {answers : List OutputAnswer} (hheader : readHeader mem = some header)
    (hrun : runSteps outputStep mem queries = some (mem', answers)) :
    (∀ answer ∈ answers, answer.written ≤ header.structSize) ↔
      NoneGrows header.structSize (queries.filterMap OutputQuery.structSize) := by
  rw [written_le_iff hheader hrun]
  unfold NoneGrows
  cases queries.filterMap OutputQuery.structSize with
  | nil => exact iff_of_true (List.isChain_singleton _) List.isChain_nil
  | cons size sizes =>
    rw [List.isChain_cons_cons]
    exact and_iff_right (min_le_left _ _)

/-- A caller that declares `size` bytes. -/
def callerDeclaring (size : ℕ) : CallerMemory :=
  fun i => (leBytes 4 size ++ leBytes 4 apiVersion).getD i 0xAA

/-- Capabilities queried twice into their own structure. -/
theorem output_within_declared_size_capabilities :
    ∃ mem' answers,
      runSteps outputStep (callerDeclaring 32)
          [.contextGetCapabilities (some true), .contextGetCapabilities (some true)] =
        some (mem', answers) ∧ ∀ answer ∈ answers, answer.written ≤ 32 := by
  have hheader : readHeader (callerDeclaring 32) = some ⟨32, apiVersion⟩ := by decide
  obtain ⟨mem', answers, hrun⟩ : ∃ mem' answers,
      runSteps outputStep (callerDeclaring 32)
          [.contextGetCapabilities (some true), .contextGetCapabilities (some true)] =
        some (mem', answers) := ⟨_, _, rfl⟩
  exact ⟨mem', answers, hrun, (output_within_declared_size hheader hrun).mpr
    (List.isChain_pair.mpr (by decide))⟩

/-- An error without a message, of a stream that has not failed. -/
def noStreamError : OutputQuery := .streamGetLastError (some ⟨.ok, false, []⟩)

/-- A caller that declares only the header and asks for the last error twice: the second query writes the
whole structure. -/
theorem reused_error_struct_overrun :
    readHeader (callerDeclaring 8) = some ⟨8, apiVersion⟩ ∧
      ∃ mem' answers,
        runSteps outputStep (callerDeclaring 8) [noStreamError, noStreamError] =
            some (mem', answers) ∧
          answers = [⟨.ok, 8⟩, ⟨.ok, 272⟩] ∧ mem' 8 ≠ callerDeclaring 8 8 := by
  have hresult : (runSteps outputStep (callerDeclaring 8) [noStreamError, noStreamError]).map
      (fun result => (result.2, result.1 8)) = some ([⟨.ok, 8⟩, ⟨.ok, 272⟩], 0) := by decide +kernel
  obtain ⟨⟨mem', answers⟩, hrun, hpair⟩ := Option.map_eq_some_iff.mp hresult
  obtain ⟨hanswers, hbyte⟩ := Prod.mk.inj hpair
  change mem' 8 = 0 at hbyte
  refine ⟨by decide, mem', answers, hrun, hanswers, ?_⟩
  rw [hbyte]
  decide

end Voxtral
