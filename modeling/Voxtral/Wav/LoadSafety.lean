import Voxtral.Wav.Agreement

/-!
# When `load_wav_file` is safe

Behind its chunk loop `load_wav_file` divides by the bytes of a sample and by the number of channels, reads the
data into a buffer of whole samples, and averages the channels of every frame from there.  It reads where the
loop stopped, which is behind the `fmt ` chunk when that stands behind `data`.  The accesses that can go wrong
are listed for a file, and the files on which none does are described by their chunks.
-/

namespace Voxtral

/-! ## The accesses -/

/-- An access of `load_wav_file` behind its chunk loop. -/
inductive LoadAccess
  /-- An integer division. -/
  | divide (divisor : ℕ)
  /-- `fin.read` puts `written` bytes into a buffer of `capacity` bytes. -/
  | fill (capacity written : ℕ)
  /-- `raw[index]` of `elements` elements of `width` bytes.  The `written` bytes of the buffer that were read
  stand in the file from `start` on; the payload of the data chunk is the `size` bytes from `offset` on. -/
  | sample (index elements : ℤ) (width written start offset size : ℕ)
  deriving DecidableEq

/-- The access is defined, and a sample comes from bytes that were read from the data chunk. -/
def LoadAccess.Safe : LoadAccess → Prop
  | .divide divisor => divisor ≠ 0
  | .fill capacity written => written ≤ capacity
  | .sample index elements width written start offset size =>
    (0 ≤ index ∧ index < elements) ∧ width * (index + 1) ≤ written ∧
      offset ≤ start + width * index ∧ start + width * (index + 1) ≤ offset + size

instance (a : LoadAccess) : Decidable a.Safe := by
  cases a <;> unfold LoadAccess.Safe <;> infer_instance

/-- The bytes that a read of `n` bytes gets. -/
def FileStream.gets (f : FileStream) (n : ℕ) : ℕ :=
  if f.failed then 0 else (byteSlice f.bytes f.pos n).length

/-- A sample branch: the buffer `raw`, the read and the loop over frames and channels. -/
def rawAccesses (f : FileStream) (w : WavFields) (width : ℕ) (nSamplesTotal nSamples : ℤ) (numChannels : ℕ) :
    List LoadAccess :=
  .fill (width * nSamplesTotal.toNat) (f.gets w.dataSize) ::
    (List.range nSamples.toNat).flatMap fun i : ℕ => (List.range numChannels).map fun c : ℕ =>
      .sample (narrow32 ((i * numChannels + c : ℕ) : ℤ)) nSamplesTotal width (f.gets w.dataSize) f.pos
        w.dataOffset w.dataSize

/-- The accesses of `load_wav_file` behind its chunk loop; an undefined division is the last one. -/
def loadAccesses (f : FileStream) (w : WavFields) : List LoadAccess :=
  let audioFormat := leValue w.audioFormat
  let numChannels := leValue w.numChannels
  let bitsPerSample := leValue w.bitsPerSample
  if ¬ (w.foundFmt ∧ w.foundData) then []
  else if audioFormat ≠ 1 ∧ audioFormat ≠ 3 then []
  else
    let nSamplesTotal := narrow32 ((w.dataSize / (bitsPerSample / 8) : ℕ) : ℤ)
    let nSamples := nSamplesTotal.tdiv numChannels
    .divide (bitsPerSample / 8) ::
      if bitsPerSample / 8 = 0 then []
      else
        .divide numChannels ::
          if numChannels = 0 then []
          else if audioFormat = 1 ∧ bitsPerSample = 16 then
            rawAccesses f w 2 nSamplesTotal nSamples numChannels
          else if audioFormat = 3 ∧ bitsPerSample = 32 then
            rawAccesses f w 4 nSamplesTotal nSamples numChannels
          else []

/-- The accesses of `load_wav_file` on a file with these bytes. -/
def loadWavAccesses (bytes : List UInt8) : List LoadAccess :=
  let (riff, f) := FileStream.read { bytes } [0, 0, 0, 0]
  if riff ≠ fourCC "RIFF" then []
  else
    let (_, f) := f.read [0, 0, 0, 0]
    let (wave, f) := f.read [0, 0, 0, 0]
    if wave ≠ fourCC "WAVE" then []
    else
      let r := loadLoop (bytes.length + 1) f {}
      loadAccesses r.1 r.2

/-! ## The files -/

/-- From an offset on, with the chunks `fmt?` and `data?` found so far, the chunk headers lead to the chunks
`fmt` and `data`, and the samples are read from `start`.  Behind `data` the headers are looked for in the
payload, and padding bytes are not skipped. -/
inductive LoadLayout (bytes : List UInt8) :
    ℕ → Option RiffChunk → Option RiffChunk → RiffChunk → RiffChunk → ℕ → Prop
  | found {offset : ℕ} {fmt data : RiffChunk} :
      LoadLayout bytes offset (some fmt) (some data) fmt data offset
  | fmt {offset start : ℕ} {fmt? data? : Option RiffChunk} {c fmt data : RiffChunk}
      (hmore : fmt? = none ∨ data? = none) (hheader : offset + 8 ≤ bytes.length)
      (hc : c = ⟨byteSlice bytes offset 4, u32le bytes (offset + 4), offset + 8⟩)
      (hid : c.id = fourCC "fmt ")
      (hrest : LoadLayout bytes (c.offset + max 16 c.size) (some c) data? fmt data start) :
      LoadLayout bytes offset fmt? data? fmt data start
  | data {offset start : ℕ} {fmt? data? : Option RiffChunk} {c fmt data : RiffChunk}
      (hmore : fmt? = none ∨ data? = none) (hheader : offset + 8 ≤ bytes.length)
      (hc : c = ⟨byteSlice bytes offset 4, u32le bytes (offset + 4), offset + 8⟩)
      (hid : c.id = fourCC "data")
      (hrest : LoadLayout bytes c.offset fmt? (some c) fmt data start) :
      LoadLayout bytes offset fmt? data? fmt data start
  | other {offset start : ℕ} {fmt? data? : Option RiffChunk} {c fmt data : RiffChunk}
      (hmore : fmt? = none ∨ data? = none) (hheader : offset + 8 ≤ bytes.length)
      (hc : c = ⟨byteSlice bytes offset 4, u32le bytes (offset + 4), offset + 8⟩)
      (hid : c.id ≠ fourCC "fmt " ∧ c.id ≠ fourCC "data")
      (hrest : LoadLayout bytes (c.offset + c.size) fmt? data? fmt data start) :
      LoadLayout bytes offset fmt? data? fmt data start

/-- The first `count` bytes from `start` on lie in the payload of a chunk, where there is one. -/
def RiffChunk.Holds (c : RiffChunk) (start count : ℕ) : Prop :=
  count = 0 ∨ c.offset ≤ start ∧ start + count ≤ c.offset + c.size

/-- The `fmt ` and the `data` chunk of a file go together: samples have a byte and there is a channel; where
the format is read, the data is whole samples or the file ends before its odd bytes, the file holds all
whole frames, and they lie in the data chunk. -/
def SampleLayout (bytes : List UInt8) (fmt data : RiffChunk) (start : ℕ) : Prop :=
  let audioFormat := u16le bytes fmt.offset
  let numChannels := u16le bytes (fmt.offset + 2)
  let width := u16le bytes (fmt.offset + 14) / 8
  let rest := bytes.length - start
  let wholeFrames := width * (data.size / width / numChannels * numChannels)
  audioFormat = 1 ∨ audioFormat = 3 →
    width ≠ 0 ∧ numChannels ≠ 0 ∧
    (audioFormat = 1 ∧ u16le bytes (fmt.offset + 14) = 16 ∨
        audioFormat = 3 ∧ u16le bytes (fmt.offset + 14) = 32 →
      (data.size % width = 0 ∨ rest ≤ width * (data.size / width)) ∧ wholeFrames ≤ rest ∧
        data.Holds start wholeFrames)

variable {bytes : List UInt8}

/-! ## Reading past the end -/

/-- The stream stands at an offset; past the end it has failed. -/
structure StandsAt (bytes : List UInt8) (f : FileStream) (offset : ℕ) : Prop where
  file : f.bytes = bytes
  pos : f.failed = false ∧ f.pos = offset ∨ f.failed = true ∧ bytes.length < offset

/-- Zero bytes have no value. -/
lemma leValue_replicate_zero (n : ℕ) : leValue (List.replicate n 0) = 0 := by
  induction n with
  | zero => rfl
  | succ n ih =>
    rw [List.replicate_succ, leValue, ih]
    rfl

/-- Zero bytes behind others do not count. -/
lemma leValue_append_zero (l : List UInt8) (n : ℕ) : leValue (l ++ List.replicate n 0) = leValue l := by
  induction l with
  | nil => exact leValue_replicate_zero n
  | cons b l ih => rw [List.cons_append, leValue, leValue, ih]

/-- There is nothing past the end. -/
lemma byteSlice_past {offset n : ℕ} (h : bytes.length ≤ offset) : byteSlice bytes offset n = [] := by
  unfold byteSlice
  rw [List.drop_eq_nil_of_le h, List.take_nil]

/-- A slice is as long as asked for, up to the end of the bytes. -/
lemma length_byteSlice_eq (bytes : List UInt8) (offset n : ℕ) :
    (byteSlice bytes offset n).length = min n (bytes.length - offset) := by
  unfold byteSlice
  rw [List.length_take, List.length_drop]

/-- A read moves on by the bytes asked for. -/
lemma StandsAt.read {f : FileStream} {offset : ℕ} (h : StandsAt bytes f offset) {old : List UInt8}
    (hold : old ≠ []) : StandsAt bytes (f.read old).2 (offset + old.length) := by
  have hpos := List.length_pos_of_ne_nil hold
  obtain ⟨hbytes, ⟨hok, hat⟩ | ⟨hfailed, hpast⟩⟩ := h
  · have hgot := length_byteSlice_eq bytes offset old.length
    unfold FileStream.read
    rw [if_neg (by rw [hok]; exact Bool.false_ne_true), hbytes, hat]
    refine ⟨rfl, ?_⟩
    dsimp only
    rw [decide_eq_true_eq, decide_eq_false_iff_not]
    omega
  · unfold FileStream.read
    rw [if_pos hfailed]
    exact ⟨hbytes, .inr ⟨hfailed, by omega⟩⟩

/-- A field that was zero has the value of the bytes there are; so has every field within the file. -/
lemma StandsAt.leValue_read {f : FileStream} {offset n : ℕ} (h : StandsAt bytes f offset)
    {old : List UInt8} (hn : old.length = n)
    (hold : old = List.replicate n 0 ∨ offset + n ≤ bytes.length) :
    leValue (f.read old).1 = leValue (byteSlice bytes offset n) := by
  obtain ⟨hbytes, ⟨hok, hat⟩ | ⟨hfailed, hpast⟩⟩ := h
  · unfold FileStream.read
    rw [if_neg (by rw [hok]; exact Bool.false_ne_true), hbytes, hat, hn]
    dsimp only
    rcases hold with rfl | hfits
    · rw [List.drop_replicate, leValue_append_zero]
    · rw [length_byteSlice hfits, ← hn, List.drop_length, List.append_nil]
  · unfold FileStream.read
    rw [if_pos hfailed]
    rcases hold with rfl | hfits
    · rw [byteSlice_past (by omega), leValue_replicate_zero]
      rfl
    · omega

/-- A read keeps the size of the field. -/
lemma length_read {f : FileStream} {old : List UInt8} : (f.read old).1.length = old.length := by
  unfold FileStream.read
  split_ifs
  · rfl
  · have hgot := length_byteSlice_eq f.bytes f.pos old.length
    rw [List.length_append, List.length_drop]
    omega

/-- A seek moves the position, past the end too. -/
lemma StandsAt.seekCur {f : FileStream} {offset : ℕ} (h : StandsAt bytes f offset) (n : ℕ) :
    StandsAt bytes (f.seekCur n) (offset + n) := by
  obtain ⟨hbytes, ⟨hok, hat⟩ | ⟨hfailed, hpast⟩⟩ := h
  · unfold FileStream.seekCur
    rw [if_neg (by rw [hok]; exact Bool.false_ne_true)]
    exact ⟨hbytes, .inl ⟨hok, congrArg (· + n) hat⟩⟩
  · unfold FileStream.seekCur
    rw [if_pos hfailed]
    exact ⟨hbytes, .inr ⟨hfailed, by omega⟩⟩

/-- Within the file the stream is where it stands. -/
lemma StandsAt.pos_eq {f : FileStream} {offset : ℕ} (h : StandsAt bytes f offset)
    (hwithin : offset ≤ bytes.length) : f.pos = offset := by
  rcases h.pos with ⟨-, hat⟩ | ⟨-, hpast⟩
  · exact hat
  · omega

/-- What a read of the data gets. -/
lemma StandsAt.gets {f : FileStream} {offset : ℕ} (h : StandsAt bytes f offset) (n : ℕ) :
    f.gets n = min n (bytes.length - offset) := by
  obtain ⟨hbytes, ⟨hok, hat⟩ | ⟨hfailed, hpast⟩⟩ := h
  · unfold FileStream.gets
    rw [if_neg (by rw [hok]; exact Bool.false_ne_true), hbytes, hat, length_byteSlice_eq]
  · unfold FileStream.gets
    rw [if_pos hfailed]
    omega

/-- A read that succeeds lies within the file. -/
lemma StandsAt.read_ok {f : FileStream} {offset : ℕ} (h : StandsAt bytes f offset) {old : List UInt8}
    (hold : old ≠ []) (hok : (f.read old).2.failed = false) :
    f.failed = false ∧ offset + old.length ≤ bytes.length ∧
      (f.read old).1 = byteSlice bytes offset old.length := by
  have hpos := List.length_pos_of_ne_nil hold
  obtain ⟨hbytes, ⟨hopen, hat⟩ | ⟨hfailed, hpast⟩⟩ := h
  · have hgot := length_byteSlice_eq bytes offset old.length
    unfold FileStream.read at hok ⊢
    rw [if_neg (by rw [hopen]; exact Bool.false_ne_true), hbytes, hat] at hok ⊢
    dsimp only at hok ⊢
    rw [decide_eq_false_iff_not] at hok
    rw [List.drop_eq_nil_of_le (by omega), List.append_nil]
    exact ⟨hopen, by omega, rfl⟩
  · unfold FileStream.read at hok
    rw [if_pos hfailed, hfailed] at hok
    cases hok

/-- A field is read. -/
lemma StandsAt.read_field {f : FileStream} {offset n : ℕ} (h : StandsAt bytes f offset) {old : List UInt8}
    (hn : old.length = n) (hpos : 0 < n) :
    StandsAt bytes (f.read old).2 (offset + n) ∧ (f.read old).1.length = n ∧
      (old = List.replicate n 0 ∨ offset + n ≤ bytes.length →
        leValue (f.read old).1 = leValue (byteSlice bytes offset n)) := by
  have hold : old ≠ [] := List.ne_nil_of_length_pos (by omega)
  have hnext := h.read hold
  rw [hn] at hnext
  exact ⟨hnext, length_read.trans hn, h.leValue_read hn⟩

/-! ## The chunk loop -/

/-- The fields describe the chunks found so far.  A `fmt ` chunk that the file ends in only counts behind
the data: without data the loop ends there. -/
structure Described (bytes : List UInt8) (fmt? data? : Option RiffChunk) (w : WavFields) : Prop where
  sized : w.Sized
  foundFmt : w.foundFmt = fmt?.isSome
  foundData : w.foundData = data?.isSome
  fields : ∀ c ∈ fmt?, c.offset + 16 ≤ bytes.length ∨ data? ≠ none →
    leValue w.audioFormat = u16le bytes c.offset ∧ leValue w.numChannels = u16le bytes (c.offset + 2) ∧
      leValue w.bitsPerSample = u16le bytes (c.offset + 14)
  zero : fmt? = none → w.audioFormat = [0, 0] ∧ w.numChannels = [0, 0] ∧ w.bitsPerSample = [0, 0] ∧
    w.sampleRate = [0, 0, 0, 0]
  size : ∀ c ∈ data?, w.dataSize = c.size ∧ c.size < 2 ^ 32 ∧ w.dataOffset = c.offset

/-- The body of a `fmt ` chunk. -/
lemma Described.readFmt {fmt? data? : Option RiffChunk} {w : WavFields} (h : Described bytes fmt? data? w)
    (hmore : fmt? = none ∨ data? = none) {f : FileStream} {c : RiffChunk}
    (hf : StandsAt bytes f c.offset) :
    StandsAt bytes (readFmt f w c.size).1 (c.offset + max 16 c.size) ∧
      Described bytes (some c) data? (readFmt f w c.size).2 := by
  obtain ⟨haudio, hchannels, hbits, hrate⟩ := h.sized
  have hvalue : ∀ {old : List UInt8} {offset n : ℕ}, (fmt? = none → old = List.replicate n 0) →
      offset + n ≤ c.offset + 16 → c.offset + 16 ≤ bytes.length ∨ data? ≠ none →
      old = List.replicate n 0 ∨ offset + n ≤ bytes.length := by
    intro old offset n hold hle hcomplete
    rcases hcomplete with hcomplete | hdata
    · exact .inr (hle.trans hcomplete)
    · exact .inl (hold (hmore.resolve_right hdata))
  unfold Voxtral.readFmt
  dsimp only
  obtain ⟨h1, l1, v1⟩ := hf.read_field haudio (by decide)
  generalize f.read w.audioFormat = r1 at h1 l1 v1 ⊢
  obtain ⟨h2, l2, v2⟩ := h1.read_field hchannels (by decide)
  generalize r1.2.read w.numChannels = r2 at h2 l2 v2 ⊢
  obtain ⟨h3, l3, -⟩ := h2.read_field hrate (by decide)
  generalize r2.2.read w.sampleRate = r3 at h3 l3 ⊢
  obtain ⟨h4, -, -⟩ := h3.read_field (show [(0 : UInt8), 0, 0, 0].length = 4 from rfl) (by decide)
  generalize r3.2.read [0, 0, 0, 0] = r4 at h4 ⊢
  obtain ⟨h5, -, -⟩ := h4.read_field (show [(0 : UInt8), 0].length = 2 from rfl) (by decide)
  generalize r4.2.read [0, 0] = r5 at h5 ⊢
  obtain ⟨h6, l6, v6⟩ := h5.read_field hbits (by decide)
  generalize r5.2.read w.bitsPerSample = r6 at h6 l6 v6 ⊢
  constructor
  · split_ifs with hlarge
    · have hseek := h6.seekCur (c.size - 16)
      rw [show c.offset + 2 + 2 + 4 + 4 + 2 + 2 + (c.size - 16) = c.offset + max 16 c.size by omega]
        at hseek
      exact hseek
    · rw [show c.offset + max 16 c.size = c.offset + 2 + 2 + 4 + 4 + 2 + 2 by omega]
      exact h6
  · constructor
    · exact ⟨l1, l2, l6, l3⟩
    · rfl
    · exact h.foundData
    · intro c' hc' hcomplete
      obtain rfl := Option.some.inj hc'
      refine ⟨?_, ?_, ?_⟩
      · exact v1 (hvalue (fun hnone => (h.zero hnone).1) (by omega) hcomplete)
      · exact v2 (hvalue (fun hnone => (h.zero hnone).2.1) (by omega) hcomplete)
      · exact v6 (hvalue (fun hnone => (h.zero hnone).2.2.1) (by omega) hcomplete)
    · intro hnone
      cases hnone
    · exact h.size

/-- The chunk loop ends as the layout from an offset on says: at the samples of its chunks, or without both
chunks where there is no layout. -/
def LayoutResult (bytes : List UInt8) (offset : ℕ) (fmt? data? : Option RiffChunk)
    (r : FileStream × WavFields) : Prop :=
  (∀ fmt data start, LoadLayout bytes offset fmt? data? fmt data start →
    StandsAt bytes r.1 start ∧ Described bytes (some fmt) (some data) r.2) ∧
  (r.2.foundFmt = true → r.2.foundData = true →
    ∃ fmt data start, LoadLayout bytes offset fmt? data? fmt data start)

section Layout

variable {offset : ℕ} {fmt? data? : Option RiffChunk} {f : FileStream} {w : WavFields}
  {r : FileStream × WavFields} {c : RiffChunk}

/-- Both chunks are found. -/
lemma layoutResult_found {fmt data : RiffChunk} (hf : StandsAt bytes f offset)
    (hw : Described bytes (some fmt) (some data) w) :
    LayoutResult bytes offset (some fmt) (some data) (f, w) := by
  constructor
  · intro fmt' data' start hlayout
    cases hlayout with
    | found => exact ⟨hf, hw⟩
    | fmt hmore => simp at hmore
    | data hmore => simp at hmore
    | other hmore => simp at hmore
  · intro _ _
    exact ⟨fmt, data, offset, .found⟩

/-- No header fits any more. -/
lemma layoutResult_short (hw : Described bytes fmt? data? w) (hmore : fmt? = none ∨ data? = none)
    (hshort : bytes.length < offset + 8) : LayoutResult bytes offset fmt? data? (f, w) := by
  constructor
  · intro fmt data start hlayout
    cases hlayout with
    | found => simp at hmore
    | fmt _ hheader => omega
    | data _ hheader => omega
    | other _ hheader => omega
  · intro hfmt hdata
    rw [hw.foundFmt] at hfmt
    rw [hw.foundData] at hdata
    rcases hmore with rfl | rfl
    · cases hfmt
    · cases hdata

/-- Another chunk is found, and the walk goes on behind it. -/
lemma layoutResult_step {next : ℕ} {fmt?' data?' : Option RiffChunk}
    (hback : ∀ fmt data start, LoadLayout bytes next fmt?' data?' fmt data start ↔
      LoadLayout bytes offset fmt? data? fmt data start)
    (h : LayoutResult bytes next fmt?' data?' r) : LayoutResult bytes offset fmt? data? r := by
  constructor
  · intro fmt data start hlayout
    exact h.1 fmt data start ((hback fmt data start).mpr hlayout)
  · intro hfmt hdata
    obtain ⟨fmt, data, start, hlayout⟩ := h.2 hfmt hdata
    exact ⟨fmt, data, start, (hback fmt data start).mp hlayout⟩

/-- The layout from a `fmt ` chunk on. -/
lemma loadLayout_fmt_iff (hmore : fmt? = none ∨ data? = none) (hheader : offset + 8 ≤ bytes.length)
    (hc : c = ⟨byteSlice bytes offset 4, u32le bytes (offset + 4), offset + 8⟩)
    (hid : c.id = fourCC "fmt ") {start : ℕ} {fmt data : RiffChunk} :
    LoadLayout bytes (c.offset + max 16 c.size) (some c) data? fmt data start ↔
      LoadLayout bytes offset fmt? data? fmt data start := by
  refine ⟨.fmt hmore hheader hc hid, ?_⟩
  intro hlayout
  cases hlayout with
  | found => simp at hmore
  | fmt _ _ hc' _ hrest =>
    rw [hc'.trans hc.symm] at hrest
    exact hrest
  | data _ _ hc' hid' =>
    rw [hc'.trans hc.symm, hid] at hid'
    exact absurd hid'.symm fourCC_data_ne_fmt
  | other _ _ hc' hid' =>
    rw [hc'.trans hc.symm] at hid'
    exact absurd hid hid'.1

/-- The layout from a `data` chunk on. -/
lemma loadLayout_data_iff (hmore : fmt? = none ∨ data? = none) (hheader : offset + 8 ≤ bytes.length)
    (hc : c = ⟨byteSlice bytes offset 4, u32le bytes (offset + 4), offset + 8⟩)
    (hid : c.id = fourCC "data") {start : ℕ} {fmt data : RiffChunk} :
    LoadLayout bytes c.offset fmt? (some c) fmt data start ↔
      LoadLayout bytes offset fmt? data? fmt data start := by
  refine ⟨.data hmore hheader hc hid, ?_⟩
  intro hlayout
  cases hlayout with
  | found => simp at hmore
  | fmt _ _ hc' hid' =>
    rw [hc'.trans hc.symm, hid] at hid'
    exact absurd hid' fourCC_data_ne_fmt
  | data _ _ hc' _ hrest =>
    rw [hc'.trans hc.symm] at hrest
    exact hrest
  | other _ _ hc' hid' =>
    rw [hc'.trans hc.symm] at hid'
    exact absurd hid hid'.2

/-- The layout from any other chunk on. -/
lemma loadLayout_other_iff (hmore : fmt? = none ∨ data? = none) (hheader : offset + 8 ≤ bytes.length)
    (hc : c = ⟨byteSlice bytes offset 4, u32le bytes (offset + 4), offset + 8⟩)
    (hid : c.id ≠ fourCC "fmt " ∧ c.id ≠ fourCC "data") {start : ℕ} {fmt data : RiffChunk} :
    LoadLayout bytes (c.offset + c.size) fmt? data? fmt data start ↔
      LoadLayout bytes offset fmt? data? fmt data start := by
  refine ⟨.other hmore hheader hc hid, ?_⟩
  intro hlayout
  cases hlayout with
  | found => simp at hmore
  | fmt _ _ hc' hid' =>
    rw [hc'.trans hc.symm] at hid'
    exact absurd hid' hid.1
  | data _ _ hc' hid' =>
    rw [hc'.trans hc.symm] at hid'
    exact absurd hid' hid.2
  | other _ _ hc' _ hrest =>
    rw [hc'.trans hc.symm] at hrest
    exact hrest

/-- The size field of a header. -/
lemma u32le_lt (bytes : List UInt8) (offset : ℕ) : u32le bytes offset < 2 ^ 32 := by
  have hbound : ∀ l : List UInt8, leValue l < 256 ^ l.length := by
    intro l
    induction l with
    | nil => decide
    | cons b l ih =>
      have hb := b.toNat_lt
      rw [leValue, List.length_cons, pow_succ]
      omega
  have hlength := length_byteSlice_eq bytes offset 4
  calc u32le bytes offset < 256 ^ (byteSlice bytes offset 4).length := hbound _
    _ ≤ 256 ^ 4 := Nat.pow_le_pow_right (by decide) (by omega)

/-- Both chunks are found, or one is not. -/
lemma found_or_more (fmt? data? : Option RiffChunk) :
    (∃ fmt data, fmt? = some fmt ∧ data? = some data) ∨ fmt? = none ∨ data? = none := by
  cases fmt? with
  | none => exact .inr (.inl rfl)
  | some fmt =>
    cases data? with
    | none => exact .inr (.inr rfl)
    | some data => exact .inl ⟨fmt, data, rfl, rfl⟩

/-- The chunk loop ends as the layout says. -/
lemma loadLoop_layout {rounds : ℕ} (hf : StandsAt bytes f offset) (hw : Described bytes fmt? data? w)
    (hbefore : ∀ c ∈ fmt?, c.offset + 16 ≤ offset) (hrounds : bytes.length < offset + rounds) :
    LayoutResult bytes offset fmt? data? (loadLoop rounds f w) := by
  induction rounds generalizing offset f fmt? data? w with
  | zero =>
    rcases found_or_more fmt? data? with ⟨fmt, data, rfl, rfl⟩ | hmore
    · exact layoutResult_found hf hw
    · exact layoutResult_short hw hmore (by omega)
  | succ rounds ih =>
    rw [loadLoop]
    rcases found_or_more fmt? data? with ⟨fmt, data, rfl, rfl⟩ | hmore
    · rw [if_pos (.inr ⟨hw.foundFmt, hw.foundData⟩)]
      exact layoutResult_found hf hw
    have hopen : ¬ (w.foundFmt = true ∧ w.foundData = true) := by
      rw [hw.foundFmt, hw.foundData]
      rcases hmore with rfl | rfl
      · exact fun h => by cases h.1
      · exact fun h => by cases h.2
    cases hfailed : f.failed with
    | true =>
      rw [if_pos (.inl rfl)]
      obtain ⟨-, ⟨hok, -⟩ | ⟨-, hpast⟩⟩ := hf
      · rw [hfailed] at hok
        cases hok
      · exact layoutResult_short hw hmore (by omega)
    | false =>
      rw [if_neg (not_or.mpr ⟨Bool.false_ne_true, hopen⟩)]
      have hzero : [(0 : UInt8), 0, 0, 0] ≠ [] := List.cons_ne_nil _ _
      have h1 := hf.read hzero
      have h2 := h1.read hzero
      dsimp only
      cases hheader : ((f.read [0, 0, 0, 0]).2.read [0, 0, 0, 0]).2.failed with
      | true =>
        rw [if_pos rfl]
        obtain ⟨-, ⟨hok, -⟩ | ⟨-, hpast⟩⟩ := h2
        · rw [hheader] at hok
          cases hok
        · simp only [List.length_cons, List.length_nil] at hpast
          exact layoutResult_short hw hmore (by omega)
      | false =>
        obtain ⟨hok, hfits, hsize⟩ := h1.read_ok hzero hheader
        obtain ⟨-, -, hid⟩ := hf.read_ok hzero hok
        simp only [List.length_cons, List.length_nil, Nat.zero_add, Nat.reduceAdd] at hfits hsize hid h2
        obtain ⟨c, hc⟩ : ∃ c : RiffChunk,
          c = ⟨byteSlice bytes offset 4, u32le bytes (offset + 4), offset + 8⟩ := ⟨_, rfl⟩
        have hcid : byteSlice bytes offset 4 = c.id := by rw [hc]
        have hcsize : leValue (byteSlice bytes (offset + 4) 4) = c.size := by
          rw [hc]
          rfl
        have hcoffset : c.offset = offset + 8 := by rw [hc]
        have hclt : c.size < 2 ^ 32 := by
          rw [hc]
          exact u32le_lt bytes (offset + 4)
        have hheaderFits : offset + 8 ≤ bytes.length := by omega
        rw [if_neg Bool.false_ne_true, hid, hsize, hcid, hcsize]
        generalize ((f.read [0, 0, 0, 0]).2.read [0, 0, 0, 0]).2 = g at h2
        rw [show offset + 4 + 4 = c.offset by omega] at h2
        by_cases hfmt : c.id = fourCC "fmt "
        · rw [if_pos hfmt]
          obtain ⟨hnext, hdescribed⟩ := hw.readFmt hmore h2
          refine layoutResult_step (fun _ _ _ => loadLayout_fmt_iff hmore hheaderFits hc hfmt)
            (ih hnext hdescribed ?_ (by omega))
          intro c' hc'
          obtain rfl := Option.some.inj hc'
          omega
        rw [if_neg hfmt]
        by_cases hdata : c.id = fourCC "data"
        · rw [if_pos hdata]
          refine layoutResult_step (fun _ _ _ => loadLayout_data_iff hmore hheaderFits hc hdata)
            (ih h2 ⟨⟨hw.sized.1, hw.sized.2, hw.sized.3, hw.sized.4⟩, hw.foundFmt, rfl, ?_, hw.zero, ?_⟩ ?_
              (by omega))
          · intro c' hc' _
            have hold := hbefore c' hc'
            exact hw.fields c' hc' (.inl (by omega))
          · intro c' hc'
            obtain rfl := Option.some.inj hc'
            exact ⟨rfl, hclt, h2.pos_eq (by omega)⟩
          · intro c' hc'
            have hold := hbefore c' hc'
            omega
        · rw [if_neg hdata]
          refine layoutResult_step (fun _ _ _ => loadLayout_other_iff hmore hheaderFits hc ⟨hfmt, hdata⟩)
            (ih (h2.seekCur c.size) hw ?_ (by omega))
          intro c' hc'
          have hold := hbefore c' hc'
          omega

end Layout

/-! ## The accesses of a layout -/

/-- An element of the buffer is safe when its bytes were read, and from the data chunk. -/
lemma sample_safe_iff {k total width written start offset size : ℕ} (hk : k < total) (htotal : total < 2 ^ 31) :
    (LoadAccess.sample (narrow32 (k : ℤ)) total width written start offset size).Safe ↔
      width * (k + 1) ≤ written ∧ offset ≤ start + width * k ∧ start + width * (k + 1) ≤ offset + size := by
  rw [narrow32_of_fits (by omega) (by omega)]
  unfold LoadAccess.Safe
  constructor
  · rintro ⟨-, h⟩
    exact_mod_cast h
  · intro h
    exact ⟨⟨by omega, by omega⟩, by exact_mod_cast h⟩

/-- The samples of whole frames are safe exactly when the frames are in the file and in the data chunk.  The
first and the last sample decide. -/
lemma frames_safe_iff {f : FileStream} {data : RiffChunk} {start width frames numChannels total : ℕ}
    (hf : StandsAt bytes f start) (htotal : total < 2 ^ 31) (hframes : frames * numChannels ≤ total)
    (hdata : width * total ≤ data.size) (hwidth : 0 < width) (hchannels : 0 < numChannels) :
    (∀ i < frames, ∀ c < numChannels, (LoadAccess.sample (narrow32 ((i * numChannels + c : ℕ) : ℤ)) total width
        (min data.size (bytes.length - start)) f.pos data.offset data.size).Safe) ↔
      width * (frames * numChannels) ≤ bytes.length - start ∧
        data.Holds start (width * (frames * numChannels)) := by
  have hwhole : width * (frames * numChannels) ≤ width * total := Nat.mul_le_mul_left _ hframes
  have hat : 0 < bytes.length - start → f.pos = start := fun hmore => hf.pos_eq (by omega)
  constructor
  · intro h
    rcases Nat.eq_zero_or_pos frames with rfl | hpos
    · rw [Nat.zero_mul, Nat.mul_zero]
      exact ⟨Nat.zero_le _, .inl rfl⟩
    · have hsome : 0 < frames * numChannels := Nat.mul_pos hpos hchannels
      have hfirst := (sample_safe_iff (by omega) htotal).mp (h 0 hpos 0 hchannels)
      have hlast := h (frames - 1) (by omega) (numChannels - 1) (by omega)
      have hindex : (frames - 1) * numChannels + (numChannels - 1) + 1 = frames * numChannels := by
        rw [Nat.sub_mul, Nat.one_mul]
        have hrow : numChannels ≤ frames * numChannels := Nat.le_mul_of_pos_left _ hpos
        omega
      have hbytes := (sample_safe_iff (by omega) htotal).mp hlast
      rw [hindex] at hbytes
      have hread : 0 < width * (frames * numChannels) := Nat.mul_pos hwidth hsome
      have hstart := hat (by omega)
      rw [Nat.zero_mul, Nat.add_zero, Nat.mul_zero] at hfirst
      exact ⟨by omega, .inr ⟨by omega, by omega⟩⟩
  · rintro ⟨hrest, hholds⟩ i hi c hc
    have hrow : i * numChannels + c + 1 ≤ frames * numChannels :=
      calc i * numChannels + c + 1 ≤ (i + 1) * numChannels := by rw [Nat.add_mul]; omega
        _ ≤ frames * numChannels := Nat.mul_le_mul_right _ hi
    have hbytes : width * (i * numChannels + c + 1) ≤ width * (frames * numChannels) :=
      Nat.mul_le_mul_left _ hrow
    have hone : 0 < width * (i * numChannels + c + 1) := Nat.mul_pos hwidth (Nat.succ_pos _)
    have hstart := hat (by omega)
    refine (sample_safe_iff (by omega) htotal).mpr ⟨by omega, ?_, ?_⟩
    · rcases hholds with hnone | hin <;> omega
    · rcases hholds with hnone | hin <;> omega

/-- The accesses of a sample branch are safe exactly when the data is whole samples, or ends before its odd
bytes, and the whole frames are in the file and in the data chunk. -/
lemma rawAccesses_safe_iff {f : FileStream} {w : WavFields} {data : RiffChunk} {start width numChannels : ℕ}
    (hf : StandsAt bytes f start) (hsize : w.dataSize = data.size) (hlt : data.size < 2 ^ 32)
    (hoffset : w.dataOffset = data.offset) (hwidth : 2 ≤ width) (hchannels : 0 < numChannels) :
    (∀ a ∈ rawAccesses f w width (narrow32 ((data.size / width : ℕ) : ℤ))
        ((narrow32 ((data.size / width : ℕ) : ℤ)).tdiv numChannels) numChannels, a.Safe) ↔
      (data.size % width = 0 ∨ bytes.length - start ≤ width * (data.size / width)) ∧
        width * (data.size / width / numChannels * numChannels) ≤ bytes.length - start ∧
        data.Holds start (width * (data.size / width / numChannels * numChannels)) := by
  have htotal : data.size / width < 2 ^ 31 :=
    lt_of_le_of_lt (Nat.div_le_div_left hwidth (by decide)) (by omega)
  have hdata : width * (data.size / width) + data.size % width = data.size := Nat.div_add_mod _ _
  have hmod : data.size % width < width := Nat.mod_lt _ (by omega)
  have hframes : data.size / width / numChannels * numChannels ≤ data.size / width := Nat.div_mul_le_self _ _
  rw [narrow32_of_fits (by omega) (by omega), ← Int.ofNat_tdiv, rawAccesses, List.forall_mem_cons, hsize,
    hoffset, hf.gets, Int.toNat_natCast, Int.toNat_natCast]
  refine and_congr ?_ ?_
  · change min data.size (bytes.length - start) ≤ width * (data.size / width) ↔ _
    omega
  · rw [← frames_safe_iff hf htotal hframes (by omega) (by omega) hchannels]
    simp only [List.mem_flatMap, List.mem_range, List.mem_map, forall_exists_index, and_imp]
    constructor
    · intro h i hi c hc
      exact h _ i hi c hc rfl
    · rintro h a i hi c hc rfl
      exact h i hi c hc

/-- Behind the chunks of a layout the accesses are safe exactly when the chunks go together. -/
lemma loadAccesses_safe_iff {f : FileStream} {w : WavFields} {fmt data : RiffChunk} {start : ℕ}
    (hf : StandsAt bytes f start) (hw : Described bytes (some fmt) (some data) w) :
    (∀ a ∈ loadAccesses f w, a.Safe) ↔ SampleLayout bytes fmt data start := by
  obtain ⟨haudio, hchannels, hbits⟩ := hw.fields fmt rfl (.inr (Option.some_ne_none data))
  obtain ⟨hsize, hlt, hoffset⟩ := hw.size data rfl
  unfold loadAccesses SampleLayout
  dsimp only
  rw [haudio, hchannels, hbits, hsize, hw.foundFmt, hw.foundData]
  generalize u16le bytes fmt.offset = audioFormat
  generalize u16le bytes (fmt.offset + 2) = numChannels
  generalize u16le bytes (fmt.offset + 14) = bitsPerSample
  rw [if_neg (by simp)]
  by_cases hformat : audioFormat ≠ 1 ∧ audioFormat ≠ 3
  · rw [if_pos hformat]
    constructor
    · intro _ hknown
      omega
    · intro _ a ha
      cases ha
  have hknown : audioFormat = 1 ∨ audioFormat = 3 := by omega
  rw [if_neg hformat, List.forall_mem_cons]
  by_cases hwidth : bitsPerSample / 8 = 0
  · rw [if_pos hwidth]
    constructor
    · intro h
      exact absurd hwidth h.1
    · intro h
      exact absurd hwidth (h hknown).1
  rw [if_neg hwidth, List.forall_mem_cons]
  by_cases hnone : numChannels = 0
  · rw [if_pos hnone]
    constructor
    · intro h
      exact absurd hnone h.2.1
    · intro h
      exact absurd hnone (h hknown).2.1
  rw [if_neg hnone]
  have hpos := Nat.pos_of_ne_zero hnone
  by_cases hpcm : audioFormat = 1 ∧ bitsPerSample = 16
  · obtain ⟨rfl, rfl⟩ := hpcm
    rw [if_pos ⟨rfl, rfl⟩, rawAccesses_safe_iff hf hsize hlt hoffset le_rfl hpos]
    constructor
    · intro h _
      exact ⟨hwidth, hnone, fun _ => h.2.2⟩
    · intro h
      exact ⟨hwidth, hnone, (h hknown).2.2 (.inl ⟨rfl, rfl⟩)⟩
  by_cases hfloat : audioFormat = 3 ∧ bitsPerSample = 32
  · obtain ⟨rfl, rfl⟩ := hfloat
    rw [if_neg hpcm, if_pos ⟨rfl, rfl⟩, show 32 / 8 = 4 from rfl,
      rawAccesses_safe_iff hf hsize hlt hoffset (by decide) hpos]
    constructor
    · intro h _
      exact ⟨hwidth, hnone, fun _ => h.2.2⟩
    · intro h
      exact ⟨hwidth, hnone, (h hknown).2.2 (.inr ⟨rfl, rfl⟩)⟩
  · rw [if_neg hpcm, if_neg hfloat]
    constructor
    · intro _ _
      exact ⟨hwidth, hnone, fun hread => absurd hread (not_or.mpr ⟨hpcm, hfloat⟩)⟩
    · intro _
      exact ⟨hwidth, hnone, fun a ha => by cases ha⟩

/-- An identifier is read where it stands. -/
lemma StandsAt.read_id {f : FileStream} {offset : ℕ} (h : StandsAt bytes f offset) {id : List UInt8}
    (hlength : id.length = 4) (hzero : 0 ∉ id) :
    (f.read [0, 0, 0, 0]).1 = id ↔ byteSlice bytes offset 4 = id := by
  have hgot := length_byteSlice_eq bytes offset 4
  have hmem : ∀ {l : List UInt8}, 0 ∈ l → l ≠ id := by
    rintro l hl rfl
    exact hzero hl
  obtain ⟨hbytes, ⟨hok, hat⟩ | ⟨hfailed, hpast⟩⟩ := h
  · unfold FileStream.read
    rw [if_neg (by rw [hok]; exact Bool.false_ne_true), hbytes, hat]
    change byteSlice bytes offset 4 ++ (List.replicate 4 0).drop (byteSlice bytes offset 4).length = id ↔ _
    rw [List.drop_replicate]
    by_cases hfull : (byteSlice bytes offset 4).length = 4
    · rw [hfull, Nat.sub_self, List.replicate_zero, List.append_nil]
    · constructor
      · intro heq
        refine absurd heq (hmem (List.mem_append_right _ ?_))
        exact List.mem_replicate.mpr ⟨by omega, rfl⟩
      · intro heq
        rw [heq] at hfull
        exact absurd hlength hfull
  · unfold FileStream.read
    rw [if_pos hfailed, byteSlice_past (by omega)]
    constructor
    · intro heq
      exact absurd heq (hmem List.mem_cons_self)
    · rintro rfl
      cases hlength

/-- Safe accesses leave the samples defined. -/
lemma loadSamples_defined {f : FileStream} {w : WavFields} (hsize : w.dataSize < 2 ^ 32)
    (h : ∀ a ∈ loadAccesses f w, a.Safe) : loadSamples f w ≠ .undefined := by
  unfold loadAccesses at h
  unfold loadSamples
  dsimp only at h ⊢
  by_cases hboth : ¬ (w.foundFmt = true ∧ w.foundData = true)
  · rw [if_pos hboth]
    nofun
  by_cases hformat : leValue w.audioFormat ≠ 1 ∧ leValue w.audioFormat ≠ 3
  · rw [if_neg hboth, if_pos hformat]
    nofun
  rw [if_neg hboth, if_neg hformat, List.forall_mem_cons] at h
  obtain ⟨hwidth, h⟩ := h
  rw [if_neg hwidth, List.forall_mem_cons] at h
  obtain ⟨hchannels, h⟩ := h
  rw [if_neg hchannels] at h
  rw [if_neg hboth, if_neg hformat, if_neg (not_or.mpr ⟨hwidth, hchannels⟩)]
  -- A buffer of whole samples that takes what the read gets is not overrun.
  have hfill : ∀ width : ℕ, 2 ≤ width → f.gets w.dataSize ≤
      width * (narrow32 ((w.dataSize / width : ℕ) : ℤ)).toNat →
      ¬ (width * (w.dataSize / width) < (byteSlice f.bytes f.pos w.dataSize).length ∧ f.failed = false) := by
    rintro width hwide hle ⟨hover, hok⟩
    have htotal : w.dataSize / width < 2 ^ 31 :=
      lt_of_le_of_lt (Nat.div_le_div_left hwide (by decide)) (by omega)
    generalize w.dataSize / width = total at htotal hle hover
    rw [narrow32_of_fits (by omega) (by omega), Int.toNat_natCast, FileStream.gets,
      if_neg (by rw [hok]; exact Bool.false_ne_true)] at hle
    omega
  by_cases hpcm : leValue w.audioFormat = 1 ∧ leValue w.bitsPerSample = 16
  · rw [if_pos hpcm, hpcm.2, rawAccesses, List.forall_mem_cons] at h
    rw [if_pos hpcm, hpcm.2, if_neg (hfill 2 le_rfl h.1)]
    nofun
  by_cases hfloat : leValue w.audioFormat = 3 ∧ leValue w.bitsPerSample = 32
  · rw [if_neg hpcm, if_pos hfloat, hfloat.2, rawAccesses, List.forall_mem_cons] at h
    rw [if_neg hpcm, if_pos hfloat, hfloat.2, if_neg (hfill 4 (by decide) h.1)]
    nofun
  · rw [if_neg hpcm, if_neg hfloat]
    nofun

/-! ## Files -/

/-- A file is opened, its two identifiers are compared, and the chunk loop runs. -/
lemma header_reads (bytes : List UInt8) :
    ∃ f, StandsAt bytes f 12 ∧
      loadWavAccesses bytes = (if byteSlice bytes 0 4 ≠ fourCC "RIFF" then []
        else if byteSlice bytes 8 4 ≠ fourCC "WAVE" then []
        else loadAccesses (loadLoop (bytes.length + 1) f {}).1 (loadLoop (bytes.length + 1) f {}).2) ∧
      loadWavFile bytes = (if byteSlice bytes 0 4 ≠ fourCC "RIFF" then .rejected
        else if byteSlice bytes 8 4 ≠ fourCC "WAVE" then .rejected
        else loadSamples (loadLoop (bytes.length + 1) f {}).1 (loadLoop (bytes.length + 1) f {}).2) := by
  have hstart : StandsAt bytes { bytes } 0 := ⟨rfl, .inl ⟨rfl, rfl⟩⟩
  have hzero : [(0 : UInt8), 0, 0, 0] ≠ [] := List.cons_ne_nil _ _
  have h4 := hstart.read hzero
  have h8 := h4.read hzero
  have h12 := h8.read hzero
  simp only [List.length_cons, List.length_nil, Nat.zero_add, Nat.reduceAdd] at h4 h8 h12
  have hriff := not_congr (hstart.read_id (show (fourCC "RIFF").length = 4 by decide +kernel)
    (by decide +kernel))
  have hwave := not_congr (h8.read_id (show (fourCC "WAVE").length = 4 by decide +kernel)
    (by decide +kernel))
  refine ⟨_, h12, ?_, ?_⟩
  · unfold loadWavAccesses
    simp only [ne_eq, hriff, hwave]
  · unfold loadWavFile
    simp only [ne_eq, hriff, hwave]

/-- What the chunk loop of a file finds. -/
lemma loadLoop_file {f : FileStream} (hf : StandsAt bytes f 12) :
    LayoutResult bytes 12 none none (loadLoop (bytes.length + 1) f {}) := by
  have hnothing : Described bytes none none {} :=
    ⟨⟨rfl, rfl, rfl, rfl⟩, rfl, rfl, nofun, fun _ => ⟨rfl, rfl, rfl, rfl⟩, nofun⟩
  exact loadLoop_layout hf hnothing nofun (by omega)

/-- Without both chunks nothing is accessed. -/
lemma loadAccesses_not_found {f : FileStream} {w : WavFields}
    (h : ¬ (w.foundFmt = true ∧ w.foundData = true)) : loadAccesses f w = [] := by
  unfold loadAccesses
  dsimp only
  rw [if_pos h]

/-- **When `load_wav_file` is safe.**  No division is by zero, no buffer is overrun, no element is outside its
buffer and every sample comes from bytes that were read from the data chunk, exactly when the `fmt ` and `data`
chunks that the headers of the file lead to go together. -/
theorem load_wav_file_safe_iff (bytes : List UInt8) :
    (∀ a ∈ loadWavAccesses bytes, a.Safe) ↔
      (byteSlice bytes 0 4 = fourCC "RIFF" → byteSlice bytes 8 4 = fourCC "WAVE" →
        ∀ fmt data start, LoadLayout bytes 12 none none fmt data start →
          SampleLayout bytes fmt data start) := by
  obtain ⟨f, hf, haccesses, -⟩ := header_reads bytes
  obtain ⟨hlayout, hfound⟩ := loadLoop_file hf
  rw [haccesses]
  generalize loadLoop (bytes.length + 1) f {} = r at hlayout hfound
  by_cases hriff : byteSlice bytes 0 4 = fourCC "RIFF"
  · by_cases hwave : byteSlice bytes 8 4 = fourCC "WAVE"
    · rw [if_neg (not_not.mpr hriff), if_neg (not_not.mpr hwave)]
      constructor
      · intro h _ _ fmt data start hchunks
        obtain ⟨hat, hw⟩ := hlayout fmt data start hchunks
        exact (loadAccesses_safe_iff hat hw).mp h
      · intro h
        by_cases hboth : r.2.foundFmt = true ∧ r.2.foundData = true
        · obtain ⟨fmt, data, start, hchunks⟩ := hfound hboth.1 hboth.2
          obtain ⟨hat, hw⟩ := hlayout fmt data start hchunks
          exact (loadAccesses_safe_iff hat hw).mpr (h hriff hwave fmt data start hchunks)
        · rw [loadAccesses_not_found hboth]
          exact nofun
    · rw [if_neg (not_not.mpr hriff), if_pos hwave]
      constructor
      · intro _ _ hwave'
        exact absurd hwave' hwave
      · intro _
        exact nofun
  · rw [if_pos hriff]
    constructor
    · intro _ hriff'
      exact absurd hriff' hriff
    · intro _
      exact nofun

/-- Where the accesses are safe the reader's result is defined. -/
theorem loadWavFile_defined (h : ∀ a ∈ loadWavAccesses bytes, a.Safe) :
    loadWavFile bytes ≠ .undefined := by
  obtain ⟨f, hf, haccesses, hfile⟩ := header_reads bytes
  obtain ⟨hlayout, hfound⟩ := loadLoop_file hf
  rw [haccesses] at h
  rw [hfile]
  generalize loadLoop (bytes.length + 1) f {} = r at hlayout hfound h
  split_ifs at h ⊢
  · nofun
  · nofun
  by_cases hboth : r.2.foundFmt = true ∧ r.2.foundData = true
  · obtain ⟨fmt, data, start, hchunks⟩ := hfound hboth.1 hboth.2
    obtain ⟨-, hw⟩ := hlayout fmt data start hchunks
    obtain ⟨hsize, hlt, -⟩ := hw.size data rfl
    exact loadSamples_defined (by omega) h
  · unfold loadSamples
    dsimp only
    rw [if_pos hboth]
    nofun

/-- A mono file of two samples whose header says that there are no channels. -/
def noChannelWav : List UInt8 :=
  fourCC "RIFF" ++ [40, 0, 0, 0] ++ fourCC "WAVE" ++ fourCC "fmt " ++
    [16, 0, 0, 0, 1, 0, 0, 0, 128, 62, 0, 0, 0, 125, 0, 0, 2, 0, 16, 0] ++
    fourCC "data" ++ [4, 0, 0, 0, 0x34, 0x12, 0xdc, 0xfe]

/-- The number of channels divides unchecked. -/
theorem load_wav_file_divides_by_zero : ¬ ∀ bytes, ∀ a ∈ loadWavAccesses bytes, a.Safe := by
  intro h
  have hdivide : LoadAccess.divide 0 ∈ loadWavAccesses noChannelWav := by decide +kernel
  exact h noChannelWav _ hdivide rfl

/-- A file whose data chunk stands in front of its `fmt ` chunk, and a `LIST` chunk behind both. -/
def dataFirstWav : List UInt8 :=
  fourCC "RIFF" ++ [52, 0, 0, 0] ++ fourCC "WAVE" ++ fourCC "data" ++ [8, 0, 0, 0, 0, 0, 0, 0, 0, 0, 0, 0] ++
    fourCC "fmt " ++ [16, 0, 0, 0, 1, 0, 1, 0, 128, 62, 0, 0, 0, 125, 0, 0, 2, 0, 16, 0] ++
    fourCC "LIST" ++ [0, 0, 0, 0]

/-- Its first sample is read from the header of the `LIST` chunk. -/
example : LoadAccess.sample 0 4 2 8 52 20 8 ∈ loadWavAccesses dataFirstWav ∧
    ¬ (LoadAccess.sample 0 4 2 8 52 20 8).Safe := by decide +kernel

end Voxtral
