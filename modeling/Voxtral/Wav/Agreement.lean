import Voxtral.Wav.Readers

/-!
# Where the two WAV readers agree

Both readers see the same chunks as long as `load_wav_file` finds every chunk header where the server does:
it does not skip the padding byte of an odd chunk, it stops reading headers as such when it meets `data`
before `fmt `, and of several `fmt ` chunks it takes the last one before the data instead of the first.
-/

namespace Voxtral

/-- Both readers find the chunks of a file up to its first `data` chunk, the last `fmt ` chunk before it being
`fmt`. -/
structure AlignedLayout (before : List RiffChunk) (fmt data : RiffChunk) : Prop where
  isData : data.id = fourCC "data"
  noData : ∀ c ∈ before, c.id ≠ fourCC "data"
  /-- No chunk before the data is padded. -/
  even : ∀ c ∈ before, c.size % 2 = 0
  /-- Every `fmt ` chunk before the data is complete. -/
  complete : ∀ c ∈ before, c.id = fourCC "fmt " → 16 ≤ c.size
  /-- There is one. -/
  last : (before.filter fun c => c.id = fourCC "fmt ").getLast? = some fmt

/-- The `fmt ` chunk says PCM, one channel, 16 bits. -/
def SaysMonoPcm16 (body : List UInt8) (fmt : RiffChunk) : Prop :=
  u16le body fmt.offset = 1 ∧ u16le body (fmt.offset + 2) = 1 ∧ u16le body (fmt.offset + 14) = 16

variable {body : List UInt8}

/-- The two identifiers differ. -/
lemma fourCC_data_ne_fmt : fourCC "data" ≠ fourCC "fmt " := by decide +kernel

/-! ## The server's walk -/

/-- A chunk that is not the first `data` chunk leaves the data alone. -/
lemma WavScan.chunk_data {st st' : WavScan} {c : RiffChunk} (h : st.chunk body c = .ok st')
    (hc : c.id ≠ fourCC "data" ∨ st.haveData = true) :
    st'.haveData = st.haveData ∧ st'.data = st.data ∧ st'.dataSize = st.dataSize := by
  unfold WavScan.chunk at h
  split at h
  · split at h
    · cases h
    · cases h
      exact ⟨rfl, rfl, rfl⟩
  · split at h
    · next hdata =>
      rcases hc with hc | hc
      · exact absurd hdata.1 hc
      · rw [hdata.2] at hc
        cases hc
    · cases h
      exact ⟨rfl, rfl, rfl⟩

/-- The chunk loop goes from chunk to chunk. -/
lemma scanChunks_cons {stop rounds offset : ℕ} {st st' : WavScan} {c : RiffChunk} {rest : List RiffChunk}
    (hchunks : RiffChunks body stop offset (c :: rest)) (hrounds : stop ≤ offset + rounds)
    (h : scanChunks body stop rounds offset st = .ok st') :
    ∃ st₁ rounds', st.chunk body c = .ok st₁ ∧ stop ≤ c.offset + c.size + c.size % 2 + rounds' ∧
      scanChunks body stop rounds' (c.offset + c.size + c.size % 2) st₁ = .ok st' := by
  obtain ⟨hid, hsize, hoffset, hfits, -⟩ := hchunks.cons_inv
  have hc : c = ⟨byteSlice body offset 4, u32le body (offset + 4), offset + 8⟩ := by
    cases c
    simp_all
  cases rounds with
  | zero => omega
  | succ rounds =>
    rw [scanChunks, if_pos (by omega), if_neg (by omega)] at h
    dsimp only at h
    rw [if_neg (by omega), ← hc] at h
    split at h
    · cases h
    · next st₁ hst₁ =>
      refine ⟨st₁, rounds, hst₁, by omega, ?_⟩
      rw [← hsize, ← hoffset] at h
      by_cases hodd : c.size % 2 = 0
      · rw [if_neg (by simp [hodd])] at h
        rwa [hodd, Nat.add_zero]
      · rw [if_pos hodd, if_neg (by omega)] at h
        rwa [show c.size % 2 = 1 by omega]

/-- Behind the data the data found stays. -/
lemma scanChunks_data_kept {stop rounds offset : ℕ} {st st' : WavScan} {chunks : List RiffChunk}
    (hchunks : RiffChunks body stop offset chunks) (hrounds : stop ≤ offset + rounds)
    (hdata : st.haveData = true) (h : scanChunks body stop rounds offset st = .ok st') :
    st'.data = st.data ∧ st'.dataSize = st.dataSize := by
  induction chunks generalizing rounds offset st with
  | nil =>
    have hend := hchunks.nil_inv
    cases rounds with
    | zero =>
      cases h
      exact ⟨rfl, rfl⟩
    | succ rounds =>
      rw [scanChunks, if_neg (by omega)] at h
      cases h
      exact ⟨rfl, rfl⟩
  | cons c rest ih =>
    obtain ⟨st₁, rounds', hst₁, hrounds', h'⟩ := scanChunks_cons hchunks hrounds h
    obtain ⟨hhave, hoff, hsize⟩ := WavScan.chunk_data hst₁ (.inr hdata)
    obtain ⟨-, -, -, -, hrest⟩ := hchunks.cons_inv
    obtain ⟨hoff', hsize'⟩ := ih hrest hrounds' (hhave.trans hdata) h'
    exact ⟨hoff'.trans hoff, hsize'.trans hsize⟩

/-- The server takes the first `data` chunk. -/
lemma scanChunks_data {stop rounds offset : ℕ} {st st' : WavScan} {before behind : List RiffChunk}
    {data : RiffChunk} (hchunks : RiffChunks body stop offset (before ++ data :: behind))
    (hrounds : stop ≤ offset + rounds) (hnone : st.haveData = false)
    (hdata : data.id = fourCC "data") (hbefore : ∀ c ∈ before, c.id ≠ fourCC "data")
    (h : scanChunks body stop rounds offset st = .ok st') :
    st'.data = data.offset ∧ st'.dataSize = data.size := by
  induction before generalizing rounds offset st with
  | nil =>
    obtain ⟨st₁, rounds', hst₁, hrounds', h'⟩ := scanChunks_cons hchunks hrounds h
    obtain ⟨-, -, -, -, hrest⟩ := hchunks.cons_inv
    unfold WavScan.chunk at hst₁
    rw [if_neg (fun hfmt => fourCC_data_ne_fmt (hdata.symm.trans hfmt.1)), if_pos ⟨hdata, hnone⟩] at hst₁
    cases hst₁
    exact scanChunks_data_kept hrest hrounds' rfl h'
  | cons c rest ih =>
    obtain ⟨st₁, rounds', hst₁, hrounds', h'⟩ := scanChunks_cons hchunks hrounds h
    obtain ⟨hhave, -, -⟩ := WavScan.chunk_data hst₁ (.inl (hbefore c List.mem_cons_self))
    obtain ⟨-, -, -, -, hrest⟩ := hchunks.cons_inv
    exact ih hrest hrounds' (hhave.trans hnone) (fun c' hc' => hbefore c' (List.mem_cons_of_mem c hc')) h'

/-! ## The library's walk -/

/-- A read within the file. -/
lemma read_of_fits {pos n : ℕ} {old : List UInt8} (hn : old.length = n) (h : pos + n ≤ body.length) :
    FileStream.read ⟨body, pos, false⟩ old = (byteSlice body pos n, ⟨body, pos + n, false⟩) := by
  unfold FileStream.read
  rw [if_neg Bool.false_ne_true]
  dsimp only
  rw [hn, length_byteSlice h, ← hn, List.drop_length, List.append_nil]
  simp

/-- The fields a complete `fmt ` chunk leaves. -/
def WavFields.setFmt (body : List UInt8) (w : WavFields) (c : RiffChunk) : WavFields :=
  { w with
    audioFormat := byteSlice body c.offset 2
    numChannels := byteSlice body (c.offset + 2) 2
    sampleRate := byteSlice body (c.offset + 4) 4
    bitsPerSample := byteSlice body (c.offset + 14) 2
    foundFmt := true }

/-- The fields have their sizes. -/
structure WavFields.Sized (w : WavFields) : Prop where
  audioFormat : w.audioFormat.length = 2
  numChannels : w.numChannels.length = 2
  bitsPerSample : w.bitsPerSample.length = 2
  sampleRate : w.sampleRate.length = 4

/-- A complete `fmt ` chunk is read and left at its end. -/
lemma readFmt_eq {w : WavFields} {c : RiffChunk} (hw : w.Sized) (hcomplete : 16 ≤ c.size)
    (hfits : c.offset + c.size ≤ body.length) :
    readFmt ⟨body, c.offset, false⟩ w c.size = (⟨body, c.offset + c.size, false⟩, w.setFmt body c) := by
  unfold readFmt
  rw [read_of_fits hw.audioFormat (by omega)]
  dsimp only
  rw [read_of_fits hw.numChannels (by omega)]
  dsimp only
  rw [read_of_fits hw.sampleRate (by omega)]
  dsimp only
  rw [read_of_fits (show [(0 : UInt8), 0, 0, 0].length = 4 from rfl) (by omega)]
  dsimp only
  rw [read_of_fits (show [(0 : UInt8), 0].length = 2 from rfl) (by omega)]
  dsimp only
  rw [read_of_fits hw.bitsPerSample (by omega)]
  have hend : (if 16 < c.size then
      FileStream.seekCur ⟨body, c.offset + 2 + 2 + 4 + 4 + 2 + 2, false⟩ (c.size - 16)
      else ⟨body, c.offset + 2 + 2 + 4 + 4 + 2 + 2, false⟩) =
      (⟨body, c.offset + c.size, false⟩ : FileStream) := by
    split
    · simp only [FileStream.seekCur, Bool.false_eq_true, if_false, FileStream.mk.injEq, true_and, and_true]
      omega
    · simp only [FileStream.mk.injEq, true_and, and_true]
      omega
  simp only [hend]
  rfl

/-- One round of the chunk loop at a chunk. -/
lemma loadLoop_cons {stop rounds offset : ℕ} {w : WavFields} {c : RiffChunk} {rest : List RiffChunk}
    (hchunks : RiffChunks body stop offset (c :: rest)) (hstop : stop ≤ body.length)
    (hdata : w.foundData = false) :
    loadLoop (rounds + 1) ⟨body, offset, false⟩ w =
      if c.id = fourCC "fmt " then
        loadLoop rounds (readFmt ⟨body, c.offset, false⟩ w c.size).1
          (readFmt ⟨body, c.offset, false⟩ w c.size).2
      else if c.id = fourCC "data" then
        loadLoop rounds ⟨body, c.offset, false⟩
          { w with dataSize := c.size, dataOffset := c.offset, foundData := true }
      else loadLoop rounds ⟨body, c.offset + c.size, false⟩ w := by
  obtain ⟨hid, hsize, hoffset, hfits, -⟩ := hchunks.cons_inv
  have hfour : [(0 : UInt8), 0, 0, 0].length = 4 := rfl
  rw [loadLoop, if_neg (by simp [hdata]), read_of_fits hfour (by omega)]
  dsimp only
  rw [read_of_fits hfour (by omega)]
  dsimp only
  rw [if_neg Bool.false_ne_true, ← hid,
    show leValue (byteSlice body (offset + 4) 4) = c.size from hsize.symm,
    show offset + 4 + 4 = c.offset by omega]
  rfl

/-- The chunks before the data leave the fields of the `fmt ` chunks among them. -/
lemma loadLoop_before {stop offset : ℕ} {w : WavFields} {before behind : List RiffChunk}
    {data : RiffChunk} (rounds : ℕ) (hchunks : RiffChunks body stop offset (before ++ data :: behind))
    (hstop : stop ≤ body.length) (hw : w.Sized) (hdata : w.foundData = false)
    (hnoData : ∀ c ∈ before, c.id ≠ fourCC "data") (heven : ∀ c ∈ before, c.size % 2 = 0)
    (hcomplete : ∀ c ∈ before, c.id = fourCC "fmt " → 16 ≤ c.size) :
    RiffChunks body stop (data.offset - 8) (data :: behind) ∧
    (before.foldl (fun w c => if c.id = fourCC "fmt " then w.setFmt body c else w) w).foundData = false ∧
    loadLoop (before.length + rounds) ⟨body, offset, false⟩ w =
      loadLoop rounds ⟨body, data.offset - 8, false⟩
        (before.foldl (fun w c => if c.id = fourCC "fmt " then w.setFmt body c else w) w) := by
  induction before generalizing offset w with
  | nil =>
    obtain ⟨-, -, hoffset, -, -⟩ := hchunks.cons_inv
    rw [show data.offset - 8 = offset by omega, List.length_nil, Nat.zero_add]
    exact ⟨hchunks, hdata, rfl⟩
  | cons c rest ih =>
    obtain ⟨-, -, hoffset, hfits, hrest⟩ := hchunks.cons_inv
    have hev := heven c List.mem_cons_self
    rw [hev, Nat.add_zero] at hrest
    rw [List.length_cons, show rest.length + 1 + rounds = (rest.length + rounds) + 1 by omega,
      loadLoop_cons hchunks hstop hdata, List.foldl_cons]
    have hnext : ∀ {w' : WavFields}, w'.Sized → w'.foundData = false → _ := fun hw' hd' =>
      ih hrest hw' hd' (fun c' hc' => hnoData c' (List.mem_cons_of_mem c hc'))
        (fun c' hc' => heven c' (List.mem_cons_of_mem c hc'))
        fun c' hc' => hcomplete c' (List.mem_cons_of_mem c hc')
    by_cases hfmt : c.id = fourCC "fmt "
    · have hlarge := hcomplete c List.mem_cons_self hfmt
      rw [if_pos hfmt, if_pos hfmt, readFmt_eq hw hlarge (by omega)]
      refine hnext ⟨length_byteSlice ?_, length_byteSlice ?_, length_byteSlice ?_, length_byteSlice ?_⟩ hdata
        <;> omega
    · rw [if_neg hfmt, if_neg (hnoData c List.mem_cons_self), if_neg hfmt]
      exact hnext hw hdata

variable (body) in
/-- The last `fmt ` chunk decides. -/
lemma foldl_setFmt {chunks : List RiffChunk} {c : RiffChunk} (w : WavFields)
    (h : (chunks.filter fun c => c.id = fourCC "fmt ").getLast? = some c) :
    ∃ w' : WavFields, chunks.foldl (fun w c => if c.id = fourCC "fmt " then w.setFmt body c else w) w =
      w'.setFmt body c := by
  obtain ⟨init, hinit⟩ := List.getLast?_eq_some_iff.mp h
  have hfilter : chunks.foldl (fun w c => if c.id = fourCC "fmt " then w.setFmt body c else w) w =
      (chunks.filter fun c => c.id = fourCC "fmt ").foldl (fun w c => w.setFmt body c) w := by
    rw [List.foldl_filter]
    simp
  rw [hfilter, hinit, List.foldl_append]
  exact ⟨init.foldl (fun w c => w.setFmt body c) w, rfl⟩

/-- One channel is not mixed. -/
lemma mixPcm16_mono (raw : List Int16) :
    mixPcm16 raw 1 raw.length = raw.map fun s => (s.toInt : ℚ) / 32768 := by
  unfold mixPcm16
  refine List.ext_getElem (by simp) fun i h₁ h₂ => ?_
  simp only [List.length_map] at h₂
  simp [List.getElem?_eq_getElem h₂]

/-- What the server has accepted: the header, the walk over the chunks and the samples of the data it
found. -/
lemma parsePcm16Wav_ok {audio : AudioData} (h : parsePcm16Wav body = .ok audio) :
    12 ≤ body.length ∧ byteSlice body 0 4 = fourCC "RIFF" ∧ byteSlice body 8 4 = fourCC "WAVE" ∧
      riffEnd body ≤ body.length ∧ ∃ st, scanChunks body (riffEnd body) body.length 12 {} = .ok st ∧
        (byteSlice body st.data st.dataSize).length % 2 = 0 ∧
        0 < (byteSlice body st.data st.dataSize).length ∧
        audio.samples = decodePcm16 (byteSlice body st.data st.dataSize) := by
  unfold parsePcm16Wav at h
  split at h
  · cases h
  · next hheader =>
    simp only [not_or, not_lt, ne_eq, not_not] at hheader
    split at h
    · cases h
    · next hend =>
      split at h
      · cases h
      · next st hscan =>
        split at h
        · cases h
        · split at h
          · cases h
          · split at h
            · cases h
            · unfold makeAudio at h
              split at h
              · cases h
              · next heven =>
                cases h
                exact ⟨hheader.1, hheader.2.1, hheader.2.2, by omega, st, hscan, by omega, by omega, rfl⟩

/-- In an aligned file the library's reader comes to the data with the fields of the last `fmt ` chunk. -/
lemma loadWavFile_aligned {before behind : List RiffChunk} {fmt data : RiffChunk} {stop : ℕ}
    (hlength : 12 ≤ body.length) (hriff : byteSlice body 0 4 = fourCC "RIFF")
    (hwave : byteSlice body 8 4 = fourCC "WAVE") (hstop : stop ≤ body.length)
    (hchunks : RiffChunks body stop 12 (before ++ data :: behind))
    (hlayout : AlignedLayout before fmt data) :
    ∃ w : WavFields, loadWavFile body = loadSamples ⟨body, data.offset, false⟩
      { w.setFmt body fmt with dataSize := data.size, dataOffset := data.offset, foundData := true } := by
  have hfour : [(0 : UInt8), 0, 0, 0].length = 4 := rfl
  have hrounds : before.length + 1 ≤ body.length + 1 := by
    have hle := hchunks.length_le
    rw [List.length_append, List.length_cons] at hle
    omega
  obtain ⟨rounds, hrounds⟩ := Nat.exists_eq_add_of_le hrounds
  obtain ⟨hdataAt, hnoData, hwalk⟩ := loadLoop_before (w := {}) (rounds + 1) hchunks hstop
    ⟨rfl, rfl, rfl, rfl⟩ rfl hlayout.noData hlayout.even hlayout.complete
  obtain ⟨w, hw⟩ := foldl_setFmt body {} hlayout.last
  refine ⟨w, ?_⟩
  have hloop : loadLoop (body.length + 1) ⟨body, 12, false⟩ {} =
      (⟨body, data.offset, false⟩,
        { w.setFmt body fmt with dataSize := data.size, dataOffset := data.offset, foundData := true }) := by
    rw [hrounds, show before.length + 1 + rounds = before.length + (rounds + 1) by omega, hwalk,
      loadLoop_cons hdataAt hstop hnoData,
      if_neg (fun hfmt => fourCC_data_ne_fmt (hlayout.isData.symm.trans hfmt)), if_pos hlayout.isData, hw]
    cases rounds with
    | zero => rfl
    | succ rounds => rw [loadLoop, if_pos (.inr ⟨rfl, rfl⟩)]
  unfold loadWavFile
  rw [read_of_fits hfour (by omega)]
  dsimp only
  rw [if_neg (not_not.mpr hriff), read_of_fits hfour (by omega)]
  dsimp only
  rw [read_of_fits hfour (by omega)]
  dsimp only
  rw [if_neg (not_not.mpr hwave), show 0 + 4 + 4 + 4 = 12 from rfl, hloop]

/-- Samples of one channel are taken as they are. -/
lemma loadSamples_mono {w : WavFields} {data : RiffChunk} {fmt : RiffChunk}
    (hformat : SaysMonoPcm16 body fmt) (heven : data.size % 2 = 0)
    (hfits : data.offset + data.size ≤ body.length) :
    loadSamples ⟨body, data.offset, false⟩
        { w.setFmt body fmt with dataSize := data.size, dataOffset := data.offset, foundData := true } =
      .pcm ((decodePcm16 (byteSlice body data.offset data.size)).map fun s => (s.toInt : ℚ) / 32768) := by
  obtain ⟨haudio, hchannels, hbits⟩ := hformat
  unfold loadSamples WavFields.setFmt
  dsimp only
  rw [show leValue (byteSlice body fmt.offset 2) = 1 from haudio,
    show leValue (byteSlice body (fmt.offset + 2) 2) = 1 from hchannels,
    show leValue (byteSlice body (fmt.offset + 14) 2) = 16 from hbits]
  have hdata : (byteSlice body data.offset data.size).length = data.size := length_byteSlice hfits
  have hbytes : 2 * (data.size / (16 / 8)) = data.size := by omega
  rw [if_neg (by simp), if_neg (by simp), if_neg (by simp), if_pos (by simp), hbytes, if_neg (by omega),
    read_of_fits List.length_replicate hfits]
  have hsamples : data.size / (16 / 8) / 1 = (decodePcm16 (byteSlice body data.offset data.size)).length := by
    rw [length_decodePcm16, hdata]
    omega
  rw [hsamples, mixPcm16_mono]

/-- As many samples as there are two-byte words come from one channel only. -/
lemma mono_of_loadSamples {w : WavFields} {data : RiffChunk} {fmt : RiffChunk} {audio : List ℚ}
    (hload : loadSamples ⟨body, data.offset, false⟩
      { w.setFmt body fmt with dataSize := data.size, dataOffset := data.offset, foundData := true } = .pcm audio)
    (hlength : audio.length = data.size / 2) (hpos : 0 < data.size / 2) : SaysMonoPcm16 body fmt := by
  unfold loadSamples WavFields.setFmt at hload
  dsimp only at hload
  split at hload
  · cases hload
  · split at hload
    · cases hload
    · split at hload
      · cases hload
      · next hdivides =>
        split at hload
        · next hpcm =>
          split at hload
          · cases hload
          · have hmixed := LoadOutcome.pcm.inj hload
            have hcount := congrArg List.length hmixed
            rw [mixPcm16, List.length_map, List.length_range, hpcm.2, hlength,
              show 16 / 8 = 2 from rfl] at hcount
            refine ⟨hpcm.1, ?_, hpcm.2⟩
            rw [not_or] at hdivides
            by_contra hmany
            have hfewer := Nat.div_lt_self hpos
              (show 1 < leValue (byteSlice body (fmt.offset + 2) 2) by
                have hne : leValue (byteSlice body (fmt.offset + 2) 2) ≠ 1 := hmany
                omega)
            omega
        · split at hload
          · split at hload <;> cases hload
          · cases hload

/-- **The two readers agree on aligned mono files.**  Let a body be accepted by the server, with no padded
chunk before its first `data` chunk, complete `fmt ` chunks there and at least one of them.  The library reads
exactly the server's samples, divided by 32768, if and only if the last `fmt ` chunk before the data says PCM,
one channel, 16 bits. -/
theorem wav_readers_agree {audio : AudioData} {before behind : List RiffChunk} {fmt data : RiffChunk}
    (hparse : parsePcm16Wav body = .ok audio)
    (hchunks : RiffChunks body (riffEnd body) 12 (before ++ data :: behind))
    (hlayout : AlignedLayout before fmt data) :
    loadWavFile body = .pcm (audio.samples.map fun s => (s.toInt : ℚ) / 32768) ↔
      SaysMonoPcm16 body fmt := by
  obtain ⟨hlength, hriff, hwave, hend, st, hscan, heven, hpos, hsamples⟩ := parsePcm16Wav_ok hparse
  obtain ⟨hdata, hsize⟩ := scanChunks_data hchunks (by omega) rfl hlayout.isData hlayout.noData hscan
  have hfits : data.offset + data.size ≤ body.length :=
    le_trans (hchunks.mem_le (by simp)) hend
  obtain ⟨w, hload⟩ := loadWavFile_aligned hlength hriff hwave hend hchunks hlayout
  rw [hdata, hsize, length_byteSlice hfits] at heven hpos
  rw [hsamples, hdata, hsize, hload]
  constructor
  · intro hagree
    refine mono_of_loadSamples hagree ?_ (by omega)
    rw [List.length_map, length_decodePcm16, length_byteSlice hfits]
  · intro hformat
    exact loadSamples_mono hformat heven hfits

/-- A `fmt ` chunk of 16-bit mono audio at 16 kHz, and a `data` chunk with the samples 4660 and -292. -/
def fmtAndData : List UInt8 :=
  fourCC "fmt " ++ [16, 0, 0, 0, 1, 0, 1, 0, 128, 62, 0, 0, 0, 125, 0, 0, 2, 0, 16, 0] ++
    fourCC "data" ++ [4, 0, 0, 0, 0x34, 0x12, 0xdc, 0xfe]

/-- A file with an unknown chunk of four bytes. -/
def evenJunkWav : List UInt8 :=
  fourCC "RIFF" ++ [52, 0, 0, 0] ++ fourCC "WAVE" ++ fourCC "JUNK" ++ [4, 0, 0, 0, 97, 98, 99, 100] ++
    fmtAndData

/-- A file with an unknown chunk of three bytes and its padding. -/
def oddJunkWav : List UInt8 :=
  fourCC "RIFF" ++ [52, 0, 0, 0] ++ fourCC "WAVE" ++ fourCC "JUNK" ++ [3, 0, 0, 0, 97, 98, 99, 0] ++
    fmtAndData

/-- Behind an unpadded unknown chunk both readers find the same two samples. -/
theorem wav_readers_agree_junk : ∃ audio, parsePcm16Wav evenJunkWav = .ok audio ∧
    audio.samples = [4660, -292] ∧
    loadWavFile evenJunkWav = .pcm (audio.samples.map fun s => (s.toInt : ℚ) / 32768) := by
  have hchunks : RiffChunks evenJunkWav (riffEnd evenJunkWav) 12 ([⟨fourCC "JUNK", 4, 20⟩,
      ⟨fourCC "fmt ", 16, 32⟩] ++ ⟨fourCC "data", 4, 56⟩ :: []) := by
    rw [show riffEnd evenJunkWav = 60 by decide +kernel]
    refine .cons ?_ ?_ rfl ?_ (.cons ?_ ?_ rfl ?_ (.cons ?_ ?_ rfl ?_ .nil)) <;> decide +kernel
  have hlayout : AlignedLayout [⟨fourCC "JUNK", 4, 20⟩, ⟨fourCC "fmt ", 16, 32⟩] ⟨fourCC "fmt ", 16, 32⟩
      ⟨fourCC "data", 4, 56⟩ := by
    constructor <;> decide +kernel
  have hparse : parsePcm16Wav evenJunkWav = .ok ⟨[4660, -292], 0⟩ := by decide +kernel
  refine ⟨_, hparse, rfl, (wav_readers_agree hparse hchunks hlayout).mpr ?_⟩
  unfold SaysMonoPcm16
  decide +kernel

/-- Behind a padded one the library's reader loses the chunk headers and rejects the file. -/
theorem padded_chunk_rejected :
    parsePcm16Wav oddJunkWav = .ok ⟨[4660, -292], 0⟩ ∧ loadWavFile oddJunkWav = .rejected := by
  constructor <;> decide +kernel

end Voxtral
