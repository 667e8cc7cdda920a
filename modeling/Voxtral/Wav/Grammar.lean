import Voxtral.Wav.Agreement

/-!
# The grammar of the server's WAV files

`parse_pcm16_wav` accepts a body exactly when its RIFF data splits into chunks, the first `fmt ` chunk says
PCM, one channel, 16000 Hz and 16 bits, and the first `data` chunk holds samples.  Its reads are first taken
apart: a read is undefined outside the body, and so is a walk that has not ended after as many rounds as the
body has bytes; neither happens.
-/

namespace Voxtral

/-! ## Reads within the body -/

/-- Read `n` bytes at an offset; undefined outside the body. -/
def readBytes (body : List UInt8) (offset n : ℕ) : Option (List UInt8) :=
  if offset + n ≤ body.length then some (byteSlice body offset n) else none

/-- `read_u16le`. -/
def readU16le (body : List UInt8) (offset : ℕ) : Option ℕ :=
  (readBytes body offset 2).map fun b => (b.getD 0 0).toNat ||| (b.getD 1 0).toNat <<< 8

/-- `read_u32le`. -/
def readU32le (body : List UInt8) (offset : ℕ) : Option ℕ :=
  (readBytes body offset 4).map fun b =>
    (b.getD 0 0).toNat ||| (b.getD 1 0).toNat <<< 8 ||| (b.getD 2 0).toNat <<< 16 |||
      (b.getD 3 0).toNat <<< 24

/-- What the loop does with a chunk of `size` bytes at `offset`, read by read. -/
def WavScan.chunkRead (body : List UInt8) (st : WavScan) (id : List UInt8) (size offset : ℕ) :
    Option (Except AudioFailure WavScan) :=
  if id = fourCC "fmt " ∧ st.haveFmt = false then
    if size < 16 then some (.error ("invalid_argument", "The WAV fmt chunk is too small."))
    else do
      let audioFormat ← readU16le body offset
      let channels ← readU16le body (offset + 2)
      let sampleRate ← readU32le body (offset + 4)
      let byteRate ← readU32le body (offset + 8)
      let blockAlign ← readU16le body (offset + 12)
      let bitsPerSample ← readU16le body (offset + 14)
      some (.ok { st with
        audioFormat, channels, sampleRate, byteRate, blockAlign, bitsPerSample, haveFmt := true })
  else if id = fourCC "data" ∧ st.haveData = false then
    some (.ok { st with data := offset, dataSize := size, haveData := true })
  else some (.ok st)

/-- The chunk loop, read by read; undefined when the rounds run out. -/
def scanChunksRead (body : List UInt8) (riffEnd : ℕ) :
    ℕ → ℕ → WavScan → Option (Except AudioFailure WavScan)
  | 0, _, _ => none
  | rounds + 1, offset, st =>
    if offset < riffEnd then
      if riffEnd - offset < 8 then
        some (.error ("invalid_argument", "The WAV chunk header is truncated."))
      else do
        let size ← readU32le body (offset + 4)
        if riffEnd - (offset + 8) < size then
          some (.error ("invalid_argument", "The WAV chunk size is invalid."))
        else do
          let id ← readBytes body offset 4
          match ← st.chunkRead body id size (offset + 8) with
          | .error e => some (.error e)
          | .ok st' =>
            if size % 2 ≠ 0 then
              if offset + 8 + size = riffEnd then
                some (.error ("invalid_argument", "The WAV chunk padding byte is missing."))
              else scanChunksRead body riffEnd rounds (offset + 8 + size + 1) st'
            else scanChunksRead body riffEnd rounds (offset + 8 + size) st'
    else some (.ok st)

/-- `make_audio` of the bytes at an offset, sample by sample. -/
def makeAudioRead (body : List UInt8) (data byteCount : ℕ) : Option (Except AudioFailure AudioData) :=
  if byteCount = 0 ∨ byteCount % 2 ≠ 0 then
    some (.error ("invalid_argument", "PCM audio must contain a non-zero even number of bytes."))
  else do
    let samples ← (List.range (byteCount / 2)).mapM fun i =>
      (readU16le body (data + i * 2)).map fun v => (UInt16.ofNat v).toInt16
    some (.ok ⟨samples, samples.length * 1000 / 16000⟩)

/-- `parse_pcm16_wav`, read by read. -/
def parsePcm16WavRead (body : List UInt8) : Option (Except AudioFailure AudioData) :=
  let invalid : AudioFailure := ("invalid_argument", "The request body is not a valid RIFF/WAVE file.")
  if body.length < 12 then some (.error invalid)
  else do
    let riff ← readBytes body 0 4
    let wave ← readBytes body 8 4
    if riff ≠ fourCC "RIFF" ∨ wave ≠ fourCC "WAVE" then some (.error invalid)
    else do
      let riffSize ← readU32le body 4
      if riffSize + 8 < 12 ∨ body.length < riffSize + 8 then
        some (.error ("invalid_argument", "The WAV RIFF size is invalid."))
      else do
        match ← scanChunksRead body (riffSize + 8) body.length 12 {} with
        | .error e => some (.error e)
        | .ok st =>
          if st.haveFmt = false ∨ st.haveData = false then
            some (.error ("invalid_argument", "The WAV file must contain fmt and data chunks."))
          else if st.audioFormat ≠ 1 then
            some (.error ("unsupported_audio_format", "Only uncompressed integer PCM WAV is supported."))
          else if st.channels ≠ 1 ∨ st.sampleRate ≠ 16000 ∨ st.bitsPerSample ≠ 16 ∨ st.blockAlign ≠ 2 ∨
              st.byteRate ≠ 32000 then
            some (.error ("unsupported_audio_format",
              "WAV audio must be signed PCM16 little-endian, mono, 16000 Hz."))
          else makeAudioRead body st.data st.dataSize

variable {body : List UInt8}

/-- A read within the body gives its bytes. -/
lemma readBytes_of_fits {offset n : ℕ} (h : offset + n ≤ body.length) :
    readBytes body offset n = some (byteSlice body offset n) := if_pos h

/-- The bytes at an offset, one after the other. -/
lemma byteSlice_succ {offset n : ℕ} (h : offset < body.length) :
    byteSlice body offset (n + 1) = body[offset] :: byteSlice body (offset + 1) n := by
  unfold byteSlice
  rw [List.drop_eq_getElem_cons h, List.take_succ_cons]

/-- Two bytes, shifted and or-ed, are their little-endian value. -/
lemma readU16le_eq {offset : ℕ} (h : offset + 2 ≤ body.length) :
    readU16le body offset = some (u16le body offset) := by
  rw [readU16le, readBytes_of_fits h, u16le, byteSlice_succ (by omega), byteSlice_succ (by omega)]
  have hoffset : offset < body.length := by omega
  have hlow := body[offset].toNat_lt
  simp only [Option.map_some, List.getD_cons_zero, List.getD_cons_succ, leValue, byteSlice, List.take_zero,
    Nat.shiftLeft_eq]
  rw [Nat.or_comm, Nat.mul_comm _ (2 ^ 8), ← Nat.two_pow_add_eq_or_of_lt hlow]
  congr 1
  omega

/-- Four bytes, shifted and or-ed, are their little-endian value. -/
lemma readU32le_eq {offset : ℕ} (h : offset + 4 ≤ body.length) :
    readU32le body offset = some (u32le body offset) := by
  rw [readU32le, readBytes_of_fits h, u32le, byteSlice_succ (by omega), byteSlice_succ (by omega),
    byteSlice_succ (by omega), byteSlice_succ (by omega)]
  have hoffset : offset < body.length := by omega
  have hoffset1 : offset + 1 < body.length := by omega
  have hoffset2 : offset + 1 + 1 < body.length := by omega
  have h0 := body[offset].toNat_lt
  have h1 := body[offset + 1].toNat_lt
  have h2 := body[offset + 1 + 1].toNat_lt
  simp only [Option.map_some, List.getD_cons_zero, List.getD_cons_succ, leValue, byteSlice, List.take_zero,
    Nat.shiftLeft_eq]
  rw [Nat.or_comm body[offset].toNat, Nat.mul_comm _ (2 ^ 8),
    ← Nat.two_pow_add_eq_or_of_lt h0, Nat.or_comm _ (_ * 2 ^ 16), Nat.mul_comm _ (2 ^ 16),
    ← Nat.two_pow_add_eq_or_of_lt (by omega), Nat.or_comm _ (_ * 2 ^ 24), Nat.mul_comm _ (2 ^ 24),
    ← Nat.two_pow_add_eq_or_of_lt (by omega)]
  congr 1
  omega

/-- A chunk within the body is read as a whole. -/
lemma WavScan.chunkRead_eq (st : WavScan) {id : List UInt8} {size offset : ℕ}
    (h : offset + size ≤ body.length) :
    st.chunkRead body id size offset = some (st.chunk body ⟨id, size, offset⟩) := by
  unfold WavScan.chunkRead WavScan.chunk
  dsimp only
  split_ifs with hfmt hsmall
  · rfl
  · rw [readU16le_eq (by omega), readU16le_eq (by omega), readU32le_eq (by omega),
      readU32le_eq (by omega), readU16le_eq (by omega), readU16le_eq (by omega)]
    rfl
  · rfl
  · rfl

/-- The loop ends and stays in the body. -/
lemma scanChunksRead_eq {stop : ℕ} (hstop : stop ≤ body.length) {rounds offset : ℕ}
    (hoffset : offset ≤ stop) (hrounds : stop < offset + rounds) (st : WavScan) :
    scanChunksRead body stop rounds offset st = some (scanChunks body stop rounds offset st) := by
  induction rounds generalizing offset st with
  | zero => omega
  | succ rounds ih =>
    rw [scanChunksRead, scanChunks]
    by_cases hmore : offset < stop
    · rw [if_pos hmore, if_pos hmore]
      by_cases hheader : stop - offset < 8
      · rw [if_pos hheader, if_pos hheader]
      rw [if_neg hheader, if_neg hheader, readU32le_eq (by omega)]
      dsimp only [Option.bind_eq_bind, Option.bind_some]
      by_cases hsize : stop - (offset + 8) < u32le body (offset + 4)
      · rw [if_pos hsize, if_pos hsize]
      rw [if_neg hsize, if_neg hsize, readBytes_of_fits (by omega)]
      dsimp only [Option.bind_some]
      rw [WavScan.chunkRead_eq st (by omega)]
      dsimp only [Option.bind_some]
      cases st.chunk body ⟨byteSlice body offset 4, u32le body (offset + 4), offset + 8⟩ with
      | error e => rfl
      | ok st' =>
        dsimp only
        split_ifs
        · rfl
        · exact ih (by omega) (by omega) st'
        · exact ih (by omega) (by omega) st'
    · rw [if_neg hmore, if_neg hmore]

/-! ## The chunks found -/

/-- One round of the loop on the chunk at an offset. -/
lemma scanChunks_round {stop rounds offset : ℕ} {st st' : WavScan} {c : RiffChunk}
    (hc : c = ⟨byteSlice body offset 4, u32le body (offset + 4), offset + 8⟩) (hmore : offset < stop) :
    scanChunks body stop (rounds + 1) offset st = .ok st' ↔
      c.offset + c.size + c.size % 2 ≤ stop ∧ ∃ st₁, st.chunk body c = .ok st₁ ∧
        scanChunks body stop rounds (c.offset + c.size + c.size % 2) st₁ = .ok st' := by
  have hoffset : c.offset = offset + 8 := by rw [hc]
  have hsize : u32le body (offset + 4) = c.size := by rw [hc]
  rw [scanChunks, if_pos hmore]
  dsimp only
  rw [← hc, hsize]
  constructor
  · intro h
    by_cases hheader : stop - offset < 8
    · rw [if_pos hheader] at h
      cases h
    by_cases hlarge : stop - (offset + 8) < c.size
    · rw [if_neg hheader, if_pos hlarge] at h
      cases h
    rw [if_neg hheader, if_neg hlarge] at h
    cases hchunk : st.chunk body c with
    | error e =>
      rw [hchunk] at h
      cases h
    | ok st₁ =>
      rw [hchunk] at h
      dsimp only at h
      by_cases heven : c.size % 2 = 0
      · rw [if_neg (not_not.mpr heven)] at h
        rw [hoffset, heven]
        exact ⟨by omega, st₁, rfl, h⟩
      by_cases hend : offset + 8 + c.size = stop
      · rw [if_pos heven, if_pos hend] at h
        cases h
      · rw [if_pos heven, if_neg hend] at h
        rw [hoffset, show c.size % 2 = 1 by omega]
        exact ⟨by omega, st₁, rfl, h⟩
  · rintro ⟨hfits, st₁, hst₁, hrest⟩
    rw [if_neg (by omega), if_neg (by omega), hst₁]
    dsimp only
    rw [hoffset] at hrest
    by_cases hodd : c.size % 2 = 0
    · rw [hodd, Nat.add_zero] at hrest
      rw [if_neg (not_not.mpr hodd)]
      exact hrest
    · rw [show c.size % 2 = 1 by omega] at hrest
      rw [if_pos hodd, if_neg (by omega)]
      exact hrest

/-- The loop succeeds exactly when the bytes split into chunks that are all well taken. -/
lemma scanChunks_ok_iff {stop rounds offset : ℕ} {st st' : WavScan} (hoffset : offset ≤ stop)
    (hrounds : stop ≤ offset + rounds) :
    scanChunks body stop rounds offset st = .ok st' ↔
      ∃ chunks, RiffChunks body stop offset chunks ∧ chunks.foldlM (WavScan.chunk body) st = .ok st' := by
  induction rounds generalizing offset st with
  | zero =>
    obtain rfl : offset = stop := by omega
    constructor
    · intro h
      exact ⟨[], .nil, h⟩
    · rintro ⟨chunks, hchunks, hfold⟩
      cases chunks with
      | nil => exact hfold
      | cons c rest =>
        have hle := hchunks.length_le
        rw [List.length_cons] at hle
        omega
  | succ rounds ih =>
    by_cases hmore : offset < stop
    · obtain ⟨c, hc⟩ : ∃ c : RiffChunk,
          c = ⟨byteSlice body offset 4, u32le body (offset + 4), offset + 8⟩ := ⟨_, rfl⟩
      have hoff : c.offset = offset + 8 := by rw [hc]
      rw [scanChunks_round hc hmore]
      constructor
      · rintro ⟨hfits, st₁, hst₁, hrest⟩
        obtain ⟨chunks, hchunks, hfold⟩ := (ih hfits (by omega)).mp hrest
        refine ⟨c :: chunks, .cons ?_ ?_ hoff hfits hchunks, ?_⟩
        · rw [hc]
        · rw [hc]
        · rw [List.foldlM_cons, hst₁]
          exact hfold
      · rintro ⟨chunks, hchunks, hfold⟩
        cases chunks with
        | nil =>
          have hend := hchunks.nil_inv
          omega
        | cons c' rest =>
          obtain ⟨hid, hsize, hoff', hfits, hrest⟩ := hchunks.cons_inv
          obtain rfl : c' = c := by
            rw [hc]
            cases c'
            simp_all
          rw [List.foldlM_cons] at hfold
          cases hst₁ : st.chunk body c' with
          | error e =>
            rw [hst₁] at hfold
            cases hfold
          | ok st₁ =>
            rw [hst₁] at hfold
            exact ⟨hfits, st₁, rfl, (ih hfits (by omega)).mpr ⟨rest, hrest, hfold⟩⟩
    · obtain rfl : offset = stop := by omega
      rw [scanChunks, if_neg hmore]
      constructor
      · intro h
        exact ⟨[], .nil, h⟩
      · rintro ⟨chunks, hchunks, hfold⟩
        cases chunks with
        | nil => exact hfold
        | cons c rest =>
          have hle := hchunks.length_le
          rw [List.length_cons] at hle
          omega

/-- The locals after the first `fmt ` and the first `data` chunk, as far as there are any. -/
def WavScan.found (body : List UInt8) (st : WavScan) (fmt data : Option RiffChunk) : WavScan :=
  let st := match fmt with
    | none => st
    | some c =>
      { st with
        audioFormat := u16le body c.offset
        channels := u16le body (c.offset + 2)
        sampleRate := u32le body (c.offset + 4)
        byteRate := u32le body (c.offset + 8)
        blockAlign := u16le body (c.offset + 12)
        bitsPerSample := u16le body (c.offset + 14)
        haveFmt := true }
  match data with
  | none => st
  | some c => { st with data := c.offset, dataSize := c.size, haveData := true }

/-- The first chunk with an identifier. -/
def firstChunk (id : String) (chunks : List RiffChunk) : Option RiffChunk :=
  chunks.find? fun c => c.id = fourCC id

/-- The first chunk of a kind that has not been found yet. -/
def newChunk (id : String) (chunks : List RiffChunk) (known : Bool) : Option RiffChunk :=
  if known then none else firstChunk id chunks

/-- The first of several chunks that a reader takes for new. -/
lemma newChunk_cons (id : String) (c : RiffChunk) (rest : List RiffChunk) (known : Bool) :
    newChunk id (c :: rest) known =
      if c.id = fourCC id ∧ known = false then some c else newChunk id rest known := by
  unfold newChunk firstChunk
  cases known with
  | true => simp
  | false =>
    rw [List.find?_cons]
    by_cases hid : c.id = fourCC id
    · simp [hid]
    · simp [hid]

/-- Chunks are well taken exactly when the first `fmt ` chunk is large enough. -/
lemma foldlM_chunk_iff {chunks : List RiffChunk} {st st' : WavScan} :
    chunks.foldlM (WavScan.chunk body) st = .ok st' ↔
      (∀ c ∈ newChunk "fmt " chunks st.haveFmt, 16 ≤ c.size) ∧
        st' = st.found body (newChunk "fmt " chunks st.haveFmt) (newChunk "data" chunks st.haveData) := by
  induction chunks generalizing st with
  | nil =>
    have hnone : ∀ id known, newChunk id [] known = none := by
      intro id known
      unfold newChunk firstChunk
      split_ifs <;> rfl
    rw [hnone, hnone]
    constructor
    · intro h
      cases h
      exact ⟨nofun, rfl⟩
    · rintro ⟨-, rfl⟩
      rfl
  | cons c rest ih =>
    rw [List.foldlM_cons, newChunk_cons, newChunk_cons]
    by_cases hfmt : c.id = fourCC "fmt " ∧ st.haveFmt = false
    · have hdata : ¬ (c.id = fourCC "data" ∧ st.haveData = false) :=
        fun h => fourCC_data_ne_fmt (h.1.symm.trans hfmt.1)
      rw [WavScan.chunk, if_pos hfmt, if_pos hfmt, if_neg hdata]
      by_cases hsmall : c.size < 16
      · rw [if_pos hsmall]
        constructor
        · intro h
          cases h
        · rintro ⟨hlarge, -⟩
          have := hlarge c rfl
          omega
      · rw [if_neg hsmall]
        change rest.foldlM (WavScan.chunk body) (st.found body (some c) none) = .ok st' ↔ _
        rw [ih]
        change (∀ c ∈ (none : Option RiffChunk), 16 ≤ c.size) ∧
          st' = (st.found body (some c) none).found body none (newChunk "data" rest st.haveData) ↔ _
        have hfound : ∀ data, (st.found body (some c) none).found body none data =
            st.found body (some c) data := by
          intro data
          cases data <;> rfl
        rw [hfound]
        constructor
        · rintro ⟨-, h⟩
          refine ⟨?_, h⟩
          intro c' hc'
          obtain rfl := Option.some.inj hc'
          omega
        · rintro ⟨-, h⟩
          exact ⟨nofun, h⟩
    · rw [WavScan.chunk, if_neg hfmt, if_neg hfmt]
      by_cases hdata : c.id = fourCC "data" ∧ st.haveData = false
      · rw [if_pos hdata, if_pos hdata]
        change rest.foldlM (WavScan.chunk body) (st.found body none (some c)) = .ok st' ↔ _
        rw [ih]
        change (∀ c ∈ newChunk "fmt " rest st.haveFmt, 16 ≤ c.size) ∧
          st' = (st.found body none (some c)).found body (newChunk "fmt " rest st.haveFmt) none ↔ _
        have hfound : ∀ fmt, (st.found body none (some c)).found body fmt none =
            st.found body fmt (some c) := by
          intro fmt
          cases fmt <;> rfl
        rw [hfound]
      · rw [if_neg hdata, if_neg hdata]
        exact ih

/-! ## Every read lies in the body -/

/-- A sample from the value of its bytes. -/
lemma toInt16_ofNat (low high : UInt8) :
    (UInt16.ofNat (low.toNat + 256 * (high.toNat + 256 * 0))).toInt16 =
      (low.toUInt16 ||| (high.toUInt16 <<< 8)).toInt16 := by
  have hlow := low.toNat_lt
  have hhigh := high.toNat_lt
  congr 1
  apply UInt16.toNat_inj.mp
  simp only [UInt16.toNat_or, UInt16.toNat_shiftLeft, UInt8.toNat_toUInt16, UInt16.reduceToNat,
    Nat.shiftLeft_eq, Nat.reduceMod]
  rw [UInt16.toNat_ofNat', Nat.mod_eq_of_lt (by omega), Nat.mod_eq_of_lt (by omega), Nat.or_comm,
    Nat.mul_comm high.toNat, ← Nat.two_pow_add_eq_or_of_lt hlow]
  omega

/-- The samples read one by one are those decoded at once. -/
lemma mapM_readU16le {data : ℕ} (n : ℕ) (h : data + 2 * n ≤ body.length) :
    ((List.range n).mapM fun i =>
        (readU16le body (data + i * 2)).map fun v => (UInt16.ofNat v).toInt16) =
      some (decodePcm16 (byteSlice body data (2 * n))) := by
  induction n generalizing data with
  | zero => rfl
  | succ n ih =>
    have hrest := ih (show data + 2 + 2 * n ≤ body.length by omega)
    have hshift : (fun i => (readU16le body (data + (i + 1) * 2)).map fun v => (UInt16.ofNat v).toInt16) =
        fun i => (readU16le body (data + 2 + i * 2)).map fun v => (UInt16.ofNat v).toInt16 := by
      funext i
      rw [show data + (i + 1) * 2 = data + 2 + i * 2 by omega]
    rw [List.range_succ_eq_map, List.mapM_cons, List.mapM_map]
    simp only [Function.comp_def, Nat.succ_eq_add_one]
    rw [hshift, hrest, show data + 0 * 2 = data by omega, readU16le_eq (by omega),
      show 2 * (n + 1) = 2 * n + 1 + 1 by omega, byteSlice_succ (by omega), byteSlice_succ (by omega),
      decodePcm16, ← toInt16_ofNat, u16le, byteSlice_succ (by omega), byteSlice_succ (by omega)]
    rfl

/-- The samples are read from the data. -/
lemma makeAudioRead_eq {data byteCount : ℕ} (h : data + byteCount ≤ body.length) :
    makeAudioRead body data byteCount = some (makeAudio (byteSlice body data byteCount)) := by
  rw [makeAudioRead, makeAudio, length_byteSlice h]
  by_cases hbad : byteCount = 0 ∨ byteCount % 2 ≠ 0
  · rw [if_pos hbad, if_pos hbad]
  · rw [if_neg hbad, if_neg hbad, mapM_readU16le _ (by omega), show 2 * (byteCount / 2) = byteCount by omega]
    rfl

/-- The locals of a successful walk come from chunks of the body. -/
lemma scanChunks_found {stop rounds : ℕ} {st : WavScan} (hlow : 12 ≤ stop)
    (hrounds : stop ≤ 12 + rounds) :
    scanChunks body stop rounds 12 {} = .ok st ↔
      ∃ chunks, RiffChunks body stop 12 chunks ∧ (∀ c ∈ firstChunk "fmt " chunks, 16 ≤ c.size) ∧
        st = WavScan.found body {} (firstChunk "fmt " chunks) (firstChunk "data" chunks) := by
  rw [scanChunks_ok_iff hlow hrounds]
  exact exists_congr fun chunks => and_congr_right fun _ => foldlM_chunk_iff

/-- The data found lies in the body. -/
lemma scanChunks_data_fits {stop rounds : ℕ} {st : WavScan} (hlow : 12 ≤ stop)
    (hstop : stop ≤ body.length) (hrounds : stop ≤ 12 + rounds)
    (h : scanChunks body stop rounds 12 {} = .ok st) : st.data + st.dataSize ≤ body.length := by
  obtain ⟨chunks, hchunks, -, rfl⟩ := (scanChunks_found hlow hrounds).mp h
  cases hdata : firstChunk "data" chunks with
  | none =>
    cases firstChunk "fmt " chunks with
    | none => exact Nat.zero_le _
    | some c => exact Nat.zero_le _
  | some c =>
    have hmem := hchunks.mem_le (List.mem_of_find?_eq_some hdata)
    exact le_trans hmem hstop

/-- The reader ends and reads no byte outside the body. -/
lemma parsePcm16WavRead_eq (body : List UInt8) :
    parsePcm16WavRead body = some (parsePcm16Wav body) := by
  rw [parsePcm16WavRead, parsePcm16Wav]
  by_cases hshort : body.length < 12
  · rw [if_pos hshort, if_pos (.inl hshort)]
  rw [if_neg hshort, readBytes_of_fits (by omega), readBytes_of_fits (by omega)]
  dsimp only [Option.bind_eq_bind, Option.bind_some]
  by_cases hids : byteSlice body 0 4 ≠ fourCC "RIFF" ∨ byteSlice body 8 4 ≠ fourCC "WAVE"
  · rw [if_pos hids, if_pos (.inr hids)]
  rw [if_neg hids, if_neg (not_or.mpr ⟨hshort, hids⟩), readU32le_eq (by omega)]
  dsimp only [Option.bind_some]
  change (if riffEnd body < 12 ∨ body.length < riffEnd body then _ else
    Option.bind (scanChunksRead body (riffEnd body) body.length 12 {}) _) = _
  by_cases hend : riffEnd body < 12 ∨ body.length < riffEnd body
  · rw [if_pos hend, if_pos hend]
  rw [if_neg hend, if_neg hend, scanChunksRead_eq (by omega) (by omega) (by omega)]
  dsimp only [Option.bind_some]
  cases hscan : scanChunks body (riffEnd body) body.length 12 {} with
  | error e => rfl
  | ok st =>
    have hfits := scanChunks_data_fits (by omega) (by omega) (by omega) hscan
    dsimp only
    split_ifs
    · rfl
    · rfl
    · rfl
    · exact makeAudioRead_eq hfits

/-! ## The grammar -/

/-- The first chunk with an identifier. -/
def FirstChunk (id : String) (chunks : List RiffChunk) (c : RiffChunk) : Prop :=
  ∃ before behind, chunks = before ++ c :: behind ∧ c.id = fourCC id ∧ ∀ c' ∈ before, c'.id ≠ fourCC id

/-- The WAV files of the server, with their first `fmt ` and `data` chunks. -/
structure WavGrammar (body : List UInt8) (chunks : List RiffChunk) (fmt data : RiffChunk) : Prop where
  header : 12 ≤ body.length
  riff : byteSlice body 0 4 = fourCC "RIFF"
  wave : byteSlice body 8 4 = fourCC "WAVE"
  stop : 12 ≤ u32le body 4 + 8 ∧ u32le body 4 + 8 ≤ body.length
  split : RiffChunks body (u32le body 4 + 8) 12 chunks
  isFmt : FirstChunk "fmt " chunks fmt
  isData : FirstChunk "data" chunks data
  fmtSize : 16 ≤ fmt.size
  audioFormat : u16le body fmt.offset = 1
  channels : u16le body (fmt.offset + 2) = 1
  sampleRate : u32le body (fmt.offset + 4) = 16000
  byteRate : u32le body (fmt.offset + 8) = 32000
  blockAlign : u16le body (fmt.offset + 12) = 2
  bitsPerSample : u16le body (fmt.offset + 14) = 16
  dataSize : 0 < data.size ∧ data.size % 2 = 0

/-- The search for the first chunk of a name finds just that. -/
lemma firstChunk_iff {id : String} {chunks : List RiffChunk} {c : RiffChunk} :
    firstChunk id chunks = some c ↔ FirstChunk id chunks c := by
  rw [firstChunk, List.find?_eq_some_iff_append]
  constructor
  · rintro ⟨hid, before, behind, hchunks, hbefore⟩
    exact ⟨before, behind, hchunks, by simpa using hid, by simpa using hbefore⟩
  · rintro ⟨before, behind, hchunks, hid, hbefore⟩
    exact ⟨by simpa using hid, before, behind, hchunks, by simpa using hbefore⟩

/-- The files accepted are those of the grammar, and the samples are those of the data. -/
lemma parsePcm16Wav_ok_iff {audio : AudioData} :
    parsePcm16Wav body = .ok audio ↔ ∃ chunks fmt data, WavGrammar body chunks fmt data ∧
      audio = ⟨decodePcm16 (byteSlice body data.offset data.size), data.size / 2 * 1000 / 16000⟩ := by
  constructor
  · intro h
    rw [parsePcm16Wav] at h
    split_ifs at h with hheader hend
    simp only [not_or, not_lt, ne_eq, not_not] at hheader
    cases hscan : scanChunks body (riffEnd body) body.length 12 {} with
    | error e =>
      rw [hscan] at h
      cases h
    | ok st =>
      rw [hscan] at h
      dsimp only at h
      split_ifs at h with hfound hpcm hformat
      obtain ⟨chunks, hchunks, hsize, rfl⟩ := (scanChunks_found (by omega) (by omega)).mp hscan
      cases hfmt : firstChunk "fmt " chunks with
      | none =>
        rw [hfmt] at hfound
        cases hdata : firstChunk "data" chunks with
        | none =>
          rw [hdata] at hfound
          exact absurd (.inl rfl) hfound
        | some data =>
          rw [hdata] at hfound
          exact absurd (.inl rfl) hfound
      | some fmt =>
        cases hdata : firstChunk "data" chunks with
        | none =>
          rw [hfmt, hdata] at hfound
          exact absurd (.inr rfl) hfound
        | some data =>
          rw [hfmt] at hsize
          rw [hfmt, hdata] at hpcm hformat h
          simp only [WavScan.found, not_or, ne_eq, not_not] at hpcm hformat
          change makeAudio (byteSlice body data.offset data.size) = .ok audio at h
          have hfits : data.offset + data.size ≤ body.length :=
            (hchunks.mem_le (List.mem_of_find?_eq_some hdata)).trans (by omega)
          rw [makeAudio, length_byteSlice hfits] at h
          split_ifs at h with hbad
          cases h
          rw [length_decodePcm16, length_byteSlice hfits]
          have hend' : 12 ≤ u32le body 4 + 8 ∧ u32le body 4 + 8 ≤ body.length := by
            unfold riffEnd at hend
            omega
          exact ⟨chunks, fmt, data, ⟨hheader.1, hheader.2.1, hheader.2.2, hend', hchunks,
            firstChunk_iff.mp hfmt, firstChunk_iff.mp hdata, hsize fmt rfl, hpcm, hformat.1,
            hformat.2.1, hformat.2.2.2.2, hformat.2.2.2.1, hformat.2.2.1, by omega⟩, rfl⟩
  · rintro ⟨chunks, fmt, data, h, rfl⟩
    have hfmt := firstChunk_iff.mpr h.isFmt
    have hdata := firstChunk_iff.mpr h.isData
    have hstop := h.stop
    have hpos := h.dataSize
    have hscan : scanChunks body (riffEnd body) body.length 12 {} =
        .ok (WavScan.found body {} (some fmt) (some data)) := by
      apply (scanChunks_found hstop.1 (by omega)).mpr
      refine ⟨chunks, h.split, ?_, by rw [hfmt, hdata]⟩
      intro c hc
      rw [hfmt] at hc
      obtain rfl := Option.some.inj hc
      exact h.fmtSize
    have hfits : data.offset + data.size ≤ body.length :=
      (h.split.mem_le (List.mem_of_find?_eq_some hdata)).trans hstop.2
    have hheader := h.header
    rw [parsePcm16Wav, if_neg (by rw [h.riff, h.wave]; simp; omega),
      if_neg (by unfold riffEnd; omega), hscan]
    dsimp only [WavScan.found]
    rw [if_neg (by simp), if_neg (not_not.mpr h.audioFormat), h.channels, h.sampleRate, h.byteRate,
      h.blockAlign, h.bitsPerSample, if_neg (by simp), makeAudio, length_byteSlice hfits,
      if_neg (by omega), length_decodePcm16, length_byteSlice hfits]

/-! ## Writing files -/

/-- The samples as little-endian bytes. -/
def encodePcm16 (samples : List Int16) : List UInt8 :=
  samples.flatMap fun sample => [sample.toUInt16.toUInt8, (sample.toUInt16 >>> (8 : UInt16)).toUInt8]

/-- The `fmt ` chunk of mono PCM with 16 bits at 16000 Hz. -/
def pcm16Fmt : List UInt8 :=
  leBytes 2 1 ++ leBytes 2 1 ++ leBytes 4 16000 ++ leBytes 4 32000 ++ leBytes 2 2 ++ leBytes 2 16

/-- The chunks of a file: a `fmt ` and a `data` chunk with others around them. -/
def wavChunks (before between behind : List (List UInt8 × List UInt8)) (samples : List Int16) :
    List (List UInt8 × List UInt8) :=
  before ++ (fourCC "fmt ", pcm16Fmt) :: (between ++ (fourCC "data", encodePcm16 samples) :: behind)

/-- A file of chunks (`make_wav`). -/
def makeWav (chunks : List (List UInt8 × List UInt8)) : List UInt8 :=
  fourCC "RIFF" ++ leBytes 4 ((chunksBytes chunks).length + 4) ++ fourCC "WAVE" ++ chunksBytes chunks

/-- Two bytes for each sample. -/
lemma length_encodePcm16 (samples : List Int16) : (encodePcm16 samples).length = 2 * samples.length := by
  induction samples with
  | nil => rfl
  | cons sample rest ih =>
    rw [encodePcm16, List.flatMap_cons, List.length_append]
    change 2 + (encodePcm16 rest).length = 2 * (rest.length + 1)
    omega

/-- Encoding and decoding samples. -/
lemma decodePcm16_encodePcm16 (samples : List Int16) : decodePcm16 (encodePcm16 samples) = samples := by
  induction samples with
  | nil => rfl
  | cons sample rest ih =>
    change (sample.toUInt16.toUInt8.toUInt16 |||
      ((sample.toUInt16 >>> (8 : UInt16)).toUInt8.toUInt16 <<< (8 : UInt16))).toInt16 ::
        decodePcm16 (encodePcm16 rest) = _
    have hbytes : sample.toUInt16.toUInt8.toUInt16 |||
        ((sample.toUInt16 >>> (8 : UInt16)).toUInt8.toUInt16 <<< (8 : UInt16)) = sample.toUInt16 := by
      have hlt := sample.toUInt16.toNat_lt
      have hhigh : sample.toUInt16.toNat / 2 ^ 8 % 2 ^ 8 * 2 ^ 8 % 2 ^ 16 =
          2 ^ 8 * (sample.toUInt16.toNat / 2 ^ 8) := by omega
      apply UInt16.toNat_inj.mp
      simp only [UInt16.toNat_or, UInt16.toNat_shiftLeft, UInt8.toNat_toUInt16, UInt16.toNat_toUInt8,
        UInt16.toNat_shiftRight, UInt16.reduceToNat, Nat.shiftLeft_eq, Nat.shiftRight_eq_div_pow,
        Nat.reduceMod]
      rw [hhigh, Nat.or_comm, ← Nat.two_pow_add_eq_or_of_lt (by omega)]
      omega
    rw [ih, hbytes]
    rfl

/-- Other chunks of a file: none of them is taken for the `fmt ` or the `data` chunk. -/
structure ExtraChunks (before between behind : List (List UInt8 × List UInt8)) : Prop where
  ids : ∀ chunk ∈ before ++ between ++ behind, chunk.1.length = 4
  before : ∀ chunk ∈ before, chunk.1 ≠ fourCC "fmt " ∧ chunk.1 ≠ fourCC "data"
  between : ∀ chunk ∈ between, chunk.1 ≠ fourCC "data"

section Written

variable {before between behind : List (List UInt8 × List UInt8)} {samples : List Int16}
  {trailing : List UInt8}

/-- The name of the format chunk has four bytes. -/
lemma length_fourCC_fmt : (fourCC "fmt ").length = 4 := by decide +kernel

/-- The name of the data chunk has four bytes. -/
lemma length_fourCC_data : (fourCC "data").length = 4 := by decide +kernel

/-- The magic of the container has four bytes. -/
lemma length_fourCC_riff : (fourCC "RIFF").length = 4 := by decide +kernel

/-- The name of the form has four bytes. -/
lemma length_fourCC_wave : (fourCC "WAVE").length = 4 := by decide +kernel

/-- Every chunk of a file that fits its size field can be written. -/
lemma wavChunks_fit (hextra : ExtraChunks before between behind)
    (hsize : (chunksBytes (wavChunks before between behind samples)).length < 2 ^ 32) :
    ∀ chunk ∈ wavChunks before between behind samples, ChunkFits chunk := by
  intro chunk hchunk
  have hpayload := length_le_chunksBytes hchunk
  refine ⟨?_, by omega⟩
  simp only [wavChunks, List.mem_append, List.mem_cons] at hchunk
  rcases hchunk with hchunk | rfl | hchunk | rfl | hchunk
  · exact hextra.ids chunk (by simp [hchunk])
  · exact length_fourCC_fmt
  · exact hextra.ids chunk (by simp [hchunk])
  · exact length_fourCC_data
  · exact hextra.ids chunk (by simp [hchunk])

variable (trailing) in
/-- A written file is of the grammar, whatever follows it. -/
lemma makeWav_grammar (hextra : ExtraChunks before between behind) (hsome : samples ≠ [])
    (hsize : (chunksBytes (wavChunks before between behind samples)).length + 4 < 2 ^ 32) :
    ∃ chunks fmt data,
      WavGrammar (makeWav (wavChunks before between behind samples) ++ trailing) chunks fmt data ∧
        data.size = 2 * samples.length ∧
        byteSlice (makeWav (wavChunks before between behind samples) ++ trailing) data.offset data.size =
          encodePcm16 samples := by
  obtain ⟨body, hbody⟩ : ∃ body, body = makeWav (wavChunks before between behind samples) ++ trailing :=
    ⟨_, rfl⟩
  rw [← hbody]
  have hfits := wavChunks_fit hextra (lt_of_le_of_lt (Nat.le_add_right _ 4) hsize)
  have hpos := List.length_pos_of_ne_nil hsome
  have hlength : body.length = 12 + (chunksBytes (wavChunks before between behind samples)).length +
      trailing.length := by
    rw [hbody, makeWav]
    simp only [List.length_append, length_leBytes, length_fourCC_riff, length_fourCC_wave]
  have hdrop : body.drop 12 = chunksBytes (wavChunks before between behind samples) ++ trailing := by
    rw [hbody, makeWav, List.append_assoc]
    apply List.drop_left'
    simp only [List.length_append, length_leBytes, length_fourCC_riff, length_fourCC_wave]
  have hriff : byteSlice body 0 4 = fourCC "RIFF" := by
    have hslice := byteSlice_append [] (fourCC "RIFF")
      (leBytes 4 ((chunksBytes (wavChunks before between behind samples)).length + 4) ++ fourCC "WAVE" ++
        chunksBytes (wavChunks before between behind samples) ++ trailing)
    rw [length_fourCC_riff] at hslice
    rw [hbody, makeWav]
    simp only [List.append_assoc, List.nil_append] at hslice ⊢
    exact hslice
  have hwave : byteSlice body 8 4 = fourCC "WAVE" := by
    have hslice := byteSlice_append
      (fourCC "RIFF" ++ leBytes 4 ((chunksBytes (wavChunks before between behind samples)).length + 4))
      (fourCC "WAVE") (chunksBytes (wavChunks before between behind samples) ++ trailing)
    rw [List.length_append, length_fourCC_riff, length_fourCC_wave, length_leBytes] at hslice
    rw [hbody, makeWav, List.append_assoc _ _ trailing]
    exact hslice
  have hriffSize : u32le body 4 = (chunksBytes (wavChunks before between behind samples)).length + 4 := by
    have hslice := byteSlice_append (fourCC "RIFF")
      (leBytes 4 ((chunksBytes (wavChunks before between behind samples)).length + 4))
      (fourCC "WAVE" ++ chunksBytes (wavChunks before between behind samples) ++ trailing)
    rw [length_fourCC_riff, length_leBytes] at hslice
    rw [hbody, makeWav, u32le]
    simp only [List.append_assoc] at hslice ⊢
    rw [hslice, leValue_leBytes hsize]
  have hsplit : RiffChunks body (u32le body 4 + 8) 12
      (layoutFrom 12 (wavChunks before between behind samples)) := by
    rw [hriffSize, show (chunksBytes (wavChunks before between behind samples)).length + 4 + 8 =
      12 + (chunksBytes (wavChunks before between behind samples)).length by omega]
    exact riffChunks_layoutFrom hfits hdrop
  have hfront : ∀ chunk ∈ before, ChunkFits chunk :=
    fun chunk hchunk => hfits chunk (List.mem_append_left _ hchunk)
  have hregroup : wavChunks before between behind samples =
      (before ++ (fourCC "fmt ", pcm16Fmt) :: between) ++ (fourCC "data", encodePcm16 samples) :: behind := by
    rw [wavChunks, List.append_assoc, List.cons_append]
  have hmiddle : ∀ chunk ∈ before ++ (fourCC "fmt ", pcm16Fmt) :: between, ChunkFits chunk :=
    fun chunk hchunk => hfits chunk (by rw [hregroup]; exact List.mem_append_left _ hchunk)
  obtain ⟨fmtAt, hfmtAt⟩ : ∃ at', at' = 12 + (chunksBytes before).length + 8 := ⟨_, rfl⟩
  obtain ⟨dataAt, hdataAt⟩ : ∃ at', at' =
    12 + (chunksBytes (before ++ (fourCC "fmt ", pcm16Fmt) :: between)).length + 8 := ⟨_, rfl⟩
  have hfmt : byteSlice body fmtAt 16 = pcm16Fmt := by
    rw [hfmtAt]
    exact byteSlice_payload length_fourCC_fmt hdrop
  have hdata : byteSlice body dataAt (encodePcm16 samples).length = encodePcm16 samples := by
    rw [hdataAt]
    rw [hregroup] at hdrop
    exact byteSlice_payload length_fourCC_data hdrop
  have hu16 : ∀ k, k + 2 ≤ 16 → u16le body (fmtAt + k) = u16le pcm16Fmt k := by
    intro k hk
    rw [u16le, ← byteSlice_byteSlice body hk, hfmt, u16le]
  have hu32 : ∀ k, k + 4 ≤ 16 → u32le body (fmtAt + k) = u32le pcm16Fmt k := by
    intro k hk
    rw [u32le, ← byteSlice_byteSlice body hk, hfmt, u32le]
  refine ⟨layoutFrom 12 (wavChunks before between behind samples), ⟨fourCC "fmt ", 16, fmtAt⟩,
    ⟨fourCC "data", (encodePcm16 samples).length, dataAt⟩, ?_, length_encodePcm16 samples, hdata⟩
  constructor
  · omega
  · exact hriff
  · exact hwave
  · omega
  · exact hsplit
  · obtain ⟨rest, hrest⟩ := layoutFrom_split 12 hfront (fourCC "fmt ", pcm16Fmt)
      (between ++ (fourCC "data", encodePcm16 samples) :: behind)
    refine ⟨layoutFrom 12 before, rest, ?_, rfl, ?_⟩
    · rw [wavChunks, hrest, ← hfmtAt]
      rfl
    · intro c hc
      obtain ⟨chunk, hmem, hid⟩ := mem_layoutFrom hc
      rw [hid]
      exact (hextra.before chunk hmem).1
  · obtain ⟨rest, hrest⟩ := layoutFrom_split 12 hmiddle (fourCC "data", encodePcm16 samples) behind
    refine ⟨layoutFrom 12 (before ++ (fourCC "fmt ", pcm16Fmt) :: between), rest, ?_, rfl, ?_⟩
    · rw [hregroup, hrest, ← hdataAt]
    · intro c hc
      obtain ⟨chunk, hmem, hid⟩ := mem_layoutFrom hc
      rw [hid]
      rcases List.mem_append.mp hmem with hmem | hmem
      · exact (hextra.before chunk hmem).2
      · rcases List.mem_cons.mp hmem with rfl | hmem
        · exact fun h => fourCC_data_ne_fmt h.symm
        · exact hextra.between chunk hmem
  · exact le_rfl
  · exact hu16 0 (by omega)
  · exact hu16 2 (by omega)
  · exact hu32 4 (by omega)
  · exact hu32 8 (by omega)
  · exact hu16 12 (by omega)
  · exact hu16 14 (by omega)
  · dsimp only
    rw [length_encodePcm16]
    omega

end Written

/-- **`parse_pcm16_wav` accepts exactly its grammar.**  It ends on every body and reads no byte outside it; it
succeeds exactly on the files of the grammar and returns the samples of the first `data` chunk; and it gives
back the samples of every written file, whatever other chunks there are and whatever follows the file. -/
theorem parse_pcm16_wav_exact :
    (∀ body, parsePcm16WavRead body = some (parsePcm16Wav body)) ∧
    (∀ body audio, parsePcm16Wav body = .ok audio ↔ ∃ chunks fmt data, WavGrammar body chunks fmt data ∧
      audio = ⟨decodePcm16 (byteSlice body data.offset data.size), data.size / 2 * 1000 / 16000⟩) ∧
    ∀ before between behind samples trailing, ExtraChunks before between behind → samples ≠ [] →
      (chunksBytes (wavChunks before between behind samples)).length + 4 < 2 ^ 32 →
      parsePcm16Wav (makeWav (wavChunks before between behind samples) ++ trailing) =
        .ok ⟨samples, samples.length * 1000 / 16000⟩ := by
  refine ⟨parsePcm16WavRead_eq, fun body audio => parsePcm16Wav_ok_iff, ?_⟩
  intro before between behind samples trailing hextra hsome hsize
  obtain ⟨chunks, fmt, data, hgrammar, hdataSize, hpayload⟩ :=
    makeWav_grammar trailing hextra hsome hsize
  apply parsePcm16Wav_ok_iff.mpr
  refine ⟨chunks, fmt, data, hgrammar, ?_⟩
  rw [hpayload, decodePcm16_encodePcm16, hdataSize, Nat.mul_div_cancel_left _ (by omega)]

/-- Two samples behind an unknown chunk with a padding byte: they are read within the file, which is of the
grammar. -/
theorem parse_pcm16_wav_exact_junk :
    let body := makeWav (wavChunks [(fourCC "JUNK", [97, 98, 99])] [] [] [4660, -292]) ++ []
    parsePcm16WavRead body = some (.ok ⟨[4660, -292], 0⟩) ∧
      ∃ chunks fmt data, WavGrammar body chunks fmt data := by
  intro body
  obtain ⟨hreads, haccepts, hwritten⟩ := parse_pcm16_wav_exact
  have hparse : parsePcm16Wav body = .ok ⟨[4660, -292], 0⟩ :=
    hwritten [(fourCC "JUNK", [97, 98, 99])] [] [] [4660, -292] []
      ⟨by decide +kernel, by decide +kernel, by decide⟩ (by decide) (by decide +kernel)
  obtain ⟨chunks, fmt, data, hgrammar, -⟩ := (haccepts body _).mp hparse
  exact ⟨by rw [hreads, hparse], chunks, fmt, data, hgrammar⟩

/-- The encoding of no samples is rejected. -/
theorem parse_pcm16_wav_empty :
    ¬ ∀ before between behind samples, ExtraChunks before between behind →
      (chunksBytes (wavChunks before between behind samples)).length + 4 < 2 ^ 32 →
      parsePcm16Wav (makeWav (wavChunks before between behind samples)) =
        .ok ⟨samples, samples.length * 1000 / 16000⟩ := by
  intro h
  have hempty := h [] [] [] [] ⟨by decide, by decide, by decide⟩ (by decide +kernel)
  have hrejected : parsePcm16Wav (makeWav (wavChunks [] [] [] [])) =
      .error ("invalid_argument", "PCM audio must contain a non-zero even number of bytes.") := by
    decide +kernel
  rw [hrejected] at hempty
  cases hempty

end Voxtral
