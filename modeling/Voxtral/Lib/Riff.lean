import Mathlib.Data.List.Basic
import Mathlib.Tactic.Linarith

/-!
# RIFF chunks

A RIFF file is a sequence of chunks, each a four-byte identifier, a little-endian size, the payload and, when
the size is odd, a padding byte.  `RiffChunks` is the relation between a byte string and the chunks from an
offset to the end of the RIFF data, whatever is done with them.
-/

namespace Voxtral

/-- The value of little-endian bytes. -/
def leValue : List UInt8 → ℕ
  | [] => 0
  | b :: rest => b.toNat + 256 * leValue rest

/-- The `width` little-endian bytes of a value; what does not fit is dropped. -/
def leBytes : ℕ → ℕ → List UInt8
  | 0, _ => []
  | width + 1, value => UInt8.ofNat (value % 256) :: leBytes width (value / 256)

/-- A number takes as many bytes as its width. -/
@[simp] lemma length_leBytes (width value : ℕ) : (leBytes width value).length = width := by
  induction width generalizing value with
  | zero => rfl
  | succ width ih => rw [leBytes, List.length_cons, ih]

/-- A value that fits is read back. -/
lemma leValue_leBytes {width value : ℕ} (h : value < 256 ^ width) :
    leValue (leBytes width value) = value := by
  induction width generalizing value with
  | zero =>
    rw [pow_zero] at h
    exact (Nat.lt_one_iff.mp h).symm
  | succ width ih =>
    rw [pow_succ] at h
    have hrest : value / 256 < 256 ^ width := by omega
    rw [leBytes, leValue, ih hrest, UInt8.toNat_ofNat', Nat.mod_mod]
    omega

/-- The bytes `[offset, offset + n)`, as far as there are any. -/
def byteSlice (body : List UInt8) (offset n : ℕ) : List UInt8 := (body.drop offset).take n

/-- The unsigned 16-bit value at an offset. -/
def u16le (body : List UInt8) (offset : ℕ) : ℕ := leValue (byteSlice body offset 2)

/-- The unsigned 32-bit value at an offset. -/
def u32le (body : List UInt8) (offset : ℕ) : ℕ := leValue (byteSlice body offset 4)

/-- A chunk: its identifier, the size of its payload and where the payload starts. -/
structure RiffChunk where
  id : List UInt8
  size : ℕ
  offset : ℕ
  deriving DecidableEq

/-- The chunks from an offset to the end `stop` of the RIFF data, padding included. -/
inductive RiffChunks (body : List UInt8) (stop : ℕ) : ℕ → List RiffChunk → Prop
  | nil : RiffChunks body stop stop []
  | cons {offset : ℕ} {chunk : RiffChunk} {rest : List RiffChunk}
      (hid : chunk.id = byteSlice body offset 4) (hsize : chunk.size = u32le body (offset + 4))
      (hoffset : chunk.offset = offset + 8)
      (hfits : chunk.offset + chunk.size + chunk.size % 2 ≤ stop)
      (hrest : RiffChunks body stop (chunk.offset + chunk.size + chunk.size % 2) rest) :
      RiffChunks body stop offset (chunk :: rest)

variable {body : List UInt8} {stop offset : ℕ} {chunks : List RiffChunk}

/-- A slice within the bytes has its length. -/
lemma length_byteSlice {n : ℕ} (h : offset + n ≤ body.length) :
    (byteSlice body offset n).length = n := by
  unfold byteSlice
  rw [List.length_take, List.length_drop]
  omega

/-- The chunks start and end within the RIFF data, and every one takes its header's eight bytes. -/
lemma RiffChunks.length_le (h : RiffChunks body stop offset chunks) :
    offset + 8 * chunks.length ≤ stop := by
  induction h with
  | nil => simp
  | cons hid hsize hoffset hfits hrest ih =>
    rw [List.length_cons]
    omega

/-- The first chunk is what stands at the offset. -/
lemma RiffChunks.cons_inv {chunk : RiffChunk} (h : RiffChunks body stop offset (chunk :: chunks)) :
    chunk.id = byteSlice body offset 4 ∧ chunk.size = u32le body (offset + 4) ∧
      chunk.offset = offset + 8 ∧ chunk.offset + chunk.size + chunk.size % 2 ≤ stop ∧
      RiffChunks body stop (chunk.offset + chunk.size + chunk.size % 2) chunks := by
  cases h with
  | cons hid hsize hoffset hfits hrest => exact ⟨hid, hsize, hoffset, hfits, hrest⟩

/-- Every payload is within the RIFF data. -/
lemma RiffChunks.mem_le (h : RiffChunks body stop offset chunks) {chunk : RiffChunk}
    (hmem : chunk ∈ chunks) : chunk.offset + chunk.size ≤ stop := by
  induction h with
  | nil => cases hmem
  | cons hid hsize hoffset hfits hrest ih =>
    rcases List.mem_cons.mp hmem with rfl | hmem
    · omega
    · exact ih hmem

/-- Without chunks the RIFF data has ended. -/
lemma RiffChunks.nil_inv (h : RiffChunks body stop offset []) : offset = stop := by
  cases h
  rfl

/-- Past the bytes that a slice starts at. -/
lemma byteSlice_add (body : List UInt8) (offset k n : ℕ) :
    byteSlice body (offset + k) n = byteSlice (body.drop offset) k n := by
  unfold byteSlice
  rw [List.drop_drop]

/-- The bytes between two parts. -/
lemma byteSlice_append (l m r : List UInt8) : byteSlice (l ++ m ++ r) l.length m.length = m := by
  unfold byteSlice
  rw [List.append_assoc, List.drop_left, List.take_left]

/-! ## Writing -/

/-- The bytes of a chunk, from its identifier and payload. -/
def chunkBytes (chunk : List UInt8 × List UInt8) : List UInt8 :=
  chunk.1 ++ leBytes 4 chunk.2.length ++ chunk.2 ++ List.replicate (chunk.2.length % 2) 0

/-- The bytes of chunks, one behind the other. -/
def chunksBytes (chunks : List (List UInt8 × List UInt8)) : List UInt8 := chunks.flatMap chunkBytes

/-- The bytes of the first chunk come first. -/
lemma chunksBytes_cons (chunk : List UInt8 × List UInt8) (rest : List (List UInt8 × List UInt8)) :
    chunksBytes (chunk :: rest) = chunkBytes chunk ++ chunksBytes rest := List.flatMap_cons

/-- The bytes of chunks behind chunks. -/
lemma chunksBytes_append (chunks rest : List (List UInt8 × List UInt8)) :
    chunksBytes (chunks ++ rest) = chunksBytes chunks ++ chunksBytes rest := List.flatMap_append

/-- Where chunks lie that are written from an offset on. -/
def layoutFrom (offset : ℕ) : List (List UInt8 × List UInt8) → List RiffChunk
  | [] => []
  | chunk :: rest =>
    ⟨chunk.1, chunk.2.length, offset + 8⟩ ::
      layoutFrom (offset + 8 + chunk.2.length + chunk.2.length % 2) rest

/-- A chunk can be written: its identifier has four bytes, and its size fits the size field. -/
def ChunkFits (chunk : List UInt8 × List UInt8) : Prop :=
  chunk.1.length = 4 ∧ chunk.2.length < 2 ^ 32

/-- A chunk takes its header, its payload and the padding byte of an odd one. -/
lemma length_chunkBytes {chunk : List UInt8 × List UInt8} (h : ChunkFits chunk) :
    (chunkBytes chunk).length = 8 + chunk.2.length + chunk.2.length % 2 := by
  simp only [chunkBytes, List.length_append, List.length_replicate, length_leBytes, h.1]

/-- The chunks read from an offset are those written there. -/
lemma riffChunks_layoutFrom {chunks : List (List UInt8 × List UInt8)} {tail : List UInt8}
    (hfits : ∀ chunk ∈ chunks, ChunkFits chunk)
    (hbody : body.drop offset = chunksBytes chunks ++ tail) :
    RiffChunks body (offset + (chunksBytes chunks).length) offset (layoutFrom offset chunks) := by
  induction chunks generalizing offset with
  | nil => exact .nil
  | cons chunk rest ih =>
    have hchunk := hfits chunk List.mem_cons_self
    have hlength := length_chunkBytes hchunk
    have hall : (chunksBytes (chunk :: rest)).length =
        8 + chunk.2.length + chunk.2.length % 2 + (chunksBytes rest).length := by
      rw [chunksBytes_cons, List.length_append, hlength]
    have hsplit : body.drop offset = chunkBytes chunk ++ (chunksBytes rest ++ tail) := by
      rw [hbody, chunksBytes_cons, List.append_assoc]
    have hhere : ∀ k n, byteSlice body (offset + k) n =
        byteSlice (chunkBytes chunk ++ (chunksBytes rest ++ tail)) k n := by
      intro k n
      rw [byteSlice_add, hsplit]
    rw [layoutFrom]
    apply RiffChunks.cons
    · change chunk.1 = byteSlice body (offset + 0) 4
      rw [hhere, chunkBytes, byteSlice, List.drop_zero, List.append_assoc, List.append_assoc,
        List.append_assoc, List.take_left' hchunk.1]
    · change chunk.2.length = leValue (byteSlice body (offset + 4) 4)
      have hsize := byteSlice_append chunk.1 (leBytes 4 chunk.2.length)
        (chunk.2 ++ List.replicate (chunk.2.length % 2) 0 ++ (chunksBytes rest ++ tail))
      rw [hchunk.1, length_leBytes] at hsize
      rw [hhere, chunkBytes]
      simp only [List.append_assoc] at hsize ⊢
      rw [hsize, leValue_leBytes hchunk.2]
    · rfl
    · change offset + 8 + chunk.2.length + chunk.2.length % 2 ≤ _
      omega
    · change RiffChunks body _ (offset + 8 + chunk.2.length + chunk.2.length % 2) _
      rw [hall, show offset + (8 + chunk.2.length + chunk.2.length % 2 + (chunksBytes rest).length) =
        offset + 8 + chunk.2.length + chunk.2.length % 2 + (chunksBytes rest).length by omega]
      apply ih (fun c hc => hfits c (List.mem_cons_of_mem chunk hc))
      rw [show offset + 8 + chunk.2.length + chunk.2.length % 2 = offset + (chunkBytes chunk).length by
        omega, ← List.drop_drop, hsplit, List.drop_left]

/-- Chunks written behind others. -/
lemma layoutFrom_append {chunks : List (List UInt8 × List UInt8)} (hfits : ∀ chunk ∈ chunks, ChunkFits chunk)
    (rest : List (List UInt8 × List UInt8)) :
    layoutFrom offset (chunks ++ rest) =
      layoutFrom offset chunks ++ layoutFrom (offset + (chunksBytes chunks).length) rest := by
  induction chunks generalizing offset with
  | nil => rfl
  | cons chunk chunks ih =>
    have hlength := length_chunkBytes (hfits chunk List.mem_cons_self)
    rw [List.cons_append, layoutFrom, layoutFrom, ih (fun c hc => hfits c (List.mem_cons_of_mem chunk hc)),
      List.cons_append, chunksBytes_cons, List.length_append, hlength]
    simp only [Nat.add_assoc]

variable (offset) in
/-- A chunk written behind others is read behind them. -/
lemma layoutFrom_split {chunks : List (List UInt8 × List UInt8)} (hfits : ∀ chunk ∈ chunks, ChunkFits chunk)
    (chunk : List UInt8 × List UInt8) (rest : List (List UInt8 × List UInt8)) :
    ∃ behind, layoutFrom offset (chunks ++ chunk :: rest) = layoutFrom offset chunks ++
      ⟨chunk.1, chunk.2.length, offset + (chunksBytes chunks).length + 8⟩ :: behind := by
  rw [layoutFrom_append hfits, layoutFrom]
  exact ⟨_, rfl⟩

/-- The chunks read have the identifiers written. -/
lemma mem_layoutFrom {chunks : List (List UInt8 × List UInt8)} {c : RiffChunk}
    (h : c ∈ layoutFrom offset chunks) : ∃ chunk ∈ chunks, c.id = chunk.1 := by
  induction chunks generalizing offset with
  | nil => cases h
  | cons chunk rest ih =>
    rcases List.mem_cons.mp h with rfl | h
    · exact ⟨chunk, List.mem_cons_self, rfl⟩
    · obtain ⟨chunk', hmem, hid⟩ := ih h
      exact ⟨chunk', List.mem_cons_of_mem chunk hmem, hid⟩

/-- No payload is longer than the chunks. -/
lemma length_le_chunksBytes {chunks : List (List UInt8 × List UInt8)} {chunk : List UInt8 × List UInt8}
    (h : chunk ∈ chunks) : chunk.2.length ≤ (chunksBytes chunks).length := by
  have hsub := List.sublist_flatten_of_mem (List.mem_map_of_mem (f := chunkBytes) h)
  have hchunk := hsub.length_le
  rw [← List.flatMap_def] at hchunk
  refine le_trans ?_ hchunk
  simp only [chunkBytes, List.length_append]
  omega

/-- A slice of a slice. -/
lemma byteSlice_byteSlice (body : List UInt8) {n k m : ℕ} (h : k + m ≤ n) :
    byteSlice (byteSlice body offset n) k m = byteSlice body (offset + k) m := by
  unfold byteSlice
  rw [List.drop_take, List.take_take, List.drop_drop, min_eq_left (by omega)]

/-- A payload stands where its chunk says. -/
lemma byteSlice_payload {chunks rest : List (List UInt8 × List UInt8)} {chunk : List UInt8 × List UInt8}
    {tail : List UInt8} (hid : chunk.1.length = 4)
    (hbody : body.drop offset = chunksBytes (chunks ++ chunk :: rest) ++ tail) :
    byteSlice body (offset + (chunksBytes chunks).length + 8) chunk.2.length = chunk.2 := by
  have hpayload := byteSlice_append (chunksBytes chunks ++ (chunk.1 ++ leBytes 4 chunk.2.length)) chunk.2
    (List.replicate (chunk.2.length % 2) 0 ++ (chunksBytes rest ++ tail))
  rw [List.length_append, List.length_append, hid, length_leBytes] at hpayload
  rw [chunksBytes_append, chunksBytes_cons, chunkBytes] at hbody
  rw [Nat.add_assoc, byteSlice_add, hbody]
  simp only [List.append_assoc] at hpayload ⊢
  exact hpayload

end Voxtral
