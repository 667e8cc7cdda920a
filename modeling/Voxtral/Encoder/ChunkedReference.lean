import Mathlib.Data.List.Range
import Mathlib.Data.List.Nodup
import Mathlib.Tactic.Ring
import Voxtral.Encoder.ConvDims

/-!
# The chunked encoder and its streaming replay

`run_encoder_chunked` runs overlapping chunks of 3000 Mel frames and keeps what each adds to the one
before.  The reference strategy of the encoder stream runs the same chunks while the Mel frames arrive:
the first one on growing prefixes, the later ones when they are complete, and the last one, however short,
at the end.

A frame of a chunk is an arbitrary function of the Mel frames it can see.  Frames carry the number of
their chunk, their index in the output of the chunk and their RoPE offset, so that equal lists of frames
are equal in all of these.
-/

namespace Voxtral

namespace Chunked

/-- `VOXTRAL_ENC_CHUNK_MEL`. -/
@[simp] def encChunkMel : ℕ := 3000

/-- `VOXTRAL_ENC_CHUNK_OVERLAP`. -/
@[simp] def encChunkOverlap : ℕ := 750

/-- `VOXTRAL_ENC_MEL_STRIDE`. -/
@[simp] def encMelStride : ℕ := encChunkMel - 2 * encChunkOverlap

/-- `VOXTRAL_ENC_STREAM_EMIT_MEL`. -/
@[simp] def encStreamEmitMel : ℕ := 256

variable {φ ε : Type*}

/-- The transformer on a chunk: what a frame becomes, from the frames cut off on the left, the offset of
the RoPE positions, and the Mel frames of the chunk up to the last one the frame can see. -/
structure ChunkEncoder (φ ε : Type*) where
  frame : ℕ → ℤ → List φ → ε

/-- A frame of `encoder_chunk_output`. -/
structure ChunkFrame (ε : Type*) where
  ropeOffset : ℤ
  index : ℕ
  value : ε
  deriving DecidableEq

/-- The output of `run_encoder_chunk`.  The graph cuts the frames behind the convolutions to a multiple of
the downsample factor, on the left. -/
def runEncoderChunk (enc : ChunkEncoder φ ε) (chunkMel : List φ) (ropeOffset : ℤ) :
    List (ChunkFrame ε) :=
  let convLen := (convOutLen chunkMel.length).toNat
  let trunc := convLen % downsampleFactor
  (List.range (convLen - trunc)).map fun l =>
    ⟨ropeOffset, l, enc.frame trunc ropeOffset (chunkMel.take (2 * (l + trunc) + 2))⟩

/-- The encoder frames a chunk repeats from the one before. -/
def chunkSkip (chunk : ℕ) : ℕ := if chunk = 0 then 0 else encChunkOverlap

/-! ## The whole Mel at once -/

/-- The loop of `compute_total_enc_tokens`, behind `fuel` iterations. -/
def computeTotalLoop (totalMelFrames : ℕ) : ℕ → ℕ → ℤ → Bool → Option ℤ
  | 0, _, _, _ => none
  | fuel + 1, melOffset, total, first =>
    if totalMelFrames ≤ melOffset then some total
    else
      let chunkMel := min encChunkMel (totalMelFrames - melOffset)
      let skip : ℤ := if first then 0 else encChunkOverlap
      let stride := melFramesToEncTokens chunkMel - skip
      if stride ≤ 0 then some total
      else computeTotalLoop totalMelFrames fuel (melOffset + encMelStride) (total + stride) false

/-- `compute_total_enc_tokens`. -/
def computeTotalEncTokens (totalMelFrames : ℕ) : Option ℤ :=
  computeTotalLoop totalMelFrames (totalMelFrames + 1) 0 0 true

/-- The variables of the loop of `run_encoder_chunked`, and whether it has met the end of the buffer. -/
structure ChunkedState (ε : Type*) where
  melOffset : ℕ := 0
  encWriteOffset : ℤ := 0
  chunkIdx : ℕ := 0
  encoderOutput : List (ℕ × ChunkFrame ε) := []
  clamped : Bool := false

/-- The loop of `run_encoder_chunked`, behind `fuel` iterations; `fails` tells which chunks find no room
for their graph. -/
def chunkedLoop (enc : ChunkEncoder φ ε) (fails : ℕ → Bool) (mel : List φ) (allocTotal : ℤ) :
    ℕ → ChunkedState ε → Option (ChunkedState ε × Bool)
  | 0, _ => none
  | fuel + 1, b =>
    if mel.length ≤ b.melOffset then some (b, true)
    else
      let chunkMelFrames := min encChunkMel (mel.length - b.melOffset)
      let skip := if 0 < b.chunkIdx then encChunkOverlap else 0
      if melFramesToEncTokens chunkMelFrames - skip ≤ 0 then some (b, true)
      else
        let ropeOffset := b.encWriteOffset - skip
        if fails b.chunkIdx then some (b, false)
        else
          let out := runEncoderChunk enc ((mel.drop b.melOffset).take chunkMelFrames) ropeOffset
          let stride : ℤ := out.length - skip
          if stride ≤ 0 then some (b, true)
          else
            let clamp := decide (allocTotal < b.encWriteOffset + stride)
            let stride := if clamp then allocTotal - b.encWriteOffset else stride
            if clamp ∧ stride ≤ 0 then some ({ b with clamped := true }, true)
            else
              chunkedLoop enc fails mel allocTotal fuel
                { melOffset := b.melOffset + encMelStride
                  encWriteOffset := b.encWriteOffset + stride
                  chunkIdx := b.chunkIdx + 1
                  encoderOutput := b.encoderOutput ++
                    ((out.drop skip).take stride.toNat).map (Prod.mk b.chunkIdx)
                  clamped := b.clamped || clamp }

/-- `run_encoder_chunked`; `allocated` tells whether the output buffer is. -/
def runEncoderChunked (enc : ChunkEncoder φ ε) (fails : ℕ → Bool) (allocated : Bool) (mel : List φ) :
    Option (ChunkedState ε × Bool) :=
  (computeTotalEncTokens mel.length).bind fun allocTotal =>
    if allocTotal ≤ 0 then some ({}, false)
    else if !allocated then some ({}, false)
    else chunkedLoop enc fails mel allocTotal (mel.length + 1) {}

/-! ## Mel frames as they arrive -/

/-- `voxtral_encoder_stream` with the reference strategy. -/
structure EncoderStream (φ ε : Type*) where
  melWindow : List φ := []
  windowBase : ℕ := 0
  stableMel : ℕ := 0
  curChunk : ℕ := 0
  emitted : ℕ := 0
  lastRunMelEnd : ℕ := 0
  finalized : Bool := false
  encAccum : List (ℕ × ChunkFrame ε) := []
  encoderExecutions : ℕ := 0

/-- `encoder_stream_run_chunk`. -/
def encoderStreamRunChunk (enc : ChunkEncoder φ ε) (fails : ℕ → Bool) (es : EncoderStream φ ε)
    (runLen : ℕ) : EncoderStream φ ε × Bool :=
  let lc := es.curChunk * encMelStride
  let r0 : ℤ := lc - es.windowBase
  if r0 < 0 ∨ (es.melWindow.length : ℤ) < r0 + runLen then (es, false)
  else
    let ropeOffset : ℤ := es.curChunk * encChunkOverlap
    if fails es.encoderExecutions then (es, false)
    else
      let out := runEncoderChunk enc ((es.melWindow.drop r0.toNat).take runLen) ropeOffset
      let es := { es with
        encoderExecutions := es.encoderExecutions + 1
        lastRunMelEnd := lc + runLen }
      let srcLocalStart := max (chunkSkip es.curChunk) (es.emitted - es.curChunk * encChunkOverlap)
      if srcLocalStart < out.length then
        ({ es with
          encAccum := es.encAccum ++ (out.drop srcLocalStart).map (Prod.mk es.curChunk)
          emitted := es.curChunk * encChunkOverlap + out.length }, true)
      else (es, true)

/-- The length of the next run of `encoder_stream_drive`, and whether it completes its chunk. -/
def nextRun (final : Bool) (es : EncoderStream φ ε) : Option (ℕ × Bool) :=
  let avail := es.stableMel - es.curChunk * encMelStride
  if encChunkMel ≤ avail then some (encChunkMel, true)
  else if final then some (avail, false)
  else if es.curChunk ≠ 0 then none
  else
    let m8 := avail / 8 * 8
    if m8 = 0 then none
    else
      let need := max encStreamEmitMel (es.lastRunMelEnd / 2)
      if (m8 : ℤ) - es.lastRunMelEnd < need then none else some (m8, false)

/-- The next chunk, with the window moved to its first Mel frame. -/
def nextChunk (es : EncoderStream φ ε) : EncoderStream φ ε :=
  let newBase := (es.curChunk + 1) * encMelStride
  if es.windowBase < newBase then
    { es with
      curChunk := es.curChunk + 1
      melWindow := es.melWindow.drop (newBase - es.windowBase)
      windowBase := newBase }
  else { es with curChunk := es.curChunk + 1 }

/-- The loop of `encoder_stream_drive`, behind `fuel` iterations. -/
def encoderStreamDriveLoop (enc : ChunkEncoder φ ε) (fails : ℕ → Bool) (final : Bool) :
    ℕ → EncoderStream φ ε → Option (EncoderStream φ ε × Bool)
  | 0, _ => none
  | fuel + 1, es =>
    if es.stableMel ≤ es.curChunk * encMelStride then some (es, true)
    else
      match nextRun final es with
      | none => some (es, true)
      | some (runLen, advance) =>
        if melFramesToEncTokens runLen - chunkSkip es.curChunk ≤ 0 then some (es, true)
        else
          let r := encoderStreamRunChunk enc fails es runLen
          if r.2 = false then some (r.1, false)
          else if advance then encoderStreamDriveLoop enc fails final fuel (nextChunk r.1)
          else some (r.1, true)

/-- `encoder_stream_drive`. -/
def encoderStreamDrive (enc : ChunkEncoder φ ε) (fails : ℕ → Bool) (final : Bool)
    (es : EncoderStream φ ε) : Option (EncoderStream φ ε × Bool) :=
  encoderStreamDriveLoop enc fails final (es.stableMel + 1) es

/-- A call on the encoder stream, with the absolute position of its frames. -/
inductive EncoderCall (φ : Type*)
  | pushMel (frames : List φ) (baseFrame : ℕ)
  | pushMelFinal (frames : List φ) (baseFrame : ℕ)
  | finish

/-- `voxtral_encoder_stream_push_mel`, or `voxtral_encoder_stream_push_mel_final`, without a KV runtime. -/
def encoderStreamPush (enc : ChunkEncoder φ ε) (fails : ℕ → Bool) (final : Bool)
    (es : EncoderStream φ ε) (frames : List φ) (baseFrame : ℕ) :
    Option (EncoderStream φ ε × Bool) :=
  if es.finalized then some (es, false)
  else if frames = [] then some (es, true)
  else if baseFrame ≠ es.stableMel then some (es, false)
  else
    encoderStreamDrive enc fails final { es with
      melWindow := es.melWindow ++ frames
      stableMel := es.stableMel + frames.length }

/-- `voxtral_encoder_stream_finish` without a KV runtime. -/
def encoderStreamFinish (enc : ChunkEncoder φ ε) (fails : ℕ → Bool) (es : EncoderStream φ ε) :
    Option (EncoderStream φ ε × Bool) :=
  if es.finalized then some (es, true)
  else
    (encoderStreamDrive enc fails true es).map fun r =>
      ({ r.1 with finalized := true, melWindow := [], windowBase := r.1.stableMel }, r.2)

/-- Answer one call. -/
def encoderCall (enc : ChunkEncoder φ ε) (fails : ℕ → Bool) (es : EncoderStream φ ε) :
    EncoderCall φ → Option (EncoderStream φ ε × Bool)
  | .pushMel frames baseFrame => encoderStreamPush enc fails false es frames baseFrame
  | .pushMelFinal frames baseFrame => encoderStreamPush enc fails true es frames baseFrame
  | .finish => encoderStreamFinish enc fails es

/-- Calls in a row; the caller stops at the first that fails. -/
def runCalls (enc : ChunkEncoder φ ε) (fails : ℕ → Bool) :
    EncoderStream φ ε → List (EncoderCall φ) → Option (EncoderStream φ ε × Bool)
  | es, [] => some (es, true)
  | es, call :: calls =>
    (encoderCall enc fails es call).bind fun r =>
      if r.2 then runCalls enc fails r.1 calls else some r

/-- The calls that hand over Mel frames in parts, from `baseFrame` on, the last part at the end. -/
def partitionCalls (last : List φ) : ℕ → List (List φ) → List (EncoderCall φ)
  | baseFrame, [] => [.pushMelFinal last baseFrame, .finish]
  | baseFrame, part :: parts => .pushMel part baseFrame :: partitionCalls last (baseFrame + part.length) parts

/-! ## Frames of a chunk -/

/-- The frames `n` Mel frames make. -/
def chunkTokens (n : ℕ) : ℕ := 4 * ((n + 1) / 8)

/-- The frames cut off on the left. -/
def chunkTrunc (n : ℕ) : ℕ := (n + 1) / 2 % 4

/-- A frame of a chunk of the whole Mel. -/
def frameOf (enc : ChunkEncoder φ ε) (mel : List φ) (c trunc l : ℕ) : ℕ × ChunkFrame ε :=
  (c, ⟨c * encChunkOverlap, l,
    enc.frame trunc (c * encChunkOverlap) ((mel.drop (c * encMelStride)).take (2 * (l + trunc) + 2))⟩)

/-- The frames from `a` on and before `b`. -/
def rows (enc : ChunkEncoder φ ε) (mel : List φ) (c trunc a b : ℕ) : List (ℕ × ChunkFrame ε) :=
  (List.range' a (b - a)).map (frameOf enc mel c trunc)

variable {enc : ChunkEncoder φ ε} {fails : ℕ → Bool} {mel : List φ} {es : EncoderStream φ ε}

/-- An empty range has no rows. -/
@[simp] lemma rows_of_le {c trunc a b : ℕ} (h : b ≤ a) : rows enc mel c trunc a b = [] := by
  rw [rows, Nat.sub_eq_zero_of_le h]
  rfl

/-- The rows of two adjoining ranges of a chunk. -/
lemma rows_append {c trunc a b d : ℕ} (hab : a ≤ b) (hbd : b ≤ d) :
    rows enc mel c trunc a b ++ rows enc mel c trunc b d = rows enc mel c trunc a d := by
  rw [rows, rows, rows, ← List.map_append]
  congr 1
  have hjoin := List.range'_append_1 (s := a) (m := b - a) (n := d - b)
  rw [show a + (b - a) = b by omega, show b - a + (d - b) = d - a by omega] at hjoin
  exact hjoin

/-- A range has a row for each position. -/
@[simp] lemma length_rows (c trunc a b : ℕ) : (rows enc mel c trunc a b).length = b - a := by
  rw [rows, List.length_map, List.length_range']

/-- Frames that see no more than the Mel at hand stay as they are. -/
lemma rows_extend {c trunc a b : ℕ} (more : List φ)
    (h : c * encMelStride + 2 * (b + trunc) ≤ mel.length) :
    rows enc (mel ++ more) c trunc a b = rows enc mel c trunc a b := by
  unfold rows
  refine List.map_congr_left fun l hl => ?_
  have hlt : l < b := by
    have hmem := List.mem_range'_1.mp hl
    omega
  unfold frameOf
  rw [List.drop_append_of_le_length (by omega), List.take_append_of_le_length]
  rw [List.length_drop]
  omega

/-- A run of the encoder has a row for every token of its chunk. -/
lemma length_runEncoderChunk (chunkMel : List φ) (ropeOffset : ℤ) :
    (runEncoderChunk enc chunkMel ropeOffset).length = chunkTokens chunkMel.length := by
  unfold runEncoderChunk chunkTokens
  rw [List.length_map, List.length_range, convOutLen_natCast, Int.toNat_natCast]
  simp only [downsampleFactor]
  omega

/-- What a run on an even number of Mel frames puts out, from its frame `a` on. -/
lemma map_drop_runEncoderChunk {c n : ℕ} (heven : n % 2 = 0) (hfit : c * encMelStride + n ≤ mel.length)
    (a : ℕ) :
    ((runEncoderChunk enc ((mel.drop (c * encMelStride)).take n)
        (c * encChunkOverlap)).drop a).map (Prod.mk c) =
      rows enc mel c (chunkTrunc n) a (chunkTokens n) := by
  have hlength : ((mel.drop (c * encMelStride)).take n).length = n := by
    rw [List.length_take, List.length_drop]
    omega
  unfold runEncoderChunk rows
  rw [hlength, convOutLen_natCast, Int.toNat_natCast, ← List.map_drop, List.map_map,
    List.range_eq_range', List.drop_range']
  have hcount : (n + 1) / 2 - (n + 1) / 2 % downsampleFactor - a = chunkTokens n - a := by
    unfold chunkTokens
    simp only [downsampleFactor]
    omega
  rw [hcount, Nat.mul_one, Nat.zero_add]
  refine List.map_congr_left fun l hl => ?_
  have hlt : l < chunkTokens n := by
    have hmem := List.mem_range'_1.mp hl
    omega
  unfold chunkTokens at hlt
  change (c, _) = frameOf enc mel c (chunkTrunc n) l
  unfold frameOf chunkTrunc
  simp only [downsampleFactor]
  rw [List.take_take, Nat.min_eq_left (by omega)]

/-- The frames of the first `k` chunks, all complete. -/
def completeRows (enc : ChunkEncoder φ ε) (mel : List φ) (k : ℕ) : List (ℕ × ChunkFrame ε) :=
  (List.range k).flatMap fun c => rows enc mel c 0 (chunkSkip c) (chunkTokens encChunkMel)

/-- At most the overlap is skipped. -/
lemma chunkSkip_le (c : ℕ) : chunkSkip c ≤ encChunkOverlap := by
  unfold chunkSkip
  split
  · exact Nat.zero_le _
  · exact le_rfl

/-- The next complete chunk adds its rows behind the skipped ones. -/
lemma completeRows_succ (k : ℕ) :
    completeRows enc mel (k + 1) =
      completeRows enc mel k ++ rows enc mel k 0 (chunkSkip k) (chunkTokens encChunkMel) := by
  unfold completeRows
  rw [List.range_succ, List.flatMap_append, List.flatMap_singleton]

/-- The complete chunks have one overlap of rows each, and the skipped rows of the first. -/
lemma length_completeRows (k : ℕ) :
    (completeRows enc mel k).length = k * encChunkOverlap + chunkSkip k := by
  induction k with
  | zero => rfl
  | succ k ih =>
    have hnext : chunkSkip (k + 1) = encChunkOverlap := if_neg (Nat.succ_ne_zero k)
    have hskip := chunkSkip_le k
    have htokens : chunkTokens encChunkMel = 2 * encChunkOverlap := rfl
    rw [completeRows_succ, List.length_append, ih, length_rows, hnext, htokens]
    rw [Nat.succ_mul k]
    omega

/-- More audio leaves the rows of the complete chunks. -/
lemma completeRows_extend {k : ℕ} (more : List φ)
    (h : k = 0 ∨ k * encMelStride + encMelStride ≤ mel.length) :
    completeRows enc (mel ++ more) k = completeRows enc mel k := by
  unfold completeRows
  refine List.flatMap_congr fun c hc => rows_extend more ?_
  have hlt := List.mem_range.mp hc
  unfold chunkTokens
  simp only [encMelStride, encChunkMel, encChunkOverlap] at h ⊢
  omega

/-! ## The stream along a run -/

/-- The stream has received `mel` and put out its complete chunks, and the current one up to frame `b`. -/
structure Holds (enc : ChunkEncoder φ ε) (mel : List φ) (es : EncoderStream φ ε) (trunc b : ℕ) :
    Prop where
  notFinal : es.finalized = false
  stable : es.stableMel = mel.length
  base : es.windowBase = es.curChunk * encMelStride
  window : es.melWindow = mel.drop (es.curChunk * encMelStride)
  skip : chunkSkip es.curChunk ≤ b
  emitted : es.emitted = es.curChunk * encChunkOverlap + b
  accum : es.encAccum = completeRows enc mel es.curChunk ++
    rows enc mel es.curChunk trunc (chunkSkip es.curChunk) b

/-- A run on the current chunk puts out the frames that are new. -/
lemma Holds.runChunk {trunc b n : ℕ} (h : Holds enc mel es trunc b) (fails : ℕ → Bool)
    (heven : n % 2 = 0) (hfit : es.curChunk * encMelStride + n ≤ mel.length) :
    encoderStreamRunChunk enc fails es n =
      if fails es.encoderExecutions then (es, false)
      else
        ({ es with
          encoderExecutions := es.encoderExecutions + 1
          lastRunMelEnd := es.curChunk * encMelStride + n
          encAccum := es.encAccum ++ rows enc mel es.curChunk (chunkTrunc n) b (chunkTokens n)
          emitted := es.curChunk * encChunkOverlap + max b (chunkTokens n) }, true) := by
  have hstart : ((es.curChunk * encMelStride : ℕ) : ℤ) - es.windowBase = 0 := by
    rw [h.base, Int.sub_self]
  have hcovered : ¬ (((es.curChunk * encMelStride : ℕ) : ℤ) - es.windowBase < 0 ∨
      (es.melWindow.length : ℤ) < ((es.curChunk * encMelStride : ℕ) : ℤ) - es.windowBase + n) := by
    rw [hstart, h.window, List.length_drop]
    omega
  have hsrc : max (chunkSkip es.curChunk) (es.emitted - es.curChunk * encChunkOverlap) = b := by
    have hskip := h.skip
    rw [h.emitted]
    omega
  have hlength : ((mel.drop (es.curChunk * encMelStride)).take n).length = n := by
    rw [List.length_take, List.length_drop]
    omega
  unfold encoderStreamRunChunk
  dsimp only
  rw [if_neg hcovered, hstart, Int.toNat_zero, List.drop_zero, hsrc, h.window]
  by_cases hfails : fails es.encoderExecutions = true
  · rw [if_pos hfails, if_pos hfails]
  rw [if_neg hfails, if_neg hfails, length_runEncoderChunk, hlength,
    map_drop_runEncoderChunk heven hfit b]
  by_cases hnew : b < chunkTokens n
  · rw [if_pos hnew, Nat.max_eq_right hnew.le]
  · rw [if_neg hnew, rows_of_le (not_lt.mp hnew), List.append_nil,
      Nat.max_eq_left (not_lt.mp hnew), ← h.emitted]

/-- While Mel frames arrive: the first chunk has run on a prefix, every later one not at all. -/
structure Arriving (enc : ChunkEncoder φ ε) (mel : List φ) (es : EncoderStream φ ε) (b : ℕ) : Prop
    extends Holds enc mel es 0 b where
  covered : es.curChunk * encMelStride + 2 * b ≤ mel.length
  short : b < chunkTokens encChunkMel
  first : es.curChunk = 0 → es.lastRunMelEnd = 2 * b ∧ b % 4 = 0
  later : es.curChunk ≠ 0 → b = encChunkOverlap

/-- A new stream. -/
lemma arriving_init (enc : ChunkEncoder φ ε) : Arriving enc [] ({} : EncoderStream φ ε) 0 where
  notFinal := rfl
  stable := rfl
  base := (Nat.zero_mul _).symm
  window := List.drop_nil.symm
  skip := Nat.le_refl 0
  emitted := by rw [Nat.zero_mul]
  accum := by rw [rows_of_le (Nat.zero_le _)]; rfl
  covered := by rw [Nat.zero_mul]; exact Nat.le_refl 0
  short := by decide
  first _ := ⟨rfl, rfl⟩
  later h := absurd rfl h

/-- More Mel frames. -/
lemma Arriving.extend {b : ℕ} (h : Arriving enc mel es b) (frames : List φ) :
    Arriving enc (mel ++ frames)
      { es with melWindow := es.melWindow ++ frames, stableMel := es.stableMel + frames.length } b where
  notFinal := h.notFinal
  stable := by rw [List.length_append, ← h.stable]
  base := h.base
  window := by
    have hcovered := h.covered
    change es.melWindow ++ frames = (mel ++ frames).drop (es.curChunk * encMelStride)
    rw [h.window, List.drop_append_of_le_length (by omega)]
  skip := h.skip
  emitted := h.emitted
  accum := by
    have hcovered := h.covered
    have hcomplete : es.curChunk = 0 ∨ es.curChunk * encMelStride + encMelStride ≤ mel.length := by
      by_cases hzero : es.curChunk = 0
      · exact .inl hzero
      · have hb := h.later hzero
        simp only [encMelStride, encChunkMel, encChunkOverlap] at hb hcovered ⊢
        omega
    change es.encAccum = _
    rw [h.accum, completeRows_extend frames hcomplete, rows_extend frames (by omega)]
  covered := by
    have hcovered := h.covered
    rw [List.length_append]
    change es.curChunk * encMelStride + 2 * b ≤ _
    omega
  short := h.short
  first := h.first
  later := h.later

/-- The stream moves on by one chunk. -/
@[simp] lemma curChunk_nextChunk (es : EncoderStream φ ε) :
    (nextChunk es).curChunk = es.curChunk + 1 := by
  unfold nextChunk
  dsimp only
  split <;> rfl

/-- A complete chunk is put out to its end, and the next one is due. -/
lemma Arriving.complete {b : ℕ} (h : Arriving enc mel es b)
    (hcomplete : es.curChunk * encMelStride + encChunkMel ≤ mel.length)
    (hfails : ¬ fails es.encoderExecutions = true) :
    Arriving enc mel (nextChunk (encoderStreamRunChunk enc fails es encChunkMel).1)
      encChunkOverlap := by
  have hrun := h.runChunk (n := encChunkMel) fails rfl hcomplete
  rw [if_neg hfails] at hrun
  rw [hrun]
  have hbase : es.windowBase < (es.curChunk + 1) * encMelStride := by
    rw [h.base]
    simp only [encMelStride, encChunkMel, encChunkOverlap]
    omega
  unfold nextChunk
  dsimp only
  rw [if_pos hbase]
  have hskip : chunkSkip (es.curChunk + 1) = encChunkOverlap := if_neg (Nat.succ_ne_zero _)
  have hshort := h.short
  have htokens : max b (chunkTokens encChunkMel) = chunkTokens encChunkMel := by omega
  refine ⟨⟨h.notFinal, h.stable, rfl, ?_, hskip.le, ?_, ?_⟩, ?_, by decide, ?_, fun _ => rfl⟩
  · change es.melWindow.drop _ = mel.drop _
    have hdrop : es.curChunk * encMelStride + ((es.curChunk + 1) * encMelStride -
        es.curChunk * encMelStride) = (es.curChunk + 1) * encMelStride := by
      rw [Nat.succ_mul es.curChunk]
      omega
    rw [h.window, h.base, List.drop_drop, hdrop]
  · change es.curChunk * encChunkOverlap + max b _ = (es.curChunk + 1) * encChunkOverlap + _
    rw [htokens]
    unfold chunkTokens
    simp only [encChunkMel, encChunkOverlap]
    omega
  · change es.encAccum ++ rows enc mel es.curChunk (chunkTrunc encChunkMel) b _ = _
    rw [h.accum, hskip, rows_of_le le_rfl, List.append_nil, completeRows_succ, List.append_assoc]
    congr 1
    exact rows_append h.skip hshort.le
  · change (es.curChunk + 1) * encMelStride + 2 * encChunkOverlap ≤ mel.length
    simp only [encMelStride, encChunkMel, encChunkOverlap] at hcomplete ⊢
    omega
  · exact fun hzero => absurd hzero (Nat.succ_ne_zero _)

/-- A computation returns; if it succeeds, `P` holds of its result, and it fails only with a graph. -/
def Outcome {σ : Type*} (fails : ℕ → Bool) (P : σ → Prop) (r : Option (σ × Bool)) : Prop :=
  ∃ s ok, r = some (s, ok) ∧ (ok = true → P s) ∧ ((∀ n, fails n = false) → ok = true)

/-- A run that has come through. -/
lemma Outcome.done {σ : Type*} {P : σ → Prop} {s : σ} (h : P s) : Outcome fails P (some (s, true)) :=
  ⟨s, true, rfl, fun _ => h, fun _ => rfl⟩

/-- A run whose graph failed. -/
lemma Outcome.failed {σ : Type*} {P : σ → Prop} {n : ℕ} (h : fails n = true) (s : σ) :
    Outcome fails P (some (s, false)) := by
  refine ⟨s, false, rfl, (by intro hok; cases hok), fun hnone => ?_⟩
  rw [hnone n] at h
  cases h

/-- The complete chunks are put out one after the other; what is left to see is the incomplete one. -/
lemma Arriving.driveLoop {P : EncoderStream φ ε → Prop} {final : Bool} {b : ℕ}
    (hlast : ∀ es b fuel, Arriving enc mel es b →
      mel.length < es.curChunk * encMelStride + encChunkMel →
      Outcome fails P (encoderStreamDriveLoop enc fails final (fuel + 1) es))
    (fuel : ℕ) (h : Arriving enc mel es b) (hfuel : mel.length < fuel + es.curChunk) :
    Outcome fails P (encoderStreamDriveLoop enc fails final fuel es) := by
  induction fuel generalizing es b with
  | zero =>
    have hcovered := h.covered
    simp only [encMelStride, encChunkMel, encChunkOverlap] at hcovered
    omega
  | succ fuel ih =>
    by_cases hcomplete : es.curChunk * encMelStride + encChunkMel ≤ mel.length
    · have hlive : ¬ es.stableMel ≤ es.curChunk * encMelStride := by
        rw [h.stable]
        simp only [encChunkMel] at hcomplete
        omega
      have hnext : nextRun final es = some (encChunkMel, true) := by
        unfold nextRun
        rw [h.stable]
        exact if_pos (by omega)
      have hnew : ¬ melFramesToEncTokens encChunkMel - chunkSkip es.curChunk ≤ 0 := by
        have hskip := chunkSkip_le es.curChunk
        rw [melFramesToEncTokens_natCast]
        simp only [encChunkMel, encChunkOverlap] at hskip ⊢
        omega
      rw [encoderStreamDriveLoop, if_neg hlive, hnext]
      dsimp only
      rw [if_neg hnew]
      have hrun := h.runChunk (n := encChunkMel) fails rfl hcomplete
      by_cases hfails : fails es.encoderExecutions = true
      · rw [if_pos hfails] at hrun
        rw [hrun, if_pos rfl]
        exact .failed hfails es
      · have hdue := h.complete hcomplete hfails
        rw [if_neg hfails] at hrun
        rw [hrun] at hdue ⊢
        rw [if_neg fun htrue => Bool.noConfusion htrue, if_pos rfl]
        apply ih hdue
        rw [curChunk_nextChunk]
        change mel.length < fuel + (es.curChunk + 1)
        omega
    · exact hlast es b fuel h (not_le.mp hcomplete)

/-- While Mel frames arrive, the first chunk runs on a prefix from time to time. -/
lemma Arriving.driveLast {b : ℕ} (h : Arriving enc mel es b)
    (hlast : mel.length < es.curChunk * encMelStride + encChunkMel) (fuel : ℕ) :
    Outcome fails (fun es => ∃ b, Arriving enc mel es b)
      (encoderStreamDriveLoop enc fails false (fuel + 1) es) := by
  rw [encoderStreamDriveLoop]
  by_cases hend : es.stableMel ≤ es.curChunk * encMelStride
  · rw [if_pos hend]
    exact .done ⟨b, h⟩
  rw [if_neg hend]
  rw [h.stable] at hend
  unfold nextRun
  dsimp only
  rw [h.stable, if_neg (by omega), if_neg (by decide)]
  by_cases hzero : es.curChunk = 0
  · obtain ⟨hend₀, hgroups⟩ := h.first hzero
    rw [if_neg (not_not.mpr hzero), hzero, Nat.zero_mul, Nat.sub_zero, hend₀]
    set m8 := mel.length / 8 * 8 with hm8
    by_cases hnone : m8 = 0
    · rw [if_pos hnone]
      exact .done ⟨b, h⟩
    rw [if_neg hnone]
    by_cases hthrottled : (m8 : ℤ) - (2 * b : ℕ) < (max encStreamEmitMel (2 * b / 2) : ℕ)
    · rw [if_pos hthrottled]
      exact .done ⟨b, h⟩
    rw [if_neg hthrottled]
    dsimp only
    have hgrown : 2 * b < m8 := by
      simp only [encStreamEmitMel] at hthrottled
      omega
    have htokens : chunkTokens m8 = m8 / 2 := by
      unfold chunkTokens
      omega
    have htrunc : chunkTrunc m8 = 0 := by
      unfold chunkTrunc
      omega
    have hnew : ¬ melFramesToEncTokens m8 - chunkSkip 0 ≤ 0 := by
      rw [melFramesToEncTokens_natCast]
      change ¬ ((4 * ((m8 + 1) / 8) : ℕ) : ℤ) - 0 ≤ 0
      omega
    rw [if_neg hnew]
    have hfit : es.curChunk * encMelStride + m8 ≤ mel.length := by
      rw [hzero, Nat.zero_mul]
      omega
    have hrun := h.runChunk (n := m8) fails (by omega) hfit
    by_cases hfails : fails es.encoderExecutions = true
    · rw [if_pos hfails] at hrun
      rw [hrun, if_pos rfl]
      exact .failed hfails es
    rw [if_neg hfails] at hrun
    rw [hrun, if_neg fun htrue => Bool.noConfusion htrue, if_neg (by decide)]
    rw [hzero, Nat.zero_mul] at hlast
    have hmax : max b (chunkTokens m8) = m8 / 2 := by omega
    have hskip : chunkSkip es.curChunk = 0 := by
      rw [hzero]
      rfl
    refine .done ⟨m8 / 2, ⟨⟨h.notFinal, h.stable, h.base, h.window, ?_, ?_, ?_⟩, ?_, ?_, ?_, ?_⟩⟩
    · exact hskip.le.trans (Nat.zero_le _)
    · change es.curChunk * encChunkOverlap + max b (chunkTokens m8) = _
      rw [hmax]
    · change es.encAccum ++ rows enc mel es.curChunk (chunkTrunc m8) b (chunkTokens m8) = _
      rw [h.accum, htrunc, htokens, List.append_assoc, rows_append h.skip (by omega)]
    · change es.curChunk * encMelStride + 2 * (m8 / 2) ≤ mel.length
      omega
    · unfold chunkTokens
      simp only [encChunkMel] at hlast ⊢
      omega
    · intro _
      change es.curChunk * encMelStride + m8 = 2 * (m8 / 2) ∧ m8 / 2 % 4 = 0
      rw [hzero, Nat.zero_mul]
      omega
    · exact fun hne => absurd hzero hne
  · rw [if_pos hzero]
    exact .done ⟨b, h⟩

/-- The stream has put out all frames: the complete chunks and what is left of the last one. -/
structure Flushed (enc : ChunkEncoder φ ε) (mel : List φ) (es : EncoderStream φ ε) : Prop
    extends Holds enc mel es (chunkTrunc (mel.length - es.curChunk * encMelStride))
      (max (chunkSkip es.curChunk) (chunkTokens (mel.length - es.curChunk * encMelStride))) where
  last : mel.length < es.curChunk * encMelStride + encChunkMel
  reached : es.curChunk = 0 ∨ es.curChunk * encMelStride + encMelStride ≤ mel.length

/-- The last run puts out what is left, if anything is. -/
lemma Holds.flush {trunc b : ℕ} (h : Holds enc mel es trunc b) (heven : mel.length % 2 = 0)
    (hlast : mel.length < es.curChunk * encMelStride + encChunkMel)
    (hreached : es.curChunk = 0 ∨ es.curChunk * encMelStride + encMelStride ≤ mel.length)
    (hb : b ≤ max (chunkSkip es.curChunk) (chunkTokens (mel.length - es.curChunk * encMelStride)))
    (hrows : rows enc mel es.curChunk trunc (chunkSkip es.curChunk) b =
      rows enc mel es.curChunk (chunkTrunc (mel.length - es.curChunk * encMelStride))
        (chunkSkip es.curChunk) b) (fuel : ℕ) :
    Outcome fails (Flushed enc mel) (encoderStreamDriveLoop enc fails true (fuel + 1) es) := by
  set avail := mel.length - es.curChunk * encMelStride with havail
  have hskip := h.skip
  have haccum := h.accum
  rw [hrows] at haccum
  -- nothing is left
  have hquiet : chunkTokens avail ≤ chunkSkip es.curChunk →
      Outcome fails (Flushed enc mel) (some (es, true)) := by
    intro hle
    have hall : max (chunkSkip es.curChunk) (chunkTokens avail) = b := by omega
    refine .done ⟨⟨h.notFinal, h.stable, h.base, h.window, le_max_left _ _, ?_, ?_⟩, hlast, hreached⟩
    · rw [← havail, hall]
      exact h.emitted
    · rw [← havail, hall]
      exact haccum
  rw [encoderStreamDriveLoop]
  by_cases hend : es.stableMel ≤ es.curChunk * encMelStride
  · rw [if_pos hend]
    rw [h.stable] at hend
    refine hquiet ?_
    rw [Nat.sub_eq_zero_of_le hend] at havail
    rw [havail]
    exact Nat.zero_le _
  rw [if_neg hend]
  rw [h.stable] at hend
  have hnext : nextRun true es = some (avail, false) := by
    unfold nextRun
    rw [h.stable]
    exact if_neg (by omega)
  rw [hnext]
  dsimp only
  by_cases hnone : chunkTokens avail ≤ chunkSkip es.curChunk
  · have hstop : melFramesToEncTokens avail - chunkSkip es.curChunk ≤ 0 := by
      rw [melFramesToEncTokens_natCast]
      unfold chunkTokens at hnone
      omega
    rw [if_pos hstop]
    exact hquiet hnone
  have hnew : ¬ melFramesToEncTokens avail - chunkSkip es.curChunk ≤ 0 := by
    rw [melFramesToEncTokens_natCast]
    unfold chunkTokens at hnone
    omega
  rw [if_neg hnew]
  have hfit : es.curChunk * encMelStride + avail ≤ mel.length := by omega
  have havaileven : avail % 2 = 0 := by
    simp only [encMelStride, encChunkMel, encChunkOverlap] at havail
    omega
  have hrun := h.runChunk (n := avail) fails havaileven hfit
  by_cases hfails : fails es.encoderExecutions = true
  · rw [if_pos hfails] at hrun
    rw [hrun, if_pos rfl]
    exact .failed hfails es
  rw [if_neg hfails] at hrun
  rw [hrun, if_neg fun htrue => Bool.noConfusion htrue, if_neg fun htrue => Bool.noConfusion htrue]
  have hall : max (chunkSkip es.curChunk) (chunkTokens avail) = max b (chunkTokens avail) := by omega
  refine .done ⟨⟨h.notFinal, h.stable, h.base, h.window, le_max_left _ _, ?_, ?_⟩, hlast, hreached⟩
  · change es.curChunk * encChunkOverlap + max b (chunkTokens avail) = _
    rw [← hall]
  · have hright : max (chunkSkip es.curChunk) (chunkTokens avail) = chunkTokens avail :=
      Nat.max_eq_right (by omega)
    change es.encAccum ++ rows enc mel es.curChunk (chunkTrunc avail) b (chunkTokens avail) =
      completeRows enc mel es.curChunk ++ rows enc mel es.curChunk (chunkTrunc avail)
        (chunkSkip es.curChunk) (max (chunkSkip es.curChunk) (chunkTokens avail))
    rw [hright, haccum, List.append_assoc, rows_append hskip (by omega)]

/-- The final drive behind the arrival of all Mel frames. -/
lemma Arriving.flush {b : ℕ} (h : Arriving enc mel es b) (htotal : mel.length % 8 = 0) :
    Outcome fails (Flushed enc mel) (encoderStreamDrive enc fails true es) := by
  refine Arriving.driveLoop ?_ _ h (by rw [h.stable]; omega)
  intro es b fuel h hlast
  have hcovered := h.covered
  refine h.toHolds.flush (by omega) hlast ?_ ?_ ?_ fuel
  · by_cases hzero : es.curChunk = 0
    · exact .inl hzero
    · have hb := h.later hzero
      simp only [encMelStride, encChunkMel, encChunkOverlap] at hb hcovered ⊢
      omega
  · by_cases hzero : es.curChunk = 0
    · obtain ⟨-, hgroups⟩ := h.first hzero
      rw [hzero, Nat.zero_mul] at hcovered ⊢
      unfold chunkTokens
      omega
    · rw [h.later hzero, chunkSkip, if_neg hzero]
      exact le_max_left _ _
  · by_cases hzero : es.curChunk = 0
    · congr 1
      rw [hzero, Nat.zero_mul]
      unfold chunkTrunc
      omega
    · have hskip : chunkSkip es.curChunk = b := by rw [h.later hzero, chunkSkip, if_neg hzero]
      rw [hskip, rows_of_le le_rfl, rows_of_le le_rfl]

/-- A second final drive adds nothing. -/
lemma Flushed.flush (h : Flushed enc mel es) (htotal : mel.length % 8 = 0) :
    Outcome fails (Flushed enc mel) (encoderStreamDrive enc fails true es) :=
  h.toHolds.flush (by omega) h.last h.reached le_rfl rfl _

/-! ## All frames -/

/-- The number of complete chunks. -/
def completeChunks (n : ℕ) : ℕ := (n - encMelStride) / encMelStride

/-- All frames of the Mel: the complete chunks and what is left of the last one. -/
def chunkedRows (enc : ChunkEncoder φ ε) (mel : List φ) : List (ℕ × ChunkFrame ε) :=
  let k := completeChunks mel.length
  completeRows enc mel k ++
    rows enc mel k (chunkTrunc (mel.length - k * encMelStride)) (chunkSkip k)
      (chunkTokens (mel.length - k * encMelStride))

/-- The number of all frames. -/
def totalTokens (n : ℕ) : ℕ :=
  completeChunks n * encChunkOverlap +
    max (chunkSkip (completeChunks n)) (chunkTokens (n - completeChunks n * encMelStride))

/-- The number of complete chunks is the one whose next chunk is not complete. -/
lemma completeChunks_eq {n k : ℕ} (hlast : n < k * encMelStride + encChunkMel)
    (hreached : k = 0 ∨ k * encMelStride + encMelStride ≤ n) : completeChunks n = k := by
  unfold completeChunks
  simp only [encMelStride, encChunkMel, encChunkOverlap] at *
  omega

/-- The chunk behind the complete ones is not complete, and the last complete one is. -/
lemma completeChunks_spec (n : ℕ) :
    n < completeChunks n * encMelStride + encChunkMel ∧
      (completeChunks n = 0 ∨ completeChunks n * encMelStride + encMelStride ≤ n) := by
  unfold completeChunks
  simp only [encMelStride, encChunkMel, encChunkOverlap]
  omega

/-- The chunked rows are as many as the tokens of the signal. -/
lemma length_chunkedRows : (chunkedRows enc mel).length = totalTokens mel.length := by
  unfold chunkedRows totalTokens
  rw [List.length_append, length_completeRows, length_rows]
  omega

/-- No frames make no tokens. -/
lemma totalTokens_zero : totalTokens 0 = 0 := by decide

/-- A flushed stream has put out all frames. -/
lemma Flushed.all (h : Flushed enc mel es) :
    es.encAccum = chunkedRows enc mel ∧ es.emitted = totalTokens mel.length := by
  have hk := completeChunks_eq h.last h.reached
  unfold chunkedRows totalTokens
  rw [hk, h.accum, h.emitted]
  refine ⟨?_, rfl⟩
  congr 1
  rcases Nat.le_total (chunkTokens (mel.length - es.curChunk * encMelStride))
    (chunkSkip es.curChunk) with hle | hle
  · rw [Nat.max_eq_left hle, rows_of_le le_rfl, rows_of_le hle]
  · rw [Nat.max_eq_right hle]

/-- One part. -/
lemma Arriving.push {b : ℕ} (h : Arriving enc mel es b) (frames : List φ) :
    Outcome fails (fun es => ∃ b, Arriving enc (mel ++ frames) es b)
      (encoderStreamPush enc fails false es frames mel.length) := by
  have hopen : ¬ es.finalized = true := by
    rw [h.notFinal]
    exact Bool.false_ne_true
  unfold encoderStreamPush
  rw [if_neg hopen]
  by_cases hempty : frames = []
  · rw [if_pos hempty]
    refine .done ⟨b, ?_⟩
    rwa [hempty, List.append_nil]
  · rw [if_neg hempty, if_neg (not_not.mpr h.stable.symm)]
    refine (h.extend frames).driveLoop (fun es b fuel h hlast => h.driveLast hlast fuel) _ ?_
    rw [(h.extend frames).stable]
    omega

/-- The last part. -/
lemma Arriving.pushFinal {b : ℕ} (h : Arriving enc mel es b) (frames : List φ)
    (htotal : (mel ++ frames).length % 8 = 0) :
    Outcome fails
      (fun es => (∃ b, Arriving enc (mel ++ frames) es b) ∨ Flushed enc (mel ++ frames) es)
      (encoderStreamPush enc fails true es frames mel.length) := by
  have hopen : ¬ es.finalized = true := by
    rw [h.notFinal]
    exact Bool.false_ne_true
  unfold encoderStreamPush
  rw [if_neg hopen]
  by_cases hempty : frames = []
  · rw [if_pos hempty]
    refine .done (.inl ⟨b, ?_⟩)
    rwa [hempty, List.append_nil]
  · rw [if_neg hempty, if_neg (not_not.mpr h.stable.symm)]
    have hdrive : Outcome fails (Flushed enc (mel ++ frames)) _ := (h.extend frames).flush htotal
    obtain ⟨es', ok, heq, hflushed, hruns⟩ := hdrive
    exact ⟨es', ok, heq, fun hok => .inr (hflushed hok), hruns⟩

/-- The end. -/
lemma finish_outcome (h : (∃ b, Arriving enc mel es b) ∨ Flushed enc mel es)
    (htotal : mel.length % 8 = 0) :
    Outcome fails
      (fun es => es.encAccum = chunkedRows enc mel ∧ es.emitted = totalTokens mel.length)
      (encoderStreamFinish enc fails es) := by
  have hopen : es.finalized = false := by
    rcases h with ⟨b, h⟩ | h
    · exact h.notFinal
    · exact h.notFinal
  have hdrive : Outcome fails (Flushed enc mel) (encoderStreamDrive enc fails true es) := by
    rcases h with ⟨b, h⟩ | h
    · exact h.flush htotal
    · exact h.flush htotal
  obtain ⟨es', ok, heq, hflushed, hruns⟩ := hdrive
  unfold encoderStreamFinish
  rw [hopen, if_neg Bool.false_ne_true, heq]
  exact ⟨_, ok, rfl, fun hok => (hflushed hok).all, hruns⟩

/-- One call, and those behind it if it succeeds. -/
lemma Outcome.call {P Q : EncoderStream φ ε → Prop} {call : EncoderCall φ}
    {calls : List (EncoderCall φ)} (h : Outcome fails P (encoderCall enc fails es call))
    (hrest : ∀ es, P es → Outcome fails Q (runCalls enc fails es calls)) :
    Outcome fails Q (runCalls enc fails es (call :: calls)) := by
  obtain ⟨es', ok, heq, hp, hruns⟩ := h
  rw [runCalls, heq, Option.bind_some]
  cases ok with
  | true => exact hrest es' (hp rfl)
  | false => exact ⟨es', false, rfl, (by intro hok; cases hok), hruns⟩

/-- Whatever the parts are, the stream puts out all frames. -/
lemma Arriving.parts {b : ℕ} (h : Arriving enc mel es b) (parts : List (List φ)) (last : List φ)
    (htotal : (mel ++ (parts.flatten ++ last)).length % 8 = 0) :
    Outcome fails
      (fun es => es.encAccum = chunkedRows enc (mel ++ (parts.flatten ++ last)) ∧
        es.emitted = totalTokens (mel ++ (parts.flatten ++ last)).length)
      (runCalls enc fails es (partitionCalls last mel.length parts)) := by
  induction parts generalizing mel es b with
  | nil =>
    rw [List.flatten_nil, List.nil_append] at htotal ⊢
    refine (h.pushFinal last htotal).call fun es' hready => ?_
    exact (finish_outcome hready htotal).call fun es'' hall => .done hall
  | cons part parts ih =>
    have hjoin : mel ++ ((part :: parts).flatten ++ last) =
        (mel ++ part) ++ (parts.flatten ++ last) := by
      rw [List.flatten_cons, List.append_assoc, List.append_assoc]
    rw [hjoin] at htotal ⊢
    refine (h.push part).call fun es' ⟨b', hnext⟩ => ?_
    have hlength : (mel ++ part).length = mel.length + part.length := List.length_append
    have hrest := ih hnext htotal
    rw [hlength] at hrest
    exact hrest

/-! ## The whole Mel -/

/-- Behind the last chunk nothing is left to run. -/
lemma no_chunk_behind_last {n : ℕ} (hlive : ¬ n ≤ (completeChunks n + 1) * encMelStride) :
    melFramesToEncTokens (min encChunkMel (n - (completeChunks n + 1) * encMelStride) : ℕ) -
      encChunkOverlap ≤ 0 := by
  have hlast := (completeChunks_spec n).1
  rw [melFramesToEncTokens_natCast]
  simp only [encMelStride, encChunkMel, encChunkOverlap] at hlast hlive ⊢
  omega

/-- The Mel frames of a chunk, and the tokens they make. -/
lemma chunk_cases {n c : ℕ} (hc : c ≤ completeChunks n) (hlive : ¬ n ≤ c * encMelStride) :
    (c < completeChunks n ∧ min encChunkMel (n - c * encMelStride) = encChunkMel ∧
        chunkTrunc encChunkMel = 0 ∧ chunkTokens encChunkMel = 2 * encChunkOverlap) ∨
      (c = completeChunks n ∧ min encChunkMel (n - c * encMelStride) = n - c * encMelStride) := by
  obtain ⟨hlast, hreached⟩ := completeChunks_spec n
  rcases Nat.lt_or_ge c (completeChunks n) with hlt | hge
  · refine .inl ⟨hlt, ?_, rfl, rfl⟩
    simp only [encMelStride, encChunkMel, encChunkOverlap] at *
    omega
  · obtain rfl : c = completeChunks n := Nat.le_antisymm hc hge
    exact .inr ⟨rfl, Nat.min_eq_right (by omega)⟩

/-- `compute_total_enc_tokens` from chunk `c` on. -/
lemma computeTotalLoop_eq {n c : ℕ} (fuel : ℕ) (hc : c ≤ completeChunks n) (hfuel : n < fuel + c) :
    computeTotalLoop n fuel (c * encMelStride) ((c * encChunkOverlap + chunkSkip c : ℕ) : ℤ)
      (decide (c = 0)) = some (totalTokens n : ℤ) := by
  obtain ⟨hlast, hreached⟩ := completeChunks_spec n
  induction fuel generalizing c with
  | zero =>
    simp only [encMelStride, encChunkMel, encChunkOverlap] at hreached
    omega
  | succ fuel ih =>
    have hskip : (if decide (c = 0) = true then 0 else (encChunkOverlap : ℤ)) = chunkSkip c := by
      unfold chunkSkip
      by_cases hzero : c = 0
      · rw [if_pos (decide_eq_true hzero), if_pos hzero, Nat.cast_zero]
      · rw [if_neg (by rw [decide_eq_true_eq]; exact hzero), if_neg hzero]
    rw [computeTotalLoop]
    dsimp only
    rw [hskip]
    by_cases hend : n ≤ c * encMelStride
    · rw [if_pos hend]
      have hzero : c = 0 ∧ n = 0 := by
        simp only [encMelStride, encChunkMel, encChunkOverlap] at hreached hend
        omega
      rw [hzero.1, hzero.2]
      rfl
    rw [if_neg hend]
    have hle := chunkSkip_le c
    rcases chunk_cases hc hend with ⟨hlt, hmin, -, htokens⟩ | ⟨rfl, hmin⟩
    · have hvalue : melFramesToEncTokens (min encChunkMel (n - c * encMelStride) : ℕ) =
          (2 * encChunkOverlap : ℕ) := by
        rw [hmin, melFramesToEncTokens_natCast]
        rfl
      have hnew : ¬ ((2 * encChunkOverlap : ℕ) : ℤ) - chunkSkip c ≤ 0 := by
        simp only [encChunkOverlap] at hle ⊢
        omega
      have hsum : ((c * encChunkOverlap + chunkSkip c : ℕ) : ℤ) +
          (((2 * encChunkOverlap : ℕ) : ℤ) - chunkSkip c) =
          (((c + 1) * encChunkOverlap + chunkSkip (c + 1) : ℕ) : ℤ) := by
        rw [show chunkSkip (c + 1) = encChunkOverlap from if_neg (Nat.succ_ne_zero c)]
        push_cast
        ring
      have hoffset : c * encMelStride + encMelStride = (c + 1) * encMelStride := by
        rw [Nat.succ_mul]
      rw [hvalue, if_neg hnew, hsum, hoffset]
      exact ih hlt (by omega)
    · set k := completeChunks n with hk
      have hvalue : melFramesToEncTokens (min encChunkMel (n - k * encMelStride) : ℕ) =
          chunkTokens (n - k * encMelStride) := by
        rw [hmin, melFramesToEncTokens_natCast]
        rfl
      rw [hvalue]
      unfold totalTokens
      rw [← hk]
      by_cases hnone : (chunkTokens (n - k * encMelStride) : ℤ) - chunkSkip k ≤ 0
      · rw [if_pos hnone, Nat.max_eq_left (by omega)]
      rw [if_neg hnone, Nat.max_eq_right (by omega)]
      obtain ⟨fuel, rfl⟩ : ∃ m, fuel = m + 1 := by
        refine ⟨fuel - 1, ?_⟩
        simp only [encMelStride, encChunkMel, encChunkOverlap] at hreached hend
        omega
      have hoffset : k * encMelStride + encMelStride = (k + 1) * encMelStride := by
        rw [Nat.succ_mul]
      have hsum : ((k * encChunkOverlap + chunkSkip k : ℕ) : ℤ) +
          ((chunkTokens (n - k * encMelStride) : ℤ) - chunkSkip k) =
          ((k * encChunkOverlap + chunkTokens (n - k * encMelStride) : ℕ) : ℤ) := by
        push_cast
        ring
      rw [hsum, hoffset, computeTotalLoop]
      by_cases hdone : n ≤ (k + 1) * encMelStride
      · rw [if_pos hdone]
      · dsimp only
        rw [if_neg hdone, if_neg Bool.false_ne_true, if_pos (no_chunk_behind_last hdone)]

/-- `compute_total_enc_tokens` ends, with the number of tokens. -/
lemma computeTotalEncTokens_eq (n : ℕ) : computeTotalEncTokens n = some (totalTokens n : ℤ) :=
  computeTotalLoop_eq (c := 0) (n + 1) (Nat.zero_le _) (Nat.lt_succ_self n)

/-- The loop of `run_encoder_chunked` in front of chunk `c`. -/
def beforeChunk (enc : ChunkEncoder φ ε) (mel : List φ) (c : ℕ) : ChunkedState ε where
  melOffset := c * encMelStride
  encWriteOffset := (c * encChunkOverlap + chunkSkip c : ℕ)
  chunkIdx := c
  encoderOutput := completeRows enc mel c

/-- The loop is through with the Mel, and its buffer has been large enough. -/
structure AllPutOut (enc : ChunkEncoder φ ε) (mel : List φ) (b : ChunkedState ε) : Prop where
  output : b.encoderOutput = chunkedRows enc mel
  offset : b.encWriteOffset = totalTokens mel.length
  fits : b.clamped = false

/-- The first chunk skips nothing. -/
lemma skip_eq (c : ℕ) : (if 0 < c then encChunkOverlap else 0) = chunkSkip c := by
  unfold chunkSkip
  by_cases hzero : c = 0
  · rw [if_neg (by omega), if_pos hzero]
  · rw [if_pos (by omega), if_neg hzero]

/-- The loop stops behind the Mel, and in front of a chunk that adds nothing. -/
lemma chunkedLoop_stop {b : ChunkedState ε} {allocTotal : ℤ} {fuel : ℕ}
    (hstop : mel.length ≤ b.melOffset ∨
      melFramesToEncTokens (min encChunkMel (mel.length - b.melOffset) : ℕ) -
        (if 0 < b.chunkIdx then encChunkOverlap else 0 : ℕ) ≤ 0) :
    chunkedLoop enc fails mel allocTotal (fuel + 1) b = some (b, true) := by
  rw [chunkedLoop]
  by_cases hend : mel.length ≤ b.melOffset
  · rw [if_pos hend]
  · rw [if_neg hend]
    dsimp only
    rw [if_pos (hstop.resolve_left hend)]

/-- A chunk that adds frames, all of which fit, if there is room for its graph. -/
lemma chunkedLoop_chunk {c n fuel : ℕ} (hn : min encChunkMel (mel.length - c * encMelStride) = n)
    (hlive : ¬ mel.length ≤ c * encMelStride) (heven : n % 2 = 0)
    (hnew : chunkSkip c < chunkTokens n) {allocTotal : ℤ}
    (hfits : ((c * encChunkOverlap + chunkTokens n : ℕ) : ℤ) ≤ allocTotal) :
    chunkedLoop enc fails mel allocTotal (fuel + 1) (beforeChunk enc mel c) =
      if fails c then some (beforeChunk enc mel c, false)
      else
        chunkedLoop enc fails mel allocTotal fuel
          { melOffset := (c + 1) * encMelStride
            encWriteOffset := (c * encChunkOverlap + chunkTokens n : ℕ)
            chunkIdx := c + 1
            encoderOutput := completeRows enc mel c ++
              rows enc mel c (chunkTrunc n) (chunkSkip c) (chunkTokens n) } := by
  have htokens : melFramesToEncTokens (n : ℕ) = chunkTokens n := by
    rw [melFramesToEncTokens_natCast]
    rfl
  have hfit : c * encMelStride + n ≤ mel.length := by omega
  have hlength : ((mel.drop (c * encMelStride)).take n).length = n := by
    rw [List.length_take, List.length_drop]
    omega
  have hrope : ((c * encChunkOverlap + chunkSkip c : ℕ) : ℤ) - (chunkSkip c : ℕ) =
      c * encChunkOverlap := by
    push_cast
    ring
  have hstride : ((c * encChunkOverlap + chunkSkip c : ℕ) : ℤ) +
      ((chunkTokens n : ℤ) - (chunkSkip c : ℕ)) = (c * encChunkOverlap + chunkTokens n : ℕ) := by
    push_cast
    ring
  have hroom : ¬ allocTotal < (c * encChunkOverlap + chunkTokens n : ℕ) := not_lt.mpr hfits
  unfold beforeChunk
  rw [chunkedLoop]
  dsimp only
  rw [if_neg hlive, hn, skip_eq c, htokens, if_neg (by omega)]
  by_cases hfails : fails c = true
  · rw [if_pos hfails, if_pos hfails]
  rw [if_neg hfails, if_neg hfails, hrope, length_runEncoderChunk, hlength, hstride,
    if_neg (by omega), decide_eq_false hroom,
    if_neg Bool.false_ne_true, if_neg fun hclamp => Bool.false_ne_true hclamp.1, Bool.or_false,
    hstride]
  have hall : ((runEncoderChunk enc ((mel.drop (c * encMelStride)).take n)
        (c * encChunkOverlap)).drop (chunkSkip c)).take
        ((chunkTokens n : ℤ) - (chunkSkip c : ℕ)).toNat =
      (runEncoderChunk enc ((mel.drop (c * encMelStride)).take n)
        (c * encChunkOverlap)).drop (chunkSkip c) := by
    apply List.take_of_length_le
    rw [List.length_drop, length_runEncoderChunk, hlength]
    omega
  rw [hall, map_drop_runEncoderChunk heven hfit, Nat.succ_mul c]

/-- The loop from chunk `c` on. -/
lemma chunkedLoop_outcome {c : ℕ} (heven : mel.length % 2 = 0) (fuel : ℕ)
    (hc : c ≤ completeChunks mel.length) (hfuel : mel.length < fuel + c) :
    Outcome fails (AllPutOut enc mel)
      (chunkedLoop enc fails mel (totalTokens mel.length) fuel (beforeChunk enc mel c)) := by
  obtain ⟨hlast, hreached⟩ := completeChunks_spec mel.length
  have htotal : totalTokens mel.length = completeChunks mel.length * encChunkOverlap +
      max (chunkSkip (completeChunks mel.length))
        (chunkTokens (mel.length - completeChunks mel.length * encMelStride)) := rfl
  induction fuel generalizing c with
  | zero =>
    simp only [encMelStride, encChunkMel, encChunkOverlap] at hreached
    omega
  | succ fuel ih =>
    have hle := chunkSkip_le c
    by_cases hend : mel.length ≤ c * encMelStride
    · have hzero : c = 0 ∧ mel = [] := by
        rw [← List.length_eq_zero_iff]
        simp only [encMelStride, encChunkMel, encChunkOverlap] at hreached hend
        omega
      obtain ⟨rfl, rfl⟩ := hzero
      have hcount : (chunkedRows enc ([] : List φ)).length = totalTokens 0 := length_chunkedRows
      have hnone := List.eq_nil_of_length_eq_zero (hcount.trans totalTokens_zero)
      rw [chunkedLoop_stop (b := beforeChunk enc [] 0) (.inl hend)]
      refine .done ⟨hnone.symm, ?_, rfl⟩
      rw [List.length_nil, totalTokens_zero]
      rfl
    rcases chunk_cases hc hend with ⟨hlt, hmin, htrunc, htokens⟩ | ⟨rfl, hmin⟩
    · have hnext : chunkSkip (c + 1) = encChunkOverlap := if_neg (Nat.succ_ne_zero c)
      have hfits : ((c * encChunkOverlap + chunkTokens encChunkMel : ℕ) : ℤ) ≤
          (totalTokens mel.length : ℤ) := by
        rw [htotal, htokens, chunkSkip, if_neg (by omega)]
        simp only [encChunkOverlap]
        omega
      have hnew : chunkSkip c < chunkTokens encChunkMel := by
        rw [htokens]
        simp only [encChunkOverlap] at hle ⊢
        omega
      rw [chunkedLoop_chunk hmin hend rfl hnew hfits]
      by_cases hfails : fails c = true
      · rw [if_pos hfails]
        exact .failed hfails _
      have hsame : ({ melOffset := (c + 1) * encMelStride
                      encWriteOffset := (c * encChunkOverlap + chunkTokens encChunkMel : ℕ)
                      chunkIdx := c + 1
                      encoderOutput := completeRows enc mel c ++ rows enc mel c
                        (chunkTrunc encChunkMel) (chunkSkip c) (chunkTokens encChunkMel) } :
          ChunkedState ε) = beforeChunk enc mel (c + 1) := by
        have hsum : c * encChunkOverlap + 2 * encChunkOverlap =
            c * encChunkOverlap + encChunkOverlap + encChunkOverlap := by omega
        unfold beforeChunk
        rw [completeRows_succ, hnext, htokens, htrunc, Nat.succ_mul c, Nat.succ_mul c, hsum]
      rw [if_neg hfails, hsame]
      exact ih hlt (by omega)
    · set k := completeChunks mel.length with hk
      have hwhole : chunkedRows enc mel = completeRows enc mel k ++
          rows enc mel k (chunkTrunc (mel.length - k * encMelStride)) (chunkSkip k)
            (chunkTokens (mel.length - k * encMelStride)) := rfl
      by_cases hnone : chunkTokens (mel.length - k * encMelStride) ≤ chunkSkip k
      · rw [chunkedLoop_stop]
        · refine .done ⟨?_, ?_, rfl⟩
          · rw [hwhole, rows_of_le hnone, List.append_nil]
            rfl
          · rw [htotal, Nat.max_eq_left hnone]
            rfl
        · refine .inr ?_
          change melFramesToEncTokens (min encChunkMel (mel.length - k * encMelStride) : ℕ) -
            (if 0 < k then encChunkOverlap else 0 : ℕ) ≤ 0
          rw [hmin, melFramesToEncTokens_natCast, skip_eq k]
          unfold chunkTokens at hnone
          omega
      have hfits : ((k * encChunkOverlap + chunkTokens (mel.length - k * encMelStride) : ℕ) : ℤ) ≤
          (totalTokens mel.length : ℤ) := by
        rw [htotal]
        omega
      have hlasteven : (mel.length - k * encMelStride) % 2 = 0 := by
        simp only [encMelStride, encChunkMel, encChunkOverlap]
        omega
      rw [chunkedLoop_chunk hmin hend hlasteven (not_le.mp hnone) hfits]
      by_cases hfails : fails k = true
      · rw [if_pos hfails]
        exact .failed hfails _
      rw [if_neg hfails]
      obtain ⟨fuel, rfl⟩ : ∃ m, fuel = m + 1 := by
        refine ⟨fuel - 1, ?_⟩
        simp only [encMelStride, encChunkMel, encChunkOverlap] at hreached hend
        omega
      rw [chunkedLoop_stop]
      · refine .done ⟨hwhole.symm, ?_, rfl⟩
        rw [htotal, Nat.max_eq_right (not_le.mp hnone).le]
      · by_cases hdone : mel.length ≤ (k + 1) * encMelStride
        · exact .inl hdone
        · exact .inr (no_chunk_behind_last hdone)

/-- Frame by frame, the chunk and the index in it. -/
def positions (frames : List (ℕ × ChunkFrame ε)) : List (ℕ × ℕ) := frames.map fun f => (f.1, f.2.index)

/-- The rows of a chunk stand at its positions in order. -/
lemma positions_rows (c trunc a b : ℕ) :
    positions (rows enc mel c trunc a b) = (List.range' a (b - a)).map (Prod.mk c) := by
  unfold positions rows
  rw [List.map_map]
  rfl

/-- No frame is put out twice. -/
lemma nodup_positions : (positions (chunkedRows enc mel)).Nodup := by
  have hrows : ∀ c trunc a b, (positions (rows enc mel c trunc a b)).Nodup := by
    intro c trunc a b
    rw [positions_rows]
    exact List.Nodup.map (fun l l' hl => (Prod.mk.inj hl).2) List.nodup_range'
  have hchunk : ∀ {c trunc a b p}, p ∈ positions (rows enc mel c trunc a b) → p.1 = c := by
    intro c trunc a b p hp
    rw [positions_rows] at hp
    obtain ⟨l, -, rfl⟩ := List.mem_map.mp hp
    rfl
  have hcomplete : ∀ k, (positions (completeRows enc mel k)).Nodup ∧
      ∀ p ∈ positions (completeRows enc mel k), p.1 < k := by
    intro k
    induction k with
    | zero => exact ⟨List.nodup_nil, fun p hp => absurd hp List.not_mem_nil⟩
    | succ k ih =>
      rw [completeRows_succ, positions, List.map_append, List.nodup_append]
      refine ⟨⟨ih.1, hrows _ _ _ _, fun p hp q hq heq => ?_⟩, fun p hp => ?_⟩
      · have hlt := ih.2 p hp
        rw [heq, hchunk hq] at hlt
        exact Nat.lt_irrefl k hlt
      · rcases List.mem_append.mp hp with hp | hp
        · exact (ih.2 p hp).trans (Nat.lt_succ_self k)
        · rw [hchunk hp]
          exact Nat.lt_succ_self k
  obtain ⟨hnodup, hbelow⟩ := hcomplete (completeChunks mel.length)
  unfold chunkedRows
  rw [positions, List.map_append, List.nodup_append]
  refine ⟨hnodup, hrows _ _ _ _, fun p hp q hq heq => ?_⟩
  have hlt := hbelow p hp
  rw [heq, hchunk hq] at hlt
  exact Nat.lt_irrefl _ hlt

/-- **The reference stream puts out what the chunked encoder does.**  For every causal transformer, every
Mel whose number of frames is a multiple of 8 and every partition of it into pushes, a final push and a
finish, both encoders return.  If neither meets a lack of memory, the stream has accumulated the frames of
the chunked encoder: the same chunks, indices, RoPE offsets and values in the same order, none of them
twice, as many as `compute_total_enc_tokens` says, and none cut off by the buffer of that size. -/
theorem reference_stream_eq_chunked (enc : ChunkEncoder φ ε) (fails fails' : ℕ → Bool)
    (allocated : Bool) (parts : List (List φ)) (last : List φ)
    (htotal : 8 ∣ (parts.flatten ++ last).length) :
    ∃ es out ok ok', runCalls enc fails {} (partitionCalls last 0 parts) = some (es, ok) ∧
      runEncoderChunked enc fails' allocated (parts.flatten ++ last) = some (out, ok') ∧
      (ok = true → ok' = true ∨ parts.flatten ++ last = [] →
        es.encAccum = out.encoderOutput ∧ (positions es.encAccum).Nodup ∧
          (es.emitted : ℤ) = out.encWriteOffset ∧ es.encAccum.length = es.emitted ∧
          computeTotalEncTokens (parts.flatten ++ last).length = some out.encWriteOffset ∧
          out.clamped = false) ∧
      ((∀ n, fails n = false) → ok = true) ∧
      ((∀ n, fails' n = false) → allocated = true → parts.flatten ++ last ≠ [] → ok' = true) := by
  set mel := parts.flatten ++ last with hmel
  have hmod : mel.length % 8 = 0 := Nat.mod_eq_zero_of_dvd htotal
  obtain ⟨es, ok, hstream, hall, hruns⟩ : Outcome fails
      (fun es => es.encAccum = chunkedRows enc mel ∧ es.emitted = totalTokens mel.length)
      (runCalls enc fails {} (partitionCalls last 0 parts)) :=
    (arriving_init enc).parts parts last hmod
  have hcount : (chunkedRows enc mel).length = totalTokens mel.length := length_chunkedRows
  unfold runEncoderChunked
  rw [computeTotalEncTokens_eq, Option.bind_some]
  by_cases hempty : mel = []
  · -- the chunked encoder refuses a Mel without frames
    have hzero : totalTokens mel.length = 0 := by
      rw [hempty, List.length_nil, totalTokens_zero]
    have hnone : chunkedRows enc mel = [] := List.eq_nil_of_length_eq_zero (hcount.trans hzero)
    rw [hzero, if_pos (by decide)]
    refine ⟨es, {}, ok, false, hstream, rfl, fun hok _ => ?_, hruns, fun _ _ hne => absurd hempty hne⟩
    obtain ⟨haccum, hemitted⟩ := hall hok
    rw [hzero] at hemitted
    rw [haccum, hnone, hemitted]
    exact ⟨rfl, List.nodup_nil, rfl, rfl, rfl, rfl⟩
  have hpos : ¬ (totalTokens mel.length : ℤ) ≤ 0 := by
    have hlength := List.length_pos_iff.mpr hempty
    unfold totalTokens completeChunks chunkTokens
    simp only [encMelStride, encChunkMel, encChunkOverlap]
    omega
  rw [if_neg hpos]
  cases allocated with
  | false =>
    refine ⟨es, {}, ok, false, hstream, rfl, fun _ hok => ?_, hruns, fun _ hfalse => by cases hfalse⟩
    rcases hok with hfalse | hnone
    · cases hfalse
    · exact absurd hnone hempty
  | true =>
    rw [if_neg (by decide)]
    obtain ⟨out, ok', hbatch, hput, hruns'⟩ : Outcome fails' (AllPutOut enc mel)
        (chunkedLoop enc fails' mel (totalTokens mel.length) (mel.length + 1) {}) :=
      chunkedLoop_outcome (c := 0) (by omega) _ (Nat.zero_le _) (Nat.lt_succ_self _)
    refine ⟨es, out, ok, ok', hstream, hbatch, fun hok hok' => ?_, hruns, fun hnone _ _ => hruns' hnone⟩
    obtain ⟨haccum, hemitted⟩ := hall hok
    have hput := hput (hok'.resolve_right hempty)
    rw [haccum, hput.output, hput.offset, hemitted]
    exact ⟨rfl, nodup_positions, rfl, hcount, rfl, hput.fits⟩

/-- Eight Mel frames behind a complete chunk add the two last frames of a second one. -/
theorem reference_stream_eq_chunked_two_chunks : ∃ es out,
    runCalls (⟨fun _ _ seen => seen.length⟩ : ChunkEncoder Unit ℕ) (fun _ => false) {}
      (partitionCalls (List.replicate 8 ()) 0 [List.replicate 3000 ()]) = some (es, true) ∧
    runEncoderChunked ⟨fun _ _ seen => seen.length⟩ (fun _ => false) true
      ([List.replicate 3000 ()].flatten ++ List.replicate 8 ()) = some (out, true) ∧
    es.encAccum = out.encoderOutput ∧ es.encAccum.length = 1502 := by
  have hlength : ([List.replicate 3000 ()].flatten ++ List.replicate 8 ()).length = 3008 := by
    rw [List.flatten_singleton, List.length_append, List.length_replicate, List.length_replicate]
  have hne : [List.replicate 3000 ()].flatten ++ List.replicate 8 () ≠ [] := by
    intro hnil
    rw [hnil] at hlength
    cases hlength
  obtain ⟨es, out, ok, ok', hstream, hbatch, heq, hok, hok'⟩ := reference_stream_eq_chunked
    (⟨fun _ _ seen => seen.length⟩ : ChunkEncoder Unit ℕ) (fun _ => false) (fun _ => false) true
    [List.replicate 3000 ()] (List.replicate 8 ()) ⟨376, hlength⟩
  obtain rfl := hok fun _ => rfl
  obtain rfl := hok' (fun _ => rfl) rfl hne
  obtain ⟨haccum, -, hemitted, hcount, htotal, -⟩ := heq rfl (.inl rfl)
  refine ⟨es, out, hstream, hbatch, haccum, ?_⟩
  have htokens : totalTokens 3008 = 1502 := by decide
  rw [hlength, computeTotalEncTokens_eq, htokens] at htotal
  have hout := Option.some.inj htotal
  rw [hcount]
  omega

end Chunked

end Voxtral
