import Voxtral.Constants
import Voxtral.Lib.Narrowing
import Mathlib.Data.List.Basic

/-!
# The incremental Mel frontend

`voxtral-mel.cpp`: PCM arrives in arbitrary chunks, every Mel frame whose 400-sample window is
complete is computed at once, and only the tail of the PCM that later frames still read is kept.
`melFrontendFinish` computes the remaining frames with reflect padding at the final length.

The per-frame kernel `voxtral_mel_frame_from_window` is a parameter `kernel`; a Mel frame is a value
of `φ`.  Frame indices and sample counts are `int64_t` in the source and stay natural numbers here;
the window fill narrows them to `int32_t`, and that narrowing is modelled.  A read outside the
rolling buffer, like a reflection that does not terminate, has no defined result: it is `none`.
-/

namespace Voxtral

variable {α φ : Type*}

/-- `voxtral_reflect_index`, at most `fuel` iterations of its loop. -/
def reflectLoop : ℕ → ℤ → ℤ → Option ℤ
  | 0, _, _ => none
  | fuel + 1, idx, len =>
    if idx < 0 then reflectLoop fuel (narrow32 (-idx)) len
    else if len ≤ idx then reflectLoop fuel (narrow32 (2 * len - 2 - idx)) len
    else some idx

/-- `voxtral_reflect_index`: the reflect-padding index map of a signal of length `len`.  Two
iterations bring `idx` closer to the signal, so `|idx| + 2` of them are enough when the loop ends
at all. -/
def voxtralReflectIndex (idx len : ℤ) : Option ℤ :=
  if len ≤ 1 then some 0 else reflectLoop (idx.natAbs + 2) idx len

/-- State of `voxtral_mel_frontend`.  `windows` is a history variable: the 400 sample indices each
window fill resolved, one entry per computed frame. -/
structure MelFrontend (α φ : Type*) where
  /-- Rolling PCM buffer: the absolute samples `[pcmBase, pcmBase + pcm.length)`. -/
  pcm : List α := []
  pcmBase : ℕ := 0
  totalReceived : ℕ := 0
  nextFrame : ℕ := 0
  framesDuringFeed : ℕ := 0
  framesAtFinish : ℕ := 0
  dftFramesComputed : ℕ := 0
  pcmPeakRetained : ℕ := 0
  finalized : Bool := false
  /-- Retained Mel frames, the first one being frame `melBaseFrame`. -/
  melFrames : List φ := []
  melBaseFrame : ℕ := 0
  retainHistory : Bool := true
  windows : List (List ℤ) := []

/-- `frame_hi_index`: highest absolute sample index read by frame `f`. -/
def frameHiIndex (f : ℕ) : ℤ :=
  let directHi : ℤ := f * hopLength + (windowSize - 1) - melPad
  let lowestS : ℤ := f * hopLength - melPad
  let reflectHi : ℤ := if lowestS < 0 then -lowestS else directHi
  if directHi > reflectHi then directHi else reflectHi

/-- Frame `0` reaches one sample past its direct window through the left reflection. -/
lemma frameHiIndex_eq (f : ℕ) : frameHiIndex f = if f = 0 then 200 else 160 * (f : ℤ) + 199 := by
  unfold frameHiIndex hopLength melPad windowSize
  push_cast
  split_ifs <;> omega

/-- `frame_lo_index`: lowest absolute sample index any frame from `f` on reads directly. -/
def frameLoIndex (f : ℕ) : ℤ :=
  let lowestS : ℤ := f * hopLength - melPad
  if lowestS < 0 then 0 else lowestS

/-- The first index a frame reads, in natural numbers. -/
lemma frameLoIndex_eq (f : ℕ) : frameLoIndex f = ((160 * f - 200 : ℕ) : ℤ) := by
  unfold frameLoIndex hopLength melPad windowSize
  push_cast
  split_ifs <;> omega

/-- The sample index `fill_window` resolves for window position `i` of frame `f` against the
narrowed length `n`. -/
def windowIndex (f : ℕ) (n : ℤ) (i : ℕ) : Option ℤ :=
  let start := narrow32 (f * hopLength)
  let src := narrow32 (start + i - melPad)
  if 0 ≤ src ∧ src < n then some src else voxtralReflectIndex src n

/-- `data[(size_t) (ridx - base)]`: a negative offset converts to an index past every buffer. -/
def readPcm (fe : MelFrontend α φ) (ridx : ℤ) : Option α :=
  if ridx - fe.pcmBase < 0 then none else fe.pcm[(ridx - fe.pcmBase).toNat]?

/-- `fill_window`: the resolved sample indices of frame `f` against the length `n`, and the window
read through them. -/
def fillWindow (fe : MelFrontend α φ) (f : ℕ) (n : ℤ) : Option (List ℤ × List α) :=
  ((List.range windowSize).mapM (windowIndex f n)).bind fun idx =>
    (idx.mapM (readPcm fe)).bind fun window => some (idx, window)

/-- Store one computed frame (`compute_and_store_frame` after its window fill). -/
def storeFrame (fe : MelFrontend α φ) (row : φ) (idx : List ℤ) : MelFrontend α φ :=
  { fe with
    melFrames := fe.melFrames ++ [row]
    dftFramesComputed := fe.dftFramesComputed + 1
    windows := fe.windows ++ [idx] }

/-- At most `fuel` iterations of the loop of `emit_stable_frames`. -/
def emitStableLoop (kernel : List α → φ) : ℕ → MelFrontend α φ → Option (MelFrontend α φ)
  | 0, fe => some fe
  | fuel + 1, fe =>
    if frameHiIndex fe.nextFrame ≤ (fe.totalReceived : ℤ) - 1 then
      (fillWindow fe fe.nextFrame (narrow32 fe.totalReceived)).bind fun filled =>
        emitStableLoop kernel fuel
          { storeFrame fe (kernel filled.2) filled.1 with
            nextFrame := fe.nextFrame + 1
            framesDuringFeed := fe.framesDuringFeed + 1 }
    else some fe

/-- `emit_stable_frames`: compute every frame whose window lies within the received samples.  Frame
`f` reads past sample `f`, so there are at most `totalReceived` of them. -/
def emitStableFrames (kernel : List α → φ) (fe : MelFrontend α φ) : Option (MelFrontend α φ) :=
  emitStableLoop kernel fe.totalReceived fe

/-- `compact`: drop the samples no later frame reads. -/
def compact (fe : MelFrontend α φ) : MelFrontend α φ :=
  let keepFrom := (frameLoIndex fe.nextFrame).toNat
  let fe := if fe.pcmBase < keepFrom then
      { fe with pcm := fe.pcm.drop (keepFrom - fe.pcmBase), pcmBase := keepFrom }
    else fe
  { fe with pcmPeakRetained := max fe.pcmPeakRetained fe.pcm.length }

/-- Compaction leaves the next frame. -/
@[simp] lemma compact_nextFrame (fe : MelFrontend α φ) :
    (compact fe).nextFrame = fe.nextFrame := by
  simp only [compact]
  split_ifs <;> rfl

/-- Compaction leaves `finalized`. -/
@[simp] lemma compact_finalized (fe : MelFrontend α φ) :
    (compact fe).finalized = fe.finalized := by
  simp only [compact]
  split_ifs <;> rfl

/-- Compaction leaves the base of the history. -/
@[simp] lemma compact_melBaseFrame (fe : MelFrontend α φ) :
    (compact fe).melBaseFrame = fe.melBaseFrame := by
  simp only [compact]
  split_ifs <;> rfl

/-- Compaction leaves the choice to retain the history. -/
@[simp] lemma compact_retainHistory (fe : MelFrontend α φ) :
    (compact fe).retainHistory = fe.retainHistory := by
  simp only [compact]
  split_ifs <;> rfl

/-- `voxtral_mel_frontend_feed` with a non-null pointer; the Boolean is its return value. -/
def melFrontendFeed (kernel : List α → φ) (fe : MelFrontend α φ) (pcm : List α) :
    Option (Bool × MelFrontend α φ) :=
  if fe.finalized then some (false, fe)
  else if pcm = [] then some (true, fe)
  else
    (emitStableFrames kernel
      { fe with pcm := fe.pcm ++ pcm, totalReceived := fe.totalReceived + pcm.length }).map
      fun fe => (true, compact fe)

/-- `voxtral_mel_frontend_feed_silence`: `n` zero samples. -/
def melFrontendFeedSilence [Zero α] (kernel : List α → φ) (fe : MelFrontend α φ) (n : ℕ) :
    Option (Bool × MelFrontend α φ) :=
  melFrontendFeed kernel fe (List.replicate n 0)

/-- At most `fuel` iterations of the loop of `voxtral_mel_frontend_finish` up to frame `nTotal`. -/
def finishLoop (kernel : List α → φ) (nTotal : ℕ) :
    ℕ → MelFrontend α φ → Option (MelFrontend α φ)
  | 0, fe => some fe
  | fuel + 1, fe =>
    if fe.nextFrame < nTotal then
      (fillWindow fe fe.nextFrame (narrow32 fe.totalReceived)).bind fun filled =>
        finishLoop kernel nTotal fuel
          { storeFrame fe (kernel filled.2) filled.1 with
            nextFrame := fe.nextFrame + 1
            framesAtFinish := fe.framesAtFinish + 1 }
    else some fe

/-- `voxtral_mel_frontend_finish`: compute the remaining frames at the final length. -/
def melFrontendFinish (kernel : List α → φ) (fe : MelFrontend α φ) : Option (MelFrontend α φ) :=
  if fe.finalized then some fe
  else
    let nTotal := fe.totalReceived / hopLength
    (finishLoop kernel nTotal (nTotal - fe.nextFrame) { fe with finalized := true }).map
      fun fe => { fe with pcm := [], pcmBase := fe.totalReceived }

/-- `voxtral_mel_frontend_frame_data`: the retained frames from absolute frame `frame` on. -/
def melFrontendFrameData (fe : MelFrontend α φ) (frame : ℤ) : Option (List φ) :=
  if frame < fe.melBaseFrame ∨ (fe.nextFrame : ℤ) ≤ frame then none
  else
    let rel := frame - fe.melBaseFrame
    if rel < 0 ∨ (fe.melFrames.length : ℤ) ≤ rel then none
    else some (fe.melFrames.drop rel.toNat)

/-- `voxtral_mel_frontend_discard_before`. -/
def melFrontendDiscardBefore (fe : MelFrontend α φ) (frame : ℤ) : MelFrontend α φ :=
  if fe.retainHistory then fe
  else if frame ≤ fe.melBaseFrame then fe
  else
    let target := min frame (fe.melBaseFrame + fe.melFrames.length)
    let dropFrames := target - fe.melBaseFrame
    if dropFrames ≤ 0 then fe
    else { fe with melFrames := fe.melFrames.drop dropFrames.toNat, melBaseFrame := target.toNat }

/-- `voxtral_mel_frontend_set_retain_history`. -/
def melFrontendSetRetainHistory (fe : MelFrontend α φ) (retain : Bool) : MelFrontend α φ :=
  let fe := { fe with retainHistory := retain }
  if retain = false ∧ 0 < fe.melBaseFrame then { fe with melFrames := [] } else fe

/-- `voxtral_mel_frontend_reset`: everything but the history mode starts over. -/
def melFrontendReset (fe : MelFrontend α φ) : MelFrontend α φ :=
  { retainHistory := fe.retainHistory }

/-- A call on a Mel frontend. -/
inductive MelCall (α : Type*)
  | feed (pcm : List α)
  | feedSilence (n : ℕ)
  | finish
  | discardBefore (frame : ℤ)
  | setRetainHistory (retain : Bool)
  | reset

/-- Answer one call; a call without a return value answers `true`. -/
def melStep [Zero α] (kernel : List α → φ) (fe : MelFrontend α φ) :
    MelCall α → Option (MelFrontend α φ × Bool)
  | .feed pcm => (melFrontendFeed kernel fe pcm).map Prod.swap
  | .feedSilence n => (melFrontendFeedSilence kernel fe n).map Prod.swap
  | .finish => (melFrontendFinish kernel fe).map fun fe => (fe, true)
  | .discardBefore frame => some (melFrontendDiscardBefore fe frame, true)
  | .setRetainHistory retain => some (melFrontendSetRetainHistory fe retain, true)
  | .reset => some (melFrontendReset fe, true)

/-- The samples a call hands to the frontend. -/
def MelCall.samples [Zero α] : MelCall α → List α
  | .feed pcm => pcm
  | .feedSilence n => List.replicate n 0
  | _ => []

end Voxtral
