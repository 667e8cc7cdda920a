import Voxtral.Mel.Incremental
import Voxtral.Lib.FlatBuffer
import Voxtral.Lib.Runs
import Mathlib.Data.List.ProdSigma

/-!
# The batch spectrogram and its parity with the incremental frontend

`voxtral_mel_compute_batch` pads the whole signal by reflection once and cuts every window out of the
padded copy; `compute_mel_even` trims the result to an even number of frames.  Matrices are stored
bin by bin in a flat buffer.  A Mel frame is a vector of `numMelBins` values.

The length of the padded copy is computed in 32 bits, and for a signal of `2 ^ 31 - 400` samples or
more it comes out negative; the allocation of the copy then has no result.  Below that the
incremental frontend and the batch code agree.
-/

namespace Voxtral

variable {α β : Type*}

/-- A Mel frame: one value for each bin. -/
abbrev MelVector (β : Type*) := Fin numMelBins → β

/-- `voxtral_mel_batch_frame_count`. -/
def melBatchFrameCount (nSamples : ℤ) : ℤ :=
  if nSamples ≤ 0 then 0
  else
    let nStftFrames := nSamples / hopLength + 1
    let nFrames := nStftFrames - 1
    if 0 < nFrames then nFrames else 0

/-- The sample stored at index `i` of the reflect-padded copy. -/
def centeredSample (audio : List α) (i : ℕ) : Option α :=
  let src : ℤ := i - melPad
  let ridx := if 0 ≤ src ∧ src < audio.length then some src
    else voxtralReflectIndex src audio.length
  ridx.bind fun r => if r < 0 then none else audio[r.toNat]?

/-- `voxtral_mel_compute_batch` on a signal whose length an `int32_t` can hold: the frame count and
the output buffer. -/
def melComputeBatch (kernel : List α → MelVector β) (audio : List α) (melOut : ℕ → β) :
    Option (ℤ × (ℕ → β)) :=
  let nFrames := melBatchFrameCount audio.length
  if nFrames ≤ 0 then some (nFrames, melOut)
  else
    let centeredLen := narrow32 (audio.length + 2 * melPad)
    -- `std::vector<float> centered((size_t) centered_len)` throws on a negative length
    if centeredLen < 0 then none
    else
      ((List.range centeredLen.toNat).mapM (centeredSample audio)).bind fun centered =>
        some (nFrames,
          writeEach (List.range nFrames.toNat ×ˢ List.finRange numMelBins)
            (fun p => p.2 * nFrames.toNat + p.1)
            (fun p => kernel ((centered.drop (p.1 * hopLength)).take windowSize) p.2) melOut)

/-- `compute_mel_even`: the batch matrix, its first frame dropped when the count is odd. -/
def computeMelEven [Zero β] (kernel : List α → MelVector β) (audio : List α) :
    Option (ℤ × (ℕ → β)) :=
  (melComputeBatch kernel audio fun _ => 0).bind fun r =>
    if r.1 % 2 ≠ 0 then some (r.1 - 1, closeGaps numMelBins r.1.toNat r.2) else some r

/-- `voxtral_mel_frontend_assemble_even`. -/
def melFrontendAssembleEven [Zero β] (fe : MelFrontend α (MelVector β)) :
    Option (ℤ × (ℕ → β)) :=
  if fe.melBaseFrame ≠ 0 then some (0, fun _ => 0)
  else
    let nTotal := narrow32 fe.nextFrame
    let nOut := if nTotal % 2 ≠ 0 then nTotal - 1 else nTotal
    if nOut ≤ 0 then some (nOut, fun _ => 0)
    else
      let frames := fe.melFrames.drop (if nTotal % 2 ≠ 0 then 1 else 0)
      if frames.length < nOut.toNat then none
      else
        some (nOut,
          writeEach (List.finRange numMelBins ×ˢ List.range nOut.toNat)
            (fun p => p.1 * nOut.toNat + p.2)
            (fun p => (frames[p.2]?.getD fun _ => 0) p.1) fun _ => 0)

/-! ## The batch matrix -/

/-- The batch code counts the frames of a finished signal. -/
lemma melBatchFrameCount_eq (n : ℕ) : melBatchFrameCount n = finalFrameCount n := by
  unfold melBatchFrameCount finalFrameCount hopLength
  push_cast
  split_ifs <;> omega

/-- The sample at index `i` of the reflect-padded copy in exact arithmetic. -/
def paddedSample [Zero α] (audio : List α) (i : ℕ) : α :=
  audio.getD (mirror audio.length ((i : ℤ) - 200)).toNat 0

/-- The padded copy repeats the mirrored samples. -/
lemma centeredSample_eq_mirror [Zero α] {audio : List α} (hpos : 0 < audio.length)
    (hn31 : (audio.length : ℤ) < 2 ^ 31 - 400) {i : ℕ} (hi : i < audio.length + 400) :
    centeredSample audio i = some (paddedSample audio i) := by
  have hmem := mirror_mem hpos ((i : ℤ) - 200)
  have hread : ∀ r : ℤ, r = mirror audio.length ((i : ℤ) - 200) →
      (if r < 0 then none else audio[r.toNat]?) = some (paddedSample audio i) := by
    rintro r rfl
    rw [paddedSample, if_neg (by omega), List.getElem?_eq_getElem (by omega),
      List.getD_eq_getElem _ _ (by omega)]
  have hpad : ((melPad : ℕ) : ℤ) = 200 := by simp
  simp only [centeredSample, hpad]
  split_ifs with hin
  · rw [Option.bind_some]
    exact hread _ (mirror_of_mem hin.1 hin.2).symm
  · rw [voxtralReflectIndex_eq_mirror (by omega) (by omega) (by omega), Option.bind_some]
    exact hread _ rfl

/-- A window cut out of the padded copy is the exact window. -/
lemma window_of_centered [Zero α] (audio : List α) {f : ℕ} (hf : 160 * f + 160 ≤ audio.length) :
    (((List.range (audio.length + 400)).map (paddedSample audio)).drop (f * hopLength)).take
      windowSize = exactWindow audio f := by
  have hhop : f * hopLength = 160 * f := by simp [mul_comm]
  apply List.ext_getElem
  · simp only [hhop, windowSize, exactWindow, exactIndices, List.length_take, List.length_drop,
      List.length_map, List.length_range]
    omega
  · intro i h1 h2
    simp only [List.getElem_take, List.getElem_drop, List.getElem_map, List.getElem_range,
      exactWindow, exactIndices, exactIndex, paddedSample, hhop]
    push_cast
    rfl

/-- Below `2 ^ 31 - 400` samples entry `(m, f)` of the batch matrix is bin `m` of frame `f`. -/
theorem melComputeBatch_entries [Zero α] (kernel : List α → MelVector β) {audio : List α}
    (hn31 : (audio.length : ℤ) < 2 ^ 31 - 400) (melOut : ℕ → β) :
    ∃ out, melComputeBatch kernel audio melOut = some ((finalFrameCount audio.length : ℤ), out) ∧
      ∀ (m : Fin numMelBins) (f : ℕ), f < finalFrameCount audio.length →
        out (m * finalFrameCount audio.length + f) = melRow kernel audio f m := by
  simp only [melComputeBatch, melBatchFrameCount_eq, Int.toNat_natCast]
  by_cases h0 : (finalFrameCount audio.length : ℤ) ≤ 0
  · rw [if_pos h0]
    exact ⟨melOut, rfl, fun m f hf => by omega⟩
  · rw [if_neg h0]
    have hpos : 160 ≤ audio.length := by
      unfold finalFrameCount at h0
      omega
    have hlen : narrow32 (audio.length + 2 * melPad) = (audio.length + 400 : ℕ) := by
      rw [narrow32_of_fits] <;> simp <;> omega
    have hcentered : (List.range (audio.length + 400)).mapM (centeredSample audio) =
        some ((List.range (audio.length + 400)).map (paddedSample audio)) := by
      apply mapM_eq_some_map
      intro i hi
      exact centeredSample_eq_mirror (by omega) (by omega) (List.mem_range.mp hi)
    rw [hlen, if_neg (by omega), Int.toNat_natCast, hcentered, Option.bind_some]
    refine ⟨_, rfl, fun m f hf => ?_⟩
    have hmem : (f, m) ∈ List.range (finalFrameCount audio.length) ×ˢ List.finRange numMelBins :=
      List.mem_product.mpr ⟨List.mem_range.mpr hf, List.mem_finRange m⟩
    refine (writeEach_of_mem melOut hmem ?_).trans ?_
    · rintro ⟨f', m'⟩ hmem' hkey
      have hf' : f' < finalFrameCount audio.length := List.mem_range.mp (List.mem_product.mp hmem').1
      obtain ⟨rfl, hm⟩ := matrixKey_inj hf' hf hkey
      rw [Fin.ext hm]
    · have hframe : 160 * f + 160 ≤ audio.length := by
        unfold finalFrameCount at hf
        omega
      simp only [melRow, window_of_centered audio hframe]

/-- From `2 ^ 31 - 400` samples on the padded copy cannot be allocated. -/
theorem melComputeBatch_eq_none (kernel : List α → MelVector β) {audio : List α}
    (hlo : 2 ^ 31 - 400 ≤ (audio.length : ℤ)) (hhi : (audio.length : ℤ) < 2 ^ 31)
    (melOut : ℕ → β) : melComputeBatch kernel audio melOut = none := by
  have hlen : narrow32 (audio.length + 2 * melPad) < 0 := by
    rw [narrow32_of_overflow] <;> simp <;> omega
  have hframes : ¬ (finalFrameCount audio.length : ℤ) ≤ 0 := by
    unfold finalFrameCount
    omega
  simp only [melComputeBatch, melBatchFrameCount_eq]
  rw [if_neg hframes, if_pos hlen]

/-! ## The even matrices -/

/-- The frame an even-trimmed matrix of `n` frames has in column `j`. -/
def evenFrame (n j : ℕ) : ℕ := j + n % 2

/-- The number of frames of an even-trimmed matrix. -/
def evenCount (n : ℕ) : ℕ := n - n % 2

/-- The trimmed batch matrix holds the frames of the signal, without the first one when their number
is odd. -/
lemma computeMelEven_entries [Zero α] [Zero β] (kernel : List α → MelVector β) {audio : List α}
    (hn31 : (audio.length : ℤ) < 2 ^ 31 - 400) :
    ∃ out, computeMelEven kernel audio =
        some ((evenCount (finalFrameCount audio.length) : ℤ), out) ∧
      ∀ (m : Fin numMelBins) (j : ℕ), j < evenCount (finalFrameCount audio.length) →
        out (m * evenCount (finalFrameCount audio.length) + j) =
          melRow kernel audio (evenFrame (finalFrameCount audio.length) j) m := by
  obtain ⟨out, hbatch, hentry⟩ := melComputeBatch_entries kernel hn31 fun _ => 0
  unfold computeMelEven
  rw [hbatch, Option.bind_some]
  rcases Nat.mod_two_eq_zero_or_one (finalFrameCount audio.length) with heven | hodd
  · have hcount : evenCount (finalFrameCount audio.length) = finalFrameCount audio.length := by
      unfold evenCount
      omega
    rw [if_neg (by simp only; omega), hcount]
    refine ⟨out, rfl, fun m j hj => ?_⟩
    rw [hentry m j hj, evenFrame, heven, Nat.add_zero]
  · have hcount : evenCount (finalFrameCount audio.length) = finalFrameCount audio.length - 1 := by
      unfold evenCount
      omega
    rw [if_pos (by simp only; omega), hcount]
    refine ⟨closeGaps numMelBins (finalFrameCount audio.length) out, ?_, fun m j hj => ?_⟩
    · congr 2
      omega
    · rw [closeGaps_entry out m.2 hj, add_assoc, hentry m (1 + j) (by omega), evenFrame, hodd,
        Nat.add_comm]

/-- The assembled matrix of a complete frontend that kept its history holds the same frames. -/
lemma melFrontendAssembleEven_entries [Zero α] [Zero β] {kernel : List α → MelVector β}
    {sig : List α} {fe : MelFrontend α (MelVector β)} (h : MelComplete kernel sig fe)
    (hbase : fe.melBaseFrame = 0) (hn31 : (sig.length : ℤ) < 2 ^ 31) :
    ∃ out, melFrontendAssembleEven fe =
        some ((evenCount (finalFrameCount sig.length) : ℤ), out) ∧
      ∀ (m : Fin numMelBins) (j : ℕ), j < evenCount (finalFrameCount sig.length) →
        out (m * evenCount (finalFrameCount sig.length) + j) =
          melRow kernel sig (evenFrame (finalFrameCount sig.length) j) m := by
  have hnarrow : narrow32 fe.nextFrame = (finalFrameCount sig.length : ℤ) := by
    rw [h.next]
    unfold finalFrameCount
    exact narrow32_of_fits (by omega) (by omega)
  have hframes : fe.melFrames = (List.range (finalFrameCount sig.length)).map (melRow kernel sig) := by
    rw [h.frames, hbase, h.next, Nat.sub_zero, List.range_eq_range']
  have hnout : (if (finalFrameCount sig.length : ℤ) % 2 ≠ 0 then
      (finalFrameCount sig.length : ℤ) - 1 else finalFrameCount sig.length) =
      (evenCount (finalFrameCount sig.length) : ℤ) := by
    unfold evenCount
    split_ifs <;> omega
  have hoff : (if (finalFrameCount sig.length : ℤ) % 2 ≠ 0 then 1 else 0) =
      finalFrameCount sig.length % 2 := by
    split_ifs <;> omega
  have hlen : ((fe.melFrames.drop (finalFrameCount sig.length % 2)).length) =
      evenCount (finalFrameCount sig.length) := by
    rw [hframes, List.length_drop, List.length_map, List.length_range, evenCount]
  simp only [melFrontendAssembleEven, hbase, hnarrow, hnout, hoff, hlen, Int.toNat_natCast,
    ne_eq, not_true_eq_false, if_false, lt_irrefl]
  split_ifs with h0
  · exact ⟨_, rfl, fun m j hj => by omega⟩
  · refine ⟨_, rfl, fun m j hj => ?_⟩
    have hmem : (m, j) ∈ List.finRange numMelBins ×ˢ
        List.range (evenCount (finalFrameCount sig.length)) :=
      List.mem_product.mpr ⟨List.mem_finRange m, List.mem_range.mpr hj⟩
    refine (writeEach_of_mem (fun _ => 0) hmem ?_).trans ?_
    · rintro ⟨m', j'⟩ hmem' hkey
      have hj' := List.mem_range.mp (List.mem_product.mp hmem').2
      obtain ⟨rfl, hm⟩ := matrixKey_inj hj' hj hkey
      rw [Fin.ext hm]
    · have hidx : finalFrameCount sig.length % 2 + j < finalFrameCount sig.length := by
        unfold evenCount at hj
        omega
      simp only [hframes, ← List.map_drop]
      rw [List.getElem?_map, List.getElem?_drop, List.getElem?_range hidx, Option.map_some,
        Option.getD_some, evenFrame, Nat.add_comm]

/-! ## Parity -/

/-- A call that hands samples to the frontend. -/
def MelCall.IsFeed : MelCall α → Prop
  | .feed _ => True
  | .feedSilence _ => True
  | _ => False

/-- Feeds keep a frontend ready, for the signal they add up to. -/
lemma melStep_feeds_ready [Zero α] {φ : Type*} {kernel : List α → φ} {calls : List (MelCall α)}
    (hfeeds : ∀ c ∈ calls, c.IsFeed) {sig : List α} {fe : MelFrontend α φ}
    (h : MelReady kernel sig fe)
    (hn31 : ((sig ++ calls.flatMap MelCall.samples).length : ℤ) < 2 ^ 31) :
    ∃ fe' os, runSteps (melStep kernel) fe calls = some (fe', os) ∧
      MelReady kernel (sig ++ calls.flatMap MelCall.samples) fe' ∧
      fe'.melBaseFrame = fe.melBaseFrame := by
  induction calls generalizing sig fe with
  | nil => exact ⟨fe, [], rfl, by simpa using h, rfl⟩
  | cons c calls ih =>
    have hsplit : sig ++ (c :: calls).flatMap MelCall.samples =
        (sig ++ c.samples) ++ calls.flatMap MelCall.samples := by
      rw [List.flatMap_cons, List.append_assoc]
    rw [hsplit] at hn31 ⊢
    have hfits : ((sig ++ c.samples).length : ℤ) < 2 ^ 31 := by
      rw [List.length_append] at hn31
      omega
    obtain ⟨fe₁, hfeed, hready, hbase, _⟩ := melFrontendFeed_ready h c.samples (Or.inl hfits)
    have hstep : melStep kernel fe c = some (fe₁, true) := by
      cases c with
      | feed pcm => rw [melStep, show pcm = (MelCall.feed pcm).samples from rfl, hfeed]; rfl
      | feedSilence n =>
        rw [melStep, melFrontendFeedSilence,
          show List.replicate n (0 : α) = (MelCall.feedSilence n).samples from rfl, hfeed]
        rfl
      | _ => exact absurd (hfeeds _ List.mem_cons_self) (by simp [MelCall.IsFeed])
    obtain ⟨fe', os, hrun, hready', hbase'⟩ :=
      ih (fun c' hc' => hfeeds c' (List.mem_cons_of_mem c hc')) hready hn31
    exact ⟨fe', true :: os, runSteps_cons_eq_some.mpr ⟨fe₁, true, os, hstep, hrun, rfl⟩, hready',
      hbase'.trans hbase⟩

/-- The frontend fed by `calls` and then finished, history retained, yields the frames of the batch
code on the whole signal, the even matrix of `compute_mel_even`, and computed every frame once. -/
def MelParity [Zero α] [Zero β] (kernel : List α → MelVector β) (calls : List (MelCall α)) : Prop :=
  ∃ fe os nBatch nEven even assembled,
    runSteps (melStep kernel) {} (calls ++ [.finish]) = some (fe, os) ∧
    (∀ melOut, ∃ batch,
      melComputeBatch kernel (calls.flatMap MelCall.samples) melOut = some (nBatch, batch) ∧
      ∀ (m : Fin numMelBins) (f : ℕ) (hf : f < fe.melFrames.length),
        batch (m * fe.melFrames.length + f) = fe.melFrames[f] m) ∧
    nBatch = fe.melFrames.length ∧
    computeMelEven kernel (calls.flatMap MelCall.samples) = some (nEven, even) ∧
    melFrontendAssembleEven fe = some (nEven, assembled) ∧
    (∀ (m : Fin numMelBins) (j : ℕ), (j : ℤ) < nEven →
      assembled (m * nEven.toNat + j) = even (m * nEven.toNat + j)) ∧
    fe.windows.length = fe.melFrames.length ∧ fe.dftFramesComputed = fe.melFrames.length

/-- Below `2 ^ 31 - 400` samples the incremental frontend agrees with the batch code. -/
lemma melParity_of_short [Zero α] [Zero β] (kernel : List α → MelVector β)
    {calls : List (MelCall α)} (hfeeds : ∀ c ∈ calls, c.IsFeed)
    (hlen : ((calls.flatMap MelCall.samples).length : ℤ) < 2 ^ 31 - 400) :
    MelParity kernel calls := by
  set sig := calls.flatMap MelCall.samples with hsig
  have hinit : MelReady kernel ([] : List α) {} := melReady_init true
  obtain ⟨fe, os, hrun, hready, hbase⟩ := melStep_feeds_ready hfeeds hinit
    (by rw [List.nil_append, ← hsig]; omega)
  rw [List.nil_append, ← hsig] at hready
  obtain ⟨fe', hfinish, hcomplete, hbase', _⟩ := melFrontendFinish_complete hready (by omega)
  obtain ⟨even, heven, hevenEntry⟩ := computeMelEven_entries kernel hlen
  obtain ⟨assembled, hasm, hasmEntry⟩ :=
    melFrontendAssembleEven_entries hcomplete (hbase'.trans hbase) (by omega)
  have hframes : fe'.melFrames = (List.range (finalFrameCount sig.length)).map (melRow kernel sig) := by
    rw [hcomplete.frames, hbase'.trans hbase, hcomplete.next, Nat.sub_zero, List.range_eq_range']
  have hcount : fe'.melFrames.length = finalFrameCount sig.length := by
    rw [hframes, List.length_map, List.length_range]
  refine ⟨fe', os ++ [true], _, _, even, assembled, ?_, ?_, by rw [hcount], heven, hasm, ?_, ?_, ?_⟩
  · refine runSteps_append.mpr ⟨fe, os, [true], hrun, ?_, rfl⟩
    exact runSteps_cons_eq_some.mpr ⟨fe', true, [], by rw [melStep, hfinish]; rfl, rfl, rfl⟩
  · intro melOut
    obtain ⟨batch, hbatch, hentry⟩ := melComputeBatch_entries kernel hlen melOut
    refine ⟨batch, hbatch, fun m f hf => ?_⟩
    have hf' : f < finalFrameCount sig.length := hcount ▸ hf
    have hrow : fe'.melFrames[f] = melRow kernel sig f := by
      simp only [hframes, List.getElem_map, List.getElem_range]
    rw [hcount, hentry m f hf', hrow]
  · intro m j hj
    have hj' : j < evenCount (finalFrameCount sig.length) := by exact_mod_cast hj
    rw [Int.toNat_natCast, hasmEntry m j hj', hevenEntry m j hj']
  · rw [hcomplete.windows, hcount, List.length_map, List.length_range, hcomplete.next]
  · rw [hcomplete.computed, hcount, hcomplete.next]

/-- From `2 ^ 31 - 400` samples on the batch code has no result to agree with. -/
lemma not_melParity_of_long [Zero α] [Zero β] (kernel : List α → MelVector β)
    {calls : List (MelCall α)} (hlo : 2 ^ 31 - 400 ≤ ((calls.flatMap MelCall.samples).length : ℤ))
    (hhi : ((calls.flatMap MelCall.samples).length : ℤ) < 2 ^ 31) : ¬ MelParity kernel calls := by
  rintro ⟨_, _, _, _, _, _, -, hbatch, -⟩
  obtain ⟨batch, hsome, -⟩ := hbatch fun _ => 0
  rw [melComputeBatch_eq_none kernel hlo hhi] at hsome
  exact absurd hsome (by simp)

/-- **Incremental Mel equals batch Mel** exactly for the signals shorter than `2 ^ 31 - 400`
samples. -/
theorem melParity_iff [Zero α] [Zero β] (kernel : List α → MelVector β) (calls : List (MelCall α))
    (hfeeds : ∀ c ∈ calls, c.IsFeed)
    (hlen : ((calls.flatMap MelCall.samples).length : ℤ) < 2 ^ 31) :
    MelParity kernel calls ↔ ((calls.flatMap MelCall.samples).length : ℤ) < 2 ^ 31 - 400 := by
  constructor
  · intro hparity
    by_contra hlong
    exact not_melParity_of_long kernel (not_lt.mp hlong) hlen hparity
  · exact melParity_of_short kernel hfeeds

/-- A signal of four frames in three feeds. -/
theorem melParity_iff_small :
    MelParity (fun (w : List ℤ) _ => w.sum)
        [.feed (List.replicate 300 3), .feedSilence 40, .feed (List.replicate 301 (-1))] ∧
      finalFrameCount (300 + 40 + 301) = 4 := by
  have hlength : (([.feed (List.replicate 300 3), .feedSilence 40, .feed (List.replicate 301 (-1))] :
      List (MelCall ℤ)).flatMap MelCall.samples).length = 641 := by
    simp only [List.flatMap_cons, List.flatMap_nil, MelCall.samples, List.length_append, List.length_replicate,
      List.length_nil, Nat.reduceAdd]
  refine ⟨(melParity_iff _ _ ?_ (by rw [hlength]; decide)).mpr (by rw [hlength]; decide), by decide⟩
  simp only [List.forall_mem_cons, MelCall.IsFeed, List.not_mem_nil, false_implies, implies_true, and_self]

/-- The samples of a single feed of silence. -/
lemma length_samples_feedSilence (n : ℕ) :
    (([.feedSilence n] : List (MelCall ℤ)).flatMap MelCall.samples).length = n := by
  rw [List.flatMap_singleton, MelCall.samples, List.length_replicate]

/-- A silent signal of `2 ^ 31 - 400` samples has no batch spectrogram. -/
theorem melParity_fails_at_long_silence :
    ¬ ∀ calls : List (MelCall ℤ), (∀ c ∈ calls, c.IsFeed) →
      ((calls.flatMap MelCall.samples).length : ℤ) < 2 ^ 31 →
        MelParity (fun w _ => w.sum) calls := by
  intro hall
  obtain ⟨n, hn⟩ : ∃ n : ℕ, (n : ℤ) = 2 ^ 31 - 400 := ⟨2147483248, by norm_num⟩
  have hlen := length_samples_feedSilence n
  have hfeeds : ∀ c ∈ ([.feedSilence n] : List (MelCall ℤ)), c.IsFeed := by
    intro c hc
    rw [List.mem_singleton.mp hc]
    trivial
  exact not_melParity_of_long _ (by omega) (by omega) (hall _ hfeeds (by omega))

end Voxtral
