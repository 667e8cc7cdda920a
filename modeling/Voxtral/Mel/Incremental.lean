import Voxtral.Mel.Window

/-!
# What the incremental frontend computes

`stableFrameCount n` is the number of frames whose window lies within the first `n` samples.  The
loops of the frontend compute the frames up to it (during a feed) or up to `n / 160` (at the end),
each from the exact window of the signal received so far.

## Main statements

* `melFrontendFeed_ready`: a feed keeps the frontend in step with the received signal.
* `melFrontendFinish_complete`: the finish completes the frames of the signal.
* `melFrontendFeed_overflow`: a feed that completes a frame past `2 ^ 31` samples has no result.
-/

namespace Voxtral

variable {α φ : Type*}

/-- The number of frames whose window lies within the first `n` samples. -/
def stableFrameCount (n : ℕ) : ℕ := if n < 201 then 0 else (n - 200) / 160 + 1

/-- The number of Mel frames of a complete signal of `n` samples. -/
def finalFrameCount (n : ℕ) : ℕ := n / 160

/-- More samples make no fewer stable frames. -/
lemma stableFrameCount_mono {n m : ℕ} (h : n ≤ m) : stableFrameCount n ≤ stableFrameCount m := by
  unfold stableFrameCount
  split_ifs <;> omega

/-- The stable frames are among the final ones. -/
lemma stableFrameCount_le_final (n : ℕ) : stableFrameCount n ≤ finalFrameCount n := by
  unfold stableFrameCount finalFrameCount
  split_ifs <;> omega

/-- The loop condition of `emit_stable_frames` asks for a frame below the stable count. -/
lemma frameHiIndex_le_iff (f n : ℕ) : frameHiIndex f ≤ (n : ℤ) - 1 ↔ f < stableFrameCount n := by
  rw [frameHiIndex_eq, stableFrameCount]
  split_ifs <;> omega

/-- A stable frame's window is complete. -/
lemma stable_of_lt_count {f n : ℕ} (h : f < stableFrameCount n) :
    160 * f + 200 ≤ n ∧ 201 ≤ n := by
  unfold stableFrameCount at h
  split_ifs at h <;> omega

/-- The Mel frame `f` of the signal `sig`. -/
def melRow [Zero α] (kernel : List α → φ) (sig : List α) (f : ℕ) : φ := kernel (exactWindow sig f)

/-- More samples do not change a stable frame. -/
lemma melRow_append [Zero α] (kernel : List α → φ) (sig more : List α) {f : ℕ}
    (hf : f < stableFrameCount sig.length) :
    melRow kernel (sig ++ more) f = melRow kernel sig f := by
  obtain ⟨hwin, hlen⟩ := stable_of_lt_count hf
  rw [melRow, melRow, exactWindow_append sig more hwin hlen]

/-- The computed frames are those of the signal `sig`, each computed once, and the rolling buffer
holds the signal from `pcmBase` on. -/
structure MelTracks [Zero α] (kernel : List α → φ) (sig : List α) (fe : MelFrontend α φ) :
    Prop where
  total : fe.totalReceived = sig.length
  pcm : fe.pcm = sig.drop fe.pcmBase
  melBase_le : fe.melBaseFrame ≤ fe.nextFrame
  /-- The retained frames are the last computed ones. -/
  frames : fe.melFrames =
    (List.range' fe.melBaseFrame (fe.nextFrame - fe.melBaseFrame)).map (melRow kernel sig)
  /-- Every window fill resolved the exact indices. -/
  windows : fe.windows = (List.range fe.nextFrame).map (exactIndices sig.length)
  computed : fe.dftFramesComputed = fe.nextFrame
  counted : fe.framesDuringFeed + fe.framesAtFinish = fe.nextFrame

/-- Between two calls before the finish, exactly the stable frames are computed, and the buffer
starts where the next frame starts to read. -/
structure MelReady [Zero α] (kernel : List α → φ) (sig : List α) (fe : MelFrontend α φ) : Prop
    extends MelTracks kernel sig fe where
  next : fe.nextFrame = stableFrameCount sig.length
  base : fe.pcmBase = 160 * fe.nextFrame - 200
  live : fe.finalized = false

/-- After the finish, all frames of the signal are computed. -/
structure MelComplete [Zero α] (kernel : List α → φ) (sig : List α) (fe : MelFrontend α φ) : Prop
    extends MelTracks kernel sig fe where
  next : fe.nextFrame = finalFrameCount sig.length
  closed : fe.finalized = true

section Steps

variable [Zero α] {kernel : List α → φ} {sig : List α} {fe : MelFrontend α φ}

/-- A frontend that received nothing is ready. -/
lemma melReady_init (retain : Bool) :
    MelReady kernel ([] : List α) ({ retainHistory := retain } : MelFrontend α φ) where
  total := rfl
  pcm := rfl
  melBase_le := le_rfl
  frames := rfl
  windows := rfl
  computed := rfl
  counted := rfl
  next := by simp [stableFrameCount]
  base := by simp
  live := rfl

/-- The frame after the computed ones may be stored; `during` and `finish` are the new counters. -/
lemma MelTracks.store (h : MelTracks kernel sig fe) (during finish : ℕ)
    (hcount : during + finish = fe.nextFrame + 1) :
    MelTracks kernel sig
      { storeFrame fe (melRow kernel sig fe.nextFrame) (exactIndices sig.length fe.nextFrame) with
        nextFrame := fe.nextFrame + 1
        framesDuringFeed := during
        framesAtFinish := finish } where
  total := h.total
  pcm := h.pcm
  melBase_le := h.melBase_le.trans (Nat.le_succ _)
  frames := by
    have hle := h.melBase_le
    have hsucc : fe.nextFrame + 1 - fe.melBaseFrame = fe.nextFrame - fe.melBaseFrame + 1 := by omega
    have hlast : fe.melBaseFrame + (fe.nextFrame - fe.melBaseFrame) = fe.nextFrame := by omega
    simp only [storeFrame, h.frames, hsucc]
    rw [List.range'_1_concat, List.map_append, hlast]
    rfl
  windows := by
    simp only [storeFrame, h.windows]
    rw [List.range_succ, List.map_append]
    rfl
  computed := by simp only [storeFrame, h.computed]
  counted := hcount

/-- The window of a frame the buffer still covers is filled exactly. -/
lemma MelTracks.fillWindow_next (h : MelTracks kernel sig fe)
    (hn31 : (sig.length : ℤ) < 2 ^ 31) (hbase : fe.pcmBase ≤ 160 * fe.nextFrame - 200)
    (hf : fe.nextFrame < finalFrameCount sig.length) :
    fillWindow fe fe.nextFrame (narrow32 fe.totalReceived) =
      some (exactIndices sig.length fe.nextFrame, exactWindow sig fe.nextFrame) := by
  unfold finalFrameCount at hf
  rw [h.total]
  exact fillWindow_eq_exact h.pcm hn31 (by omega) hbase

/-- The loop of `emit_stable_frames` computes the frames up to the stable count. -/
lemma emitStableLoop_tracks (fuel : ℕ) (h : MelTracks kernel sig fe)
    (hn31 : fe.nextFrame < stableFrameCount sig.length → (sig.length : ℤ) < 2 ^ 31)
    (hbase : fe.pcmBase ≤ 160 * fe.nextFrame - 200)
    (hnext : fe.nextFrame ≤ stableFrameCount sig.length)
    (hfuel : stableFrameCount sig.length ≤ fe.nextFrame + fuel) :
    ∃ fe', emitStableLoop kernel fuel fe = some fe' ∧ MelTracks kernel sig fe' ∧
      fe'.nextFrame = stableFrameCount sig.length ∧ fe'.pcmBase = fe.pcmBase ∧
      fe'.finalized = fe.finalized ∧ fe'.melBaseFrame = fe.melBaseFrame ∧
      fe'.retainHistory = fe.retainHistory := by
  induction fuel generalizing fe with
  | zero => exact ⟨fe, rfl, h, by omega, rfl, rfl, rfl, rfl⟩
  | succ fuel ih =>
    rw [emitStableLoop, h.total]
    rcases lt_or_ge fe.nextFrame (stableFrameCount sig.length) with hlt | hge
    · have hfill := h.fillWindow_next (hn31 hlt) hbase (hlt.trans_le (stableFrameCount_le_final _))
      rw [h.total] at hfill
      rw [if_pos ((frameHiIndex_le_iff _ _).mpr hlt), hfill, Option.bind_some]
      have hstore := h.store (fe.framesDuringFeed + 1) fe.framesAtFinish
        (by have := h.counted; omega)
      obtain ⟨fe', hrun, htracks, hn, hb, hfin, hmb, hr⟩ :=
        ih hstore (fun _ => hn31 hlt) (by simp only [storeFrame]; omega) hlt (by simp only; omega)
      exact ⟨fe', hrun, htracks, hn, hb, hfin, hmb, hr⟩
    · rw [if_neg (fun hle => absurd ((frameHiIndex_le_iff _ _).mp hle) (not_lt.mpr hge))]
      exact ⟨fe, rfl, h, le_antisymm hnext hge, rfl, rfl, rfl, rfl⟩

omit [Zero α] in
/-- Past the 32-bit range the first iteration of the loop has no result. -/
lemma emitStableFrames_eq_none (hlo : 2 ^ 31 ≤ fe.totalReceived) (hhi : fe.totalReceived < 2 ^ 32)
    (hbase : 0 < fe.pcmBase)
    (hcond : frameHiIndex fe.nextFrame ≤ (fe.totalReceived : ℤ) - 1) :
    emitStableFrames kernel fe = none := by
  obtain ⟨fuel, hfuel⟩ : ∃ fuel, fe.totalReceived = fuel + 1 := ⟨fe.totalReceived - 1, by omega⟩
  have hnone : emitStableLoop kernel (fuel + 1) fe = none := by
    rw [emitStableLoop, if_pos hcond, fillWindow_eq_none hlo hhi hbase, Option.bind_none]
  rw [emitStableFrames, hfuel, hnone]

/-- The loop of `voxtral_mel_frontend_finish` computes all frames of the signal. -/
lemma finishLoop_tracks (fuel : ℕ) (h : MelTracks kernel sig fe)
    (hn31 : (sig.length : ℤ) < 2 ^ 31) (hbase : fe.pcmBase ≤ 160 * fe.nextFrame - 200)
    (hnext : fe.nextFrame ≤ finalFrameCount sig.length)
    (hfuel : finalFrameCount sig.length ≤ fe.nextFrame + fuel) :
    ∃ fe', finishLoop kernel (finalFrameCount sig.length) fuel fe = some fe' ∧
      MelTracks kernel sig fe' ∧ fe'.nextFrame = finalFrameCount sig.length ∧
      fe'.finalized = fe.finalized ∧ fe'.melBaseFrame = fe.melBaseFrame ∧
      fe'.retainHistory = fe.retainHistory := by
  induction fuel generalizing fe with
  | zero => exact ⟨fe, rfl, h, by omega, rfl, rfl, rfl⟩
  | succ fuel ih =>
    rw [finishLoop]
    rcases lt_or_ge fe.nextFrame (finalFrameCount sig.length) with hlt | hge
    · rw [if_pos hlt, h.fillWindow_next hn31 hbase hlt, Option.bind_some]
      have hstore := h.store fe.framesDuringFeed (fe.framesAtFinish + 1)
        (by have := h.counted; omega)
      obtain ⟨fe', hrun, htracks, hn, hfin, hmb, hr⟩ :=
        ih hstore (by simp only [storeFrame]; omega) hlt (by simp only; omega)
      exact ⟨fe', hrun, htracks, hn, hfin, hmb, hr⟩
    · rw [if_neg (not_lt.mpr hge)]
      exact ⟨fe, rfl, h, le_antisymm hnext hge, rfl, rfl, rfl⟩

/-- Samples may be appended while all computed frames are stable: no computed frame changes. -/
lemma MelTracks.append (h : MelTracks kernel sig fe)
    (hnext : fe.nextFrame ≤ stableFrameCount sig.length) (hbase : fe.pcmBase ≤ sig.length)
    (more : List α) :
    MelTracks kernel (sig ++ more)
      { fe with pcm := fe.pcm ++ more, totalReceived := fe.totalReceived + more.length } where
  total := by rw [h.total, List.length_append]
  pcm := by rw [h.pcm, List.drop_append_of_le_length hbase]
  melBase_le := h.melBase_le
  frames := by
    rw [h.frames]
    apply List.map_congr_left
    intro f hf
    have hlt : f < stableFrameCount sig.length := by
      have := List.mem_range'_1.mp hf
      have := h.melBase_le
      omega
    exact (melRow_append kernel sig more hlt).symm
  windows := by
    rw [h.windows]
    apply List.map_congr_left
    intro f hf
    obtain ⟨hwin, hlen⟩ := stable_of_lt_count ((List.mem_range.mp hf).trans_le hnext)
    exact exactIndices_congr hwin hlen (by simp)
  computed := h.computed
  counted := h.counted

/-- `compact` keeps the frames and moves the buffer to where the next frame starts to read. -/
lemma MelTracks.compact (h : MelTracks kernel sig fe)
    (hbase : fe.pcmBase ≤ 160 * fe.nextFrame - 200) :
    MelTracks kernel sig (compact fe) ∧ (compact fe).pcmBase = 160 * fe.nextFrame - 200 := by
  have hkeep : (frameLoIndex fe.nextFrame).toNat = 160 * fe.nextFrame - 200 := by
    rw [frameLoIndex_eq]
    rfl
  simp only [Voxtral.compact, hkeep]
  split_ifs with hlt
  · refine ⟨{ h with pcm := ?_ }, rfl⟩
    have hdrop : fe.pcmBase + (160 * fe.nextFrame - 200 - fe.pcmBase) =
        160 * fe.nextFrame - 200 := by omega
    simp only [h.pcm, List.drop_drop, hdrop]
  · exact ⟨{ h with }, le_antisymm hbase (not_lt.mp hlt)⟩

/-! ## Calls -/

/-- The buffer never starts behind the received samples. -/
lemma MelReady.pcmBase_le (h : MelReady kernel sig fe) : fe.pcmBase ≤ sig.length := by
  have hbase := h.base
  have hnext := h.next
  unfold stableFrameCount at hnext
  split_ifs at hnext <;> omega

/-- A feed before the finish keeps the frontend ready, for the longer signal.  A received total past
`2 ^ 31` is harmless as long as it completes no further frame. -/
theorem melFrontendFeed_ready (h : MelReady kernel sig fe) (more : List α)
    (hn31 : ((sig ++ more).length : ℤ) < 2 ^ 31 ∨
      stableFrameCount (sig ++ more).length = stableFrameCount sig.length) :
    ∃ fe', melFrontendFeed kernel fe more = some (true, fe') ∧
      MelReady kernel (sig ++ more) fe' ∧ fe'.melBaseFrame = fe.melBaseFrame ∧
      fe'.retainHistory = fe.retainHistory := by
  unfold melFrontendFeed
  rw [if_neg (by simp [h.live])]
  by_cases hmore : more = []
  · subst hmore
    rw [if_pos rfl]
    exact ⟨fe, rfl, by rwa [List.append_nil], rfl, rfl⟩
  · rw [if_neg hmore]
    have hgrow : stableFrameCount sig.length ≤ stableFrameCount (sig ++ more).length :=
      stableFrameCount_mono (by simp)
    have hfits : fe.nextFrame < stableFrameCount (sig ++ more).length →
        ((sig ++ more).length : ℤ) < 2 ^ 31 := by
      have hnext := h.next
      intro hlt
      rcases hn31 with hlt' | heq
      · exact hlt'
      · omega
    have hfuel : stableFrameCount (sig ++ more).length ≤ fe.totalReceived + more.length := by
      rw [h.total, ← List.length_append]
      unfold stableFrameCount
      split_ifs <;> omega
    have happ := h.toMelTracks.append h.next.le h.pcmBase_le more
    obtain ⟨fe', hloop, htracks, hn, hb, hfin, hmb, hr⟩ :=
      emitStableLoop_tracks (fe.totalReceived + more.length) happ hfits h.base.le
        (h.next.le.trans hgrow) (hfuel.trans (Nat.le_add_left _ _))
    have hbase' : fe'.pcmBase ≤ 160 * fe'.nextFrame - 200 := by
      have hle : fe.nextFrame ≤ fe'.nextFrame := by rw [hn, h.next]; exact hgrow
      have hbase := h.base
      simp only at hb
      omega
    obtain ⟨hcompact, hcbase⟩ := htracks.compact hbase'
    refine ⟨Voxtral.compact fe', ?_, ⟨hcompact, ?_, ?_, ?_⟩, ?_, ?_⟩
    · rw [emitStableFrames, hloop]
      rfl
    · rw [compact_nextFrame, hn]
    · rw [hcbase, compact_nextFrame]
    · rw [compact_finalized, hfin]
      exact h.live
    · rw [compact_melBaseFrame, hmb]
    · rw [compact_retainHistory, hr]

/-- A feed that completes a frame after the received total left the 32-bit range has no result: the
window fill reads before the rolling buffer. -/
theorem melFrontendFeed_overflow (h : MelReady kernel sig fe) (more : List α)
    (hbase : 0 < fe.pcmBase) (hlo : 2 ^ 31 ≤ (sig ++ more).length)
    (hhi : (sig ++ more).length < 2 ^ 32)
    (hgrow : stableFrameCount sig.length < stableFrameCount (sig ++ more).length) :
    melFrontendFeed kernel fe more = none := by
  have hmore : more ≠ [] := by
    rintro rfl
    simp at hgrow
  have hlen : fe.totalReceived + more.length = (sig ++ more).length := by
    rw [h.total, List.length_append]
  have hcond : frameHiIndex fe.nextFrame ≤ ((fe.totalReceived + more.length : ℕ) : ℤ) - 1 := by
    rw [frameHiIndex_le_iff, h.next, hlen]
    exact hgrow
  have hnone : emitStableFrames kernel
      { fe with pcm := fe.pcm ++ more, totalReceived := fe.totalReceived + more.length } = none :=
    emitStableFrames_eq_none (by simp only; omega) (by simp only; omega) hbase hcond
  unfold melFrontendFeed
  rw [if_neg (by simp [h.live]), if_neg hmore, hnone]
  rfl

/-- Whenever a feed has a result, it completed no frame past the 32-bit range; so the received total
exceeds the range by less than one frame. -/
theorem melFrontendFeed_of_some (h : MelReady kernel sig fe) (hwarm : 361 ≤ sig.length)
    (hbound : sig.length < 2 ^ 31 + 72) {more : List α} (hmore : more.length ≤ 2 ^ 30)
    {r : Bool × MelFrontend α φ} (hsome : melFrontendFeed kernel fe more = some r) :
    r.1 = true ∧ MelReady kernel (sig ++ more) r.2 ∧ r.2.melBaseFrame = fe.melBaseFrame ∧
      r.2.retainHistory = fe.retainHistory ∧ (sig ++ more).length < 2 ^ 31 + 72 := by
  have hlen : (sig ++ more).length = sig.length + more.length := List.length_append
  by_cases hfits : ((sig ++ more).length : ℤ) < 2 ^ 31 ∨
      stableFrameCount (sig ++ more).length = stableFrameCount sig.length
  · obtain ⟨fe', hfeed, hready, hmb, hr⟩ := melFrontendFeed_ready h more hfits
    obtain rfl := Option.some.inj (hfeed.symm.trans hsome)
    refine ⟨rfl, hready, hmb, hr, ?_⟩
    rcases hfits with hlt | heq
    · omega
    · unfold stableFrameCount at heq
      split_ifs at heq <;> omega
  · -- the feed completes a frame past the range, so it has no result
    push Not at hfits
    have hgrow : stableFrameCount sig.length < stableFrameCount (sig ++ more).length :=
      lt_of_le_of_ne (stableFrameCount_mono (by omega)) (Ne.symm hfits.2)
    have hbase : 0 < fe.pcmBase := by
      rw [h.base, h.next]
      unfold stableFrameCount
      split_ifs <;> omega
    have hnone := melFrontendFeed_overflow h more hbase (by exact_mod_cast hfits.1) (by omega) hgrow
    rw [hnone] at hsome
    exact absurd hsome (by simp)

/-- Whenever a feed of at least one hop has a result, the received total is within the 32-bit range. -/
theorem melFrontendFeed_fits (h : MelReady kernel sig fe) (hwarm : 361 ≤ sig.length)
    (hbound : sig.length < 2 ^ 31 + 72) {more : List α} (hhop : 160 ≤ more.length)
    (hmore : more.length ≤ 2 ^ 30) {r : Bool × MelFrontend α φ}
    (hsome : melFrontendFeed kernel fe more = some r) : (sig ++ more).length < 2 ^ 31 := by
  by_contra hover
  have hlen : (sig ++ more).length = sig.length + more.length := List.length_append
  have hgrow : stableFrameCount sig.length < stableFrameCount (sig ++ more).length := by
    unfold stableFrameCount
    split_ifs <;> omega
  have hbase : 0 < fe.pcmBase := by
    rw [h.base, h.next]
    unfold stableFrameCount
    split_ifs <;> omega
  rw [melFrontendFeed_overflow h more hbase (not_lt.mp hover) (by omega) hgrow] at hsome
  exact absurd hsome (by simp)

/-- The finish completes the frames of the received signal. -/
theorem melFrontendFinish_complete (h : MelReady kernel sig fe)
    (hn31 : (sig.length : ℤ) < 2 ^ 31) :
    ∃ fe', melFrontendFinish kernel fe = some fe' ∧ MelComplete kernel sig fe' ∧
      fe'.melBaseFrame = fe.melBaseFrame ∧ fe'.retainHistory = fe.retainHistory := by
  unfold melFrontendFinish
  rw [if_neg (by simp [h.live])]
  have hle : fe.nextFrame ≤ finalFrameCount sig.length := by
    rw [h.next]
    exact stableFrameCount_le_final _
  have hfinal : fe.totalReceived / hopLength = finalFrameCount sig.length := by
    rw [h.total]
    rfl
  have hopen : MelTracks kernel sig { fe with finalized := true } := { h.toMelTracks with }
  obtain ⟨fe', hloop, htracks, hn, hfin, hmb, hr⟩ :=
    finishLoop_tracks (finalFrameCount sig.length - fe.nextFrame) hopen hn31 h.base.le hle
      (by simp only; omega)
  simp only [hfinal, hloop, Option.map_some]
  refine ⟨_, rfl, ⟨⟨htracks.total, ?_, htracks.melBase_le, htracks.frames, htracks.windows,
    htracks.computed, htracks.counted⟩, hn, hfin⟩, hmb, hr⟩
  simp only [htracks.total, List.drop_length]

/-- Discarding frames keeps the rest. -/
lemma MelTracks.discardBefore (h : MelTracks kernel sig fe) (frame : ℤ) :
    MelTracks kernel sig (melFrontendDiscardBefore fe frame) := by
  have hlen : fe.melFrames.length = fe.nextFrame - fe.melBaseFrame := by
    rw [h.frames, List.length_map, List.length_range']
  have hle := h.melBase_le
  simp only [melFrontendDiscardBefore]
  split_ifs
  · exact h
  · exact h
  · exact h
  · refine { h with melBase_le := ?_, frames := ?_ }
    · simp only
      omega
    · simp only
      rw [h.frames, ← List.map_drop, List.drop_range']
      have h1 : fe.melBaseFrame +
          (min frame (fe.melBaseFrame + fe.melFrames.length) - fe.melBaseFrame).toNat * 1 =
          (min frame ((fe.melBaseFrame : ℤ) + fe.melFrames.length)).toNat := by omega
      have h2 : fe.nextFrame - fe.melBaseFrame -
          (min frame (fe.melBaseFrame + fe.melFrames.length) - fe.melBaseFrame).toNat =
          fe.nextFrame - (min frame ((fe.melBaseFrame : ℤ) + fe.melFrames.length)).toNat := by
        omega
      rw [← h.frames, h1, h2]

omit [Zero α] in
/-- Discarding changes nothing but the retained frames. -/
lemma melFrontendDiscardBefore_eq (fe : MelFrontend α φ) (frame : ℤ) :
    ∃ frames base, melFrontendDiscardBefore fe frame =
      { fe with melFrames := frames, melBaseFrame := base } := by
  simp only [melFrontendDiscardBefore]
  split_ifs
  · exact ⟨fe.melFrames, fe.melBaseFrame, rfl⟩
  · exact ⟨fe.melFrames, fe.melBaseFrame, rfl⟩
  · exact ⟨fe.melFrames, fe.melBaseFrame, rfl⟩
  · exact ⟨_, _, rfl⟩

omit [Zero α] in
/-- A discard leaves `finalized`. -/
@[simp] lemma melFrontendDiscardBefore_finalized (fe : MelFrontend α φ) (frame : ℤ) :
    (melFrontendDiscardBefore fe frame).finalized = fe.finalized := by
  obtain ⟨frames, base, heq⟩ := melFrontendDiscardBefore_eq fe frame
  rw [heq]

omit [Zero α] in
/-- A finished frontend rejects a feed without a change. -/
lemma melFrontendFeed_finalized {pcm : List α} {r : Bool × MelFrontend α φ}
    (h : melFrontendFeed kernel fe pcm = some r) (hfinal : fe.finalized = true) :
    r.2.finalized = true := by
  rw [melFrontendFeed, if_pos hfinal] at h
  obtain rfl := Option.some.inj h
  exact hfinal

omit [Zero α] in
/-- The loop of the finish leaves `finalized`. -/
lemma finishLoop_finalized (nTotal fuel : ℕ) {fe₀ fe' : MelFrontend α φ}
    (h : finishLoop kernel nTotal fuel fe₀ = some fe') : fe'.finalized = fe₀.finalized := by
  induction fuel generalizing fe₀ with
  | zero =>
    obtain rfl := Option.some.inj h
    rfl
  | succ fuel ih =>
    rw [finishLoop] at h
    split_ifs at h
    · obtain ⟨filled, -, h⟩ := Option.bind_eq_some_iff.mp h
      exact (ih h).trans rfl
    · obtain rfl := Option.some.inj h
      rfl

omit [Zero α] in
/-- The finish finalizes. -/
lemma melFrontendFinish_finalized {fe' : MelFrontend α φ}
    (h : melFrontendFinish kernel fe = some fe') : fe'.finalized = true := by
  unfold melFrontendFinish at h
  split_ifs at h with hfinal
  · obtain rfl := Option.some.inj h
    exact hfinal
  · obtain ⟨fe₁, hloop, rfl⟩ := Option.map_eq_some_iff.mp h
    exact finishLoop_finalized _ _ hloop

omit [Zero α] in
/-- A discard never goes past the frame it is asked for. -/
lemma melBaseFrame_discardBefore (fe : MelFrontend α φ) {frame : ℕ}
    (hbase : fe.melBaseFrame ≤ frame) :
    (melFrontendDiscardBefore fe frame).melBaseFrame ≤ frame := by
  simp only [melFrontendDiscardBefore]
  split_ifs
  · exact hbase
  · exact hbase
  · exact hbase
  · simp only
    omega

/-- The retained frames from a frame on. -/
lemma MelTracks.frameData (h : MelTracks kernel sig fe) {frame : ℕ}
    (hbase : fe.melBaseFrame ≤ frame) (hnext : frame < fe.nextFrame) :
    melFrontendFrameData fe frame =
      some ((List.range' frame (fe.nextFrame - frame)).map (melRow kernel sig)) := by
  have hlen : fe.melFrames.length = fe.nextFrame - fe.melBaseFrame := by
    rw [h.frames, List.length_map, List.length_range']
  have hrel : ((frame : ℤ) - fe.melBaseFrame).toNat = frame - fe.melBaseFrame := by omega
  rw [melFrontendFrameData, if_neg (by omega)]
  simp only
  rw [if_neg (by omega), hrel, h.frames, ← List.map_drop, List.drop_range',
    show fe.melBaseFrame + (frame - fe.melBaseFrame) * 1 = frame by omega,
    show fe.nextFrame - fe.melBaseFrame - (frame - fe.melBaseFrame) = fe.nextFrame - frame by omega]

/-- A discard keeps the frontend ready. -/
lemma MelReady.discardBefore (h : MelReady kernel sig fe) (frame : ℤ) :
    MelReady kernel sig (melFrontendDiscardBefore fe frame) := by
  have htracks := h.toMelTracks.discardBefore frame
  obtain ⟨frames, base, heq⟩ := melFrontendDiscardBefore_eq fe frame
  rw [heq] at htracks ⊢
  exact ⟨htracks, h.next, h.base, h.live⟩

end Steps

end Voxtral
