import Voxtral.Mel.Batch

/-!
# The rolling tail of the Mel frontend

After every feed the frontend drops the samples before the direct window of the next frame.  What
stays is shorter than one window, and it is enough: the frames a later feed completes, and the frames
the finish completes with reflection at the final length, read nothing before it.

## Main statements

* `BoundedTail`: what holds between two feeds.
* `MelReady.resident`: whatever arrives next, every sample the remaining frames read is in the buffer.
* `melFeeds_boundedTail`: every list of feeds ends in a bounded tail.
-/

namespace Voxtral

variable {α φ : Type*} [Zero α] {kernel : List α → φ} {sig : List α} {fe : MelFrontend α φ}

/-- What holds of the frontend between two feeds, when it received the samples `sig`. -/
structure BoundedTail (kernel : List α → φ) (sig : List α) (fe : MelFrontend α φ) : Prop where
  total : fe.totalReceived = sig.length
  /-- The buffer holds exactly the samples from `frame_lo_index(next_frame)` on. -/
  base : (fe.pcmBase : ℤ) = frameLoIndex fe.nextFrame
  pcm : fe.pcm = sig.drop fe.pcmBase
  received : fe.pcmBase + fe.pcm.length = fe.totalReceived
  short : fe.pcm.length < windowSize
  /-- `next_frame` is the least frame whose highest sample has not arrived. -/
  waits : (fe.totalReceived : ℤ) ≤ frameHiIndex fe.nextFrame
  arrived : ∀ f < fe.nextFrame, frameHiIndex f < fe.totalReceived
  /-- Let `more` be what arrives next, possibly nothing.  Every frame that is still to be computed and
  that the then received total completes, during the feed or at the finish, reads only samples the
  buffer holds at that moment. -/
  resident : ∀ more : List α, fe.totalReceived + more.length < 2 ^ 31 →
    ∀ f, fe.nextFrame ≤ f → f < (fe.totalReceived + more.length) / hopLength →
      ∀ i < windowSize, ∃ s,
        windowIndex f (narrow32 (fe.totalReceived + more.length)) i = some s ∧
          (fe.pcmBase : ℤ) ≤ s ∧ s < fe.pcmBase + (fe.pcm ++ more).length
  /-- So a further feed and the finish read nothing outside the buffer. -/
  feeds : ∀ more : List α, fe.totalReceived + more.length < 2 ^ 31 →
    ∃ fe', melFrontendFeed kernel fe more = some (true, fe')
  finishes : ∃ done, melFrontendFinish kernel fe = some done ∧
    done.nextFrame = fe.totalReceived / hopLength

/-- The direct window of the next frame starts less than one window before the received total: its
highest sample, at most one past the direct part, has not arrived. -/
lemma MelReady.pcm_short (h : MelReady kernel sig fe) :
    (sig.length : ℤ) ≤ frameHiIndex fe.nextFrame ∧ fe.pcm.length < windowSize := by
  have hnext : (sig.length : ℤ) ≤ frameHiIndex fe.nextFrame := by
    have hnot := (frameHiIndex_le_iff fe.nextFrame sig.length).not.mpr (by rw [h.next]; omega)
    omega
  refine ⟨hnext, ?_⟩
  rw [frameHiIndex_eq] at hnext
  rw [h.pcm, List.length_drop, h.base, show windowSize = 400 from rfl]
  split_ifs at hnext <;> omega

/-- The direct windows of the remaining frames start at or behind the buffer, and reflections at
either end land behind their start. -/
lemma MelReady.resident (h : MelReady kernel sig fe) (more : List α)
    (hfits : (sig ++ more).length < 2 ^ 31) {f : ℕ} (hnext : fe.nextFrame ≤ f)
    (hf : f < finalFrameCount (sig ++ more).length) {i : ℕ} (hi : i < windowSize) :
    ∃ s, windowIndex f (narrow32 (sig ++ more).length) i = some s ∧
      (fe.pcmBase : ℤ) ≤ s ∧ s < (sig ++ more).length := by
  have hf' : 160 * f + 160 ≤ (sig ++ more).length := by
    unfold finalFrameCount at hf
    omega
  have hmem := mirror_mem (show 0 < (sig ++ more).length by omega) (160 * (f : ℤ) + i - 200)
  refine ⟨exactIndex (sig ++ more).length f i, ?_, ?_, hmem.2⟩
  · rw [narrow32_of_fits (by omega) (by omega)]
    exact windowIndex_eq_exactIndex (by omega) (by omega) hi
  · have hlo : ((160 * f - 200 : ℕ) : ℤ) ≤ exactIndex (sig ++ more).length f i :=
      lo_le_exactIndex hi hf'
    have hbase := h.base
    omega

/-- A frontend in step with the received signal holds a bounded tail that is enough for the rest. -/
lemma MelReady.boundedTail (h : MelReady kernel sig fe) (hfits : sig.length < 2 ^ 31) :
    BoundedTail kernel sig fe where
  total := h.total
  base := by rw [frameLoIndex_eq, h.base]
  pcm := h.pcm
  received := by
    have hbase := h.pcmBase_le
    rw [h.pcm, List.length_drop, h.total]
    omega
  short := h.pcm_short.2
  waits := by
    rw [h.total]
    exact h.pcm_short.1
  arrived := by
    intro f hf
    rw [h.next] at hf
    have hread := (frameHiIndex_le_iff f sig.length).mpr hf
    rw [h.total]
    omega
  resident := by
    intro more hmore f hnext hf i hi
    have hlen : fe.pcmBase + (fe.pcm ++ more).length = (sig ++ more).length := by
      have hbase := h.pcmBase_le
      rw [h.pcm, List.length_append, List.length_drop, List.length_append]
      omega
    have htotal : fe.totalReceived + more.length = (sig ++ more).length := by
      rw [h.total, List.length_append]
    rw [← Nat.cast_add, htotal, ← Nat.cast_add, hlen]
    rw [htotal] at hmore hf
    exact h.resident more hmore hnext hf hi
  feeds := by
    intro more hmore
    rw [h.total] at hmore
    obtain ⟨fe', hfeed, -, -, -⟩ := melFrontendFeed_ready h more (Or.inl (by
      rw [List.length_append]
      omega))
    exact ⟨fe', hfeed⟩
  finishes := by
    obtain ⟨done, hfinish, hdone, -, -⟩ := melFrontendFinish_complete h (by exact_mod_cast hfits)
    refine ⟨done, hfinish, ?_⟩
    rw [hdone.next, h.total]
    rfl

/-- **Bounded rolling tail.**  After every list of feeds, of any sizes, the rolling buffer holds
exactly the samples from `frame_lo_index(next_frame)` on, fewer than one window of them, and every
sample read later is in it when it is read. -/
theorem melFeeds_boundedTail (kernel : List α → φ) (retain : Bool) (calls : List (MelCall α))
    (hcalls : ∀ c ∈ calls, c.IsFeed) (hfits : (calls.flatMap MelCall.samples).length < 2 ^ 31) :
    ∃ fe os, runSteps (melStep kernel) { retainHistory := retain } calls = some (fe, os) ∧
      BoundedTail kernel (calls.flatMap MelCall.samples) fe := by
  have hinit : MelReady kernel ([] : List α)
      ({ retainHistory := retain } : MelFrontend α φ) := melReady_init retain
  obtain ⟨fe, os, hrun, hready, -⟩ := melStep_feeds_ready hcalls hinit (by
    rw [List.nil_append]
    exact_mod_cast hfits)
  rw [List.nil_append] at hready
  exact ⟨fe, os, hrun, hready.boundedTail hfits⟩

/-- Two samples, an empty feed and eight hundred zeros. -/
theorem melFeeds_boundedTail_small :
    ∃ fe os, runSteps (melStep fun w : List ℤ => w.sum) { retainHistory := false }
        [.feed [3, -1], .feed [], .feedSilence 800] = some (fe, os) ∧
      BoundedTail (fun w : List ℤ => w.sum)
        (([.feed [3, -1], .feed [], .feedSilence 800] : List (MelCall ℤ)).flatMap
          MelCall.samples) fe := by
  refine melFeeds_boundedTail _ false _ (by simp [MelCall.IsFeed]) ?_
  simp only [List.flatMap_cons, List.flatMap_nil, MelCall.samples, List.length_append,
    List.length_replicate]
  decide

end Voxtral
