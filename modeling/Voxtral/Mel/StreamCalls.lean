import Voxtral.Mel.Incremental
import Voxtral.Lib.Runs

/-!
# The calls a stream makes on its Mel frontend, at large positions

A stream hands its frontend the left padding, the slices of the accepted feeds, and at the finish
the right padding; in between it discards the frames the encoder took over.  The frontend narrows its
received total to 32 bits for every window fill.  The fills stay exact precisely as long as the padded
total fits: the first frame completed past `2 ^ 31` samples is read from before the rolling buffer.
-/

namespace Voxtral

variable {α φ : Type*}

/-- The right padding `voxtral_stream_finish_internal` feeds after `nRaw` real samples: up to the
next token boundary, and seventeen tokens more. -/
def finishRightPad (nRaw : ℕ) : ℕ :=
  (rawAudioLengthPerTok - nRaw % rawAudioLengthPerTok) % rawAudioLengthPerTok +
    nRightPadTokens * rawAudioLengthPerTok

/-- The padding fills the last 1280 samples up and adds 17 times as many. -/
lemma finishRightPad_eq (nRaw : ℕ) : finishRightPad nRaw = (1280 - nRaw % 1280) % 1280 + 21760 := rfl

/-- A call a stream makes while audio arrives: a slice of a feed, or a discard after the encoder took
frames over. -/
def MelCall.IsSlice : MelCall α → Prop
  | .feed pcm => pcm.length ≤ audioDrainSlice
  | .discardBefore _ => True
  | _ => False

/-- All calls of a stream that finishes: the padding around the calls `body` made while audio
arrived. -/
def streamMelCalls [Zero α] (body : List (MelCall α)) : List (MelCall α) :=
  .feedSilence streamLeftPad :: body ++
    [.feedSilence (finishRightPad (body.flatMap MelCall.samples).length), .finish]

/-- Every window fill reads inside the rolling buffer, and resolves the samples that exact
arithmetic with reflection at the two ends of the received signal resolves. -/
def MelFillsExact [Zero α] (kernel : List α → φ) (calls : List (MelCall α)) : Prop :=
  ∃ fe os, runSteps (melStep kernel) { retainHistory := false } calls = some (fe, os) ∧
    fe.windows = (List.range fe.nextFrame).map (exactIndices fe.totalReceived)

section Calls

variable [Zero α] {kernel : List α → φ} {sig : List α} {fe : MelFrontend α φ}

/-- One call while audio arrives keeps the frontend ready, unless it completes a frame past the 32-bit
range. -/
lemma melStep_slice_ready (h : MelReady kernel sig fe) {c : MelCall α} (hc : c.IsSlice)
    (hfits : ((sig ++ c.samples).length : ℤ) < 2 ^ 31 ∨
      stableFrameCount (sig ++ c.samples).length = stableFrameCount sig.length) :
    ∃ fe', melStep kernel fe c = some (fe', true) ∧ MelReady kernel (sig ++ c.samples) fe' := by
  cases c with
  | feed pcm =>
    obtain ⟨fe', hfeed, hready, -, -⟩ := melFrontendFeed_ready h pcm hfits
    exact ⟨fe', by rw [melStep, hfeed]; rfl, hready⟩
  | discardBefore frame =>
    refine ⟨_, rfl, ?_⟩
    have hnone : (MelCall.discardBefore frame : MelCall α).samples = [] := rfl
    rw [hnone, List.append_nil]
    exact h.discardBefore frame
  | _ => exact absurd hc (by simp [MelCall.IsSlice])

/-- Feeding silence keeps the frontend ready under the same condition. -/
lemma melStep_silence_ready (h : MelReady kernel sig fe) {n : ℕ}
    (hfits : ((sig ++ List.replicate n 0).length : ℤ) < 2 ^ 31) :
    ∃ fe', melStep kernel fe (.feedSilence n) = some (fe', true) ∧
      MelReady kernel (sig ++ List.replicate n 0) fe' := by
  obtain ⟨fe', hfeed, hready, -, -⟩ := melFrontendFeed_ready h (List.replicate n 0) (Or.inl hfits)
  exact ⟨fe', by rw [melStep, melFrontendFeedSilence, hfeed]; rfl, hready⟩

/-- While the received total fits, the calls made as audio arrives keep the frontend ready. -/
lemma melStep_slices_ready {body : List (MelCall α)} (hbody : ∀ c ∈ body, c.IsSlice)
    (h : MelReady kernel sig fe)
    (hfits : ((sig ++ body.flatMap MelCall.samples).length : ℤ) < 2 ^ 31) :
    ∃ fe' os, runSteps (melStep kernel) fe body = some (fe', os) ∧
      MelReady kernel (sig ++ body.flatMap MelCall.samples) fe' := by
  induction body generalizing sig fe with
  | nil => exact ⟨fe, [], rfl, by simpa using h⟩
  | cons c body ih =>
    have hsplit : sig ++ (c :: body).flatMap MelCall.samples =
        (sig ++ c.samples) ++ body.flatMap MelCall.samples := by
      rw [List.flatMap_cons, List.append_assoc]
    rw [hsplit] at hfits ⊢
    have hfits' : ((sig ++ c.samples).length : ℤ) < 2 ^ 31 := by
      rw [List.length_append] at hfits
      omega
    obtain ⟨fe₁, hstep, hready⟩ :=
      melStep_slice_ready h (hbody c List.mem_cons_self) (Or.inl hfits')
    obtain ⟨fe', os, hrun, hready'⟩ :=
      ih (fun c' hc' => hbody c' (List.mem_cons_of_mem c hc')) hready hfits
    exact ⟨fe', true :: os, runSteps_cons_eq_some.mpr ⟨fe₁, true, os, hstep, hrun, rfl⟩, hready'⟩

/-- Whenever the calls made as audio arrives have a result, no frame was completed past the 32-bit
range; so the received total exceeds the range by less than one frame. -/
lemma melStep_slices_bounded {body : List (MelCall α)} (hbody : ∀ c ∈ body, c.IsSlice)
    (h : MelReady kernel sig fe) (hwarm : 361 ≤ sig.length) (hbound : sig.length < 2 ^ 31 + 72)
    {fe' : MelFrontend α φ} {os : List Bool}
    (hrun : runSteps (melStep kernel) fe body = some (fe', os)) :
    MelReady kernel (sig ++ body.flatMap MelCall.samples) fe' ∧
      (sig ++ body.flatMap MelCall.samples).length < 2 ^ 31 + 72 := by
  induction body generalizing sig fe os with
  | nil =>
    obtain ⟨rfl, rfl⟩ : fe = fe' ∧ [] = os := by simpa using hrun
    exact ⟨by simpa using h, by simpa using hbound⟩
  | cons c body ih =>
    obtain ⟨fe₁, o, os', hstep, hrest, rfl⟩ := runSteps_cons_eq_some.mp hrun
    rw [List.flatMap_cons, ← List.append_assoc]
    have hc := hbody c List.mem_cons_self
    have hslice : c.samples.length ≤ 16000 := by
      cases c with
      | feed pcm => exact hc
      | feedSilence n => exact absurd hc (by simp [MelCall.IsSlice])
      | _ => exact Nat.zero_le _
    have hlen : (sig ++ c.samples).length = sig.length + c.samples.length := List.length_append
    have hnext : MelReady kernel (sig ++ c.samples) fe₁ ∧
        (sig ++ c.samples).length < 2 ^ 31 + 72 := by
      cases c with
      | feed pcm =>
        obtain ⟨r, hfeed, hr⟩ := Option.map_eq_some_iff.mp hstep
        obtain ⟨-, hready, -, -, hbound'⟩ :=
          melFrontendFeed_of_some h hwarm hbound (hslice.trans (by norm_num)) hfeed
        rw [← (Prod.mk.inj hr).1]
        exact ⟨hready, hbound'⟩
      | discardBefore frame =>
        obtain ⟨rfl, -⟩ := Prod.mk.inj (Option.some.inj hstep)
        rw [show (MelCall.discardBefore frame : MelCall α).samples = [] from rfl,
          List.append_nil]
        exact ⟨h.discardBefore frame, hbound⟩
      | _ => exact absurd hc (by simp [MelCall.IsSlice])
    obtain ⟨hready, hbound'⟩ := hnext
    exact ih (fun c' hc' => hbody c' (List.mem_cons_of_mem c hc')) hready (by omega) hbound' hrest

end Calls

/-- The signal the frontend received before the first real sample. -/
lemma length_leftPadded [Zero α] :
    (([] : List α) ++ List.replicate streamLeftPad 0).length = 40960 := by
  rw [List.nil_append, List.length_replicate]
  rfl

/-- A padded total below `2 ^ 31` keeps all window fills exact. -/
lemma melFillsExact_of_fits [Zero α] (kernel : List α → φ) {body : List (MelCall α)}
    (hbody : ∀ c ∈ body, c.IsSlice)
    (hfits : 40960 + (body.flatMap MelCall.samples).length +
      finishRightPad (body.flatMap MelCall.samples).length < 2 ^ 31) :
    MelFillsExact kernel (streamMelCalls body) := by
  have hinit : MelReady kernel ([] : List α) { retainHistory := false } := melReady_init false
  obtain ⟨fe₁, hleft, hready₁⟩ := melStep_silence_ready (n := streamLeftPad) hinit
    (by rw [length_leftPadded]; omega)
  obtain ⟨fe₂, os, hbodyRun, hready₂⟩ := melStep_slices_ready hbody hready₁ (by
    rw [List.length_append, length_leftPadded]
    omega)
  have htotal : (([] ++ List.replicate streamLeftPad (0 : α) ++ body.flatMap MelCall.samples) ++
      List.replicate (finishRightPad (body.flatMap MelCall.samples).length) 0).length =
      40960 + (body.flatMap MelCall.samples).length +
        finishRightPad (body.flatMap MelCall.samples).length := by
    rw [List.length_append, List.length_append, length_leftPadded, List.length_replicate]
  obtain ⟨fe₃, hright, hready₃⟩ :=
    melStep_silence_ready (n := finishRightPad (body.flatMap MelCall.samples).length) hready₂
      (by rw [htotal]; omega)
  obtain ⟨fe₄, hfinish, hcomplete, -, -⟩ := melFrontendFinish_complete hready₃ (by rw [htotal]; omega)
  refine ⟨fe₄, true :: os ++ [true, true], ?_, ?_⟩
  · refine runSteps_cons_eq_some.mpr ⟨fe₁, true, os ++ [true, true], hleft, ?_, rfl⟩
    refine runSteps_append.mpr ⟨fe₂, os, [true, true], hbodyRun, ?_, rfl⟩
    refine runSteps_cons_eq_some.mpr ⟨fe₃, true, [true], hright, ?_, rfl⟩
    exact runSteps_cons_eq_some.mpr ⟨fe₄, true, [], by rw [melStep, hfinish]; rfl, rfl, rfl⟩
  · rw [hcomplete.windows, hcomplete.total]

/-- A padded total of `2 ^ 31` or more makes some window fill read outside the buffer. -/
lemma not_melFillsExact_of_overflow [Zero α] (kernel : List α → φ) {body : List (MelCall α)}
    (hbody : ∀ c ∈ body, c.IsSlice)
    (hover : 2 ^ 31 ≤ 40960 + (body.flatMap MelCall.samples).length +
      finishRightPad (body.flatMap MelCall.samples).length) :
    ¬ MelFillsExact kernel (streamMelCalls body) := by
  rintro ⟨fe, os, hrun, -⟩
  have hinit : MelReady kernel ([] : List α) { retainHistory := false } := melReady_init false
  obtain ⟨fe₁', hleft', hready₁⟩ := melStep_silence_ready (n := streamLeftPad) hinit
    (by rw [length_leftPadded]; omega)
  obtain ⟨fe₁, o, os', hleft, hrest, -⟩ := runSteps_cons_eq_some.mp hrun
  obtain rfl : fe₁' = fe₁ := by
    rw [hleft'] at hleft
    simpa using congrArg (Option.map Prod.fst) hleft
  obtain ⟨fe₂, os₁, os₂, hbodyRun, htail, -⟩ := runSteps_append.mp hrest
  obtain ⟨fe₃, o₃, os₃, hright, -, -⟩ := runSteps_cons_eq_some.mp htail
  obtain ⟨hready₂, hbound⟩ :=
    melStep_slices_bounded hbody hready₁ (by rw [length_leftPadded]; omega)
      (by rw [length_leftPadded]; omega) hbodyRun
  set sig := [] ++ List.replicate streamLeftPad (0 : α) ++ body.flatMap MelCall.samples with hsig
  set pad := finishRightPad (body.flatMap MelCall.samples).length with hpad
  have hlen : sig.length = 40960 + (body.flatMap MelCall.samples).length := by
    rw [hsig, List.length_append, length_leftPadded]
  have hpadded : (sig ++ List.replicate pad (0 : α)).length = sig.length + pad := by
    rw [List.length_append, List.length_replicate]
  have hpadge : 21760 ≤ pad := by
    rw [hpad, finishRightPad_eq]
    omega
  have hpadle : pad ≤ 23039 := by
    rw [hpad, finishRightPad_eq]
    omega
  rw [melStep, melFrontendFeedSilence] at hright
  obtain ⟨r, hfeed, -⟩ := Option.map_eq_some_iff.mp hright
  have hfits := melFrontendFeed_fits hready₂ (by omega) hbound
    (by rw [List.length_replicate]; omega) (by rw [List.length_replicate]; omega) hfeed
  omega

/-- **Large-position safety** holds exactly for the streams whose padded total is below `2 ^ 31`
samples. -/
theorem melFillsExact_iff [Zero α] (kernel : List α → φ) (body : List (MelCall α))
    (hbody : ∀ c ∈ body, c.IsSlice) :
    MelFillsExact kernel (streamMelCalls body) ↔
      streamLeftPad + (body.flatMap MelCall.samples).length +
        finishRightPad (body.flatMap MelCall.samples).length < 2 ^ 31 := by
  have hpad : streamLeftPad = 40960 := rfl
  constructor
  · intro hexact
    by_contra hover
    exact not_melFillsExact_of_overflow kernel hbody (by omega) hexact
  · intro hfits
    exact melFillsExact_of_fits kernel hbody (by omega)

/-- Two slices with a discard between them. -/
theorem melFillsExact_iff_small :
    MelFillsExact (fun (w : List ℤ) => w.sum)
      (streamMelCalls [.feed (List.replicate 400 3), .discardBefore 8, .feed (List.replicate 300 (-1))]) := by
  refine (melFillsExact_iff _ _ ?_).mpr ?_
  · simp only [List.forall_mem_cons, MelCall.IsSlice, List.not_mem_nil, false_implies, implies_true,
      List.length_replicate]
    decide
  simp only [List.flatMap_cons, List.flatMap_nil, MelCall.samples, List.length_append, List.length_replicate,
    List.length_nil, List.append_nil]
  decide

/-- The samples of equal slices. -/
lemma length_samples_replicate (k n : ℕ) :
    ((List.replicate k (.feed (List.replicate n 0)) : List (MelCall ℤ)).flatMap
      MelCall.samples).length = k * n := by
  induction k with
  | zero => simp
  | succ k ih =>
    rw [List.replicate_succ, List.flatMap_cons, List.length_append, ih, MelCall.samples,
      List.length_replicate]
    ring

/-- Thirty-seven hours and seventeen minutes of silence, in slices of one second, pass the admission
checks; the last window fills leave the buffer. -/
theorem melFillsExact_fails_after_37_hours :
    ¬ ∀ body : List (MelCall ℤ), (∀ c ∈ body, c.IsSlice) →
      (body.flatMap MelCall.samples).length ≤ int64Max →
        MelFillsExact (fun w : List ℤ => w.sum) (streamMelCalls body) := by
  intro hall
  obtain ⟨k, hk⟩ : ∃ k, k = 134220 := ⟨_, rfl⟩
  have hlen := length_samples_replicate k 16000
  have hbody : ∀ c ∈ (List.replicate k (.feed (List.replicate 16000 0)) : List (MelCall ℤ)),
      c.IsSlice := by
    intro c hc
    rw [List.eq_of_mem_replicate hc, MelCall.IsSlice, List.length_replicate]
    rfl
  refine not_melFillsExact_of_overflow _ hbody ?_ (hall _ hbody ?_)
  · rw [hlen]
    omega
  · rw [hlen]
    simp only [int64Max]
    omega

end Voxtral
