import Voxtral.Stream.Session

/-!
# What the encoder emits

The encoder works through the realizable frames in order.  While audio arrives it emits the complete
logical batches, and nothing before the first 128 frames are realizable; at the finish it emits
everything.  The output ring holds the last 256 frames emitted.
-/

namespace Voxtral

variable {α φ ε γ κ : Type*}

/-- Frames emitted while audio arrives, when `target` frames are realizable. -/
def encEmitted (logical target : ℕ) : ℕ :=
  if target < encKvMaxNew then 0 else target / logical * logical

/-- Batches do not go past the target. -/
lemma encEmitted_le (logical target : ℕ) : encEmitted logical target ≤ target := by
  unfold encEmitted
  split_ifs
  · exact Nat.zero_le _
  · exact Nat.div_mul_le_self target logical

/-- At most one incomplete batch is held back, once the first block is out. -/
lemma lt_encEmitted_add {logical target : ℕ} (hlogical : 0 < logical) (hblock : 128 ≤ target) :
    target < encEmitted logical target + logical := by
  unfold encEmitted
  rw [if_neg (by simp; omega)]
  exact Nat.lt_div_mul_add hlogical

/-- The encoder emits whole batches. -/
lemma dvd_encEmitted (logical target : ℕ) : logical ∣ encEmitted logical target := by
  unfold encEmitted
  split_ifs
  · exact dvd_zero _
  · exact Nat.dvd_mul_left _ _

/-- `enc_frames_realizable` in one formula. -/
lemma encFramesRealizable_eq (melFrames : ℕ) : encFramesRealizable melFrames = melFrames / 2 := by
  unfold encFramesRealizable
  split_ifs <;> omega

/-- More Mel frames realize no fewer encoder frames. -/
lemma encFramesRealizable_mono {n m : ℕ} (h : n ≤ m) :
    encFramesRealizable n ≤ encFramesRealizable m := by
  rw [encFramesRealizable_eq, encFramesRealizable_eq]
  exact Nat.div_le_div_right h

/-- The encoder worked through a prefix of the realizable frames, its Mel tail reaches back to what
the next batch reads, and the output ring holds the last frames. -/
structure EncoderTracks (eng : Engine α φ ε γ κ) (enc : EncoderStream φ) (ring : HistoryRing ε) :
    Prop where
  stable : enc.stableMel = enc.melHistory.length
  tail : enc.melTail = enc.melHistory.drop enc.tailBase
  base : enc.tailBase ≤ 2 * (enc.emitted - 2)
  realizable : enc.emitted ≤ encFramesRealizable enc.stableMel
  holds : ring.Holds encOutRingCap (encoderFrameAt eng enc.melHistory)
    (enc.emitted - encOutRingCap) enc.emitted

/-- What a run of the encoder leaves alone. -/
structure DriveFrame (s s' : Stream α φ ε γ κ) : Prop where
  frontend : s'.frontend = { s.frontend with enc := s'.frontend.enc }
  stable : s'.frontend.enc.stableMel = s.frontend.enc.stableMel
  history : s'.frontend.enc.melHistory = s.frontend.enc.melHistory
  finalized : s'.frontend.enc.finalized = s.frontend.enc.finalized
  lifecycle : s'.lifecycle = s.lifecycle

/-- A run that did nothing. -/
lemma DriveFrame.refl (s : Stream α φ ε γ κ) : DriveFrame s s := ⟨rfl, rfl, rfl, rfl, rfl⟩

/-- The Mel frontend is left alone. -/
lemma DriveFrame.melFe {s s' : Stream α φ ε γ κ} (h : DriveFrame s s') :
    s'.frontend.melFe = s.frontend.melFe := by
  rw [h.frontend]

/-- So is the padding. -/
lemma DriveFrame.padded {s s' : Stream α φ ε γ κ} (h : DriveFrame s s') :
    s'.frontend.leftPadInjected = s.frontend.leftPadInjected := by
  rw [h.frontend]

/-- So are the samples received. -/
lemma DriveFrame.samples {s s' : Stream α φ ε γ κ} (h : DriveFrame s s') :
    s'.frontend.realSamples = s.frontend.realSamples := by
  rw [h.frontend]

/-- Two runs, one after the other. -/
lemma DriveFrame.trans {s₁ s₂ s₃ : Stream α φ ε γ κ} (h : DriveFrame s₁ s₂)
    (h' : DriveFrame s₂ s₃) : DriveFrame s₁ s₃ where
  frontend := by
    rw [h'.frontend, h.frontend]
  stable := h'.stable.trans h.stable
  history := h'.history.trans h.history
  finalized := h'.finalized.trans h.finalized
  lifecycle := h'.lifecycle.trans h.lifecycle

section Runs

variable {eng : Engine α φ ε γ κ} {s : Stream α φ ε γ κ}

/-- Frames written one after the other extend the range the ring holds. -/
lemma writeEncRows_holds {ring : HistoryRing ε} {history : List φ} {q : ℕ}
    (h : ring.Holds encOutRingCap (encoderFrameAt eng history) (q - encOutRingCap) q) (n : ℕ) :
    (writeEncRows eng history ring q n).Holds encOutRingCap (encoderFrameAt eng history)
      (q + n - encOutRingCap) (q + n) := by
  induction n with
  | zero => exact h
  | succ n ih =>
    exact ih.write (by omega) (by simp only [encOutRingCap]; omega)

/-- Trimming keeps what the next batch reads. -/
lemma EncoderTracks.trim {enc : EncoderStream φ} {ring : HistoryRing ε}
    (h : EncoderTracks eng enc ring) : EncoderTracks eng (encoderKvTrimTail enc) ring := by
  unfold encoderKvTrimTail
  simp only
  split_ifs with hlt
  · refine ⟨h.stable, ?_, le_rfl, h.realizable, h.holds⟩
    simp only [h.tail, List.drop_drop]
    congr 1
    omega
  · exact h

/-- Trimming the tail leaves the cursor. -/
lemma encoderKvTrimTail_emitted (enc : EncoderStream φ) :
    (encoderKvTrimTail enc).emitted = enc.emitted := by
  unfold encoderKvTrimTail
  simp only
  split_ifs <;> rfl

/-- Where a run of the encoder leads: it emitted the frames up to `emitted`, or a graph failed and it
emitted nothing. -/
structure DriveOutcome (eng : Engine α φ ε γ κ) (s s' : Stream α φ ε γ κ) (ok : Bool)
    (emitted : ℕ) : Prop where
  frame : DriveFrame s s'
  tracks : ok = true → EncoderTracks eng s'.frontend.enc s'.device.encOutRing
  emitted : ok = true → s'.frontend.enc.emitted = emitted
  /-- Only a failed graph stops the encoder. -/
  blame : ok = false → LastGraphFailed eng s'

/-- One graph over the next `n` frames. -/
lemma runEncoderKvBatch_outcome (h : EncoderTracks eng s.frontend.enc s.device.encOutRing) {n : ℕ}
    (hfit : s.frontend.enc.emitted + n ≤ encFramesRealizable s.frontend.enc.stableMel)
    (hn : 0 < n) (physical : ℕ) :
    let r := runEncoderKvBatch eng s s.frontend.enc.emitted n physical
    DriveOutcome eng s r.1 r.2 (s.frontend.enc.emitted + n) := by
  rw [encFramesRealizable_eq] at hfit
  have hbase := h.base
  have htail : s.frontend.enc.melTail.length =
      s.frontend.enc.stableMel - s.frontend.enc.tailBase := by
    rw [h.tail, List.length_drop, h.stable]
  have hin : ¬ (convMelStart s.frontend.enc.emitted < s.frontend.enc.tailBase ∨
      s.frontend.enc.tailBase + s.frontend.enc.melTail.length <
        convMelEnd s.frontend.enc.emitted n) := by
    unfold convMelStart convMelEnd
    omega
  have hfail : ∀ t : Stream α φ ε γ κ, DriveFrame s t → LastGraphFailed eng t →
      DriveOutcome eng s t false (s.frontend.enc.emitted + n) := fun t ht hbad =>
    ⟨ht, fun h => absurd h (by decide), fun h => absurd h (by decide), fun _ => hbad⟩
  have hdone : ∀ t : Stream α φ ε γ κ, t.lifecycle = s.lifecycle → t.frontend = s.frontend →
      t.device.encOutRing = s.device.encOutRing → DriveOutcome eng s
        { t with
          frontend := { t.frontend with enc :=
            { t.frontend.enc with emitted := s.frontend.enc.emitted + n } }
          device := { t.device with
            encOutRing := writeEncRows eng s.frontend.enc.melHistory t.device.encOutRing
              s.frontend.enc.emitted n }
          trace := t.trace ++ [.encoderRun s.frontend.enc.emitted n physical] } true
        (s.frontend.enc.emitted + n) := by
    intro t hlifecycle hfrontend hring
    refine ⟨⟨by simp only [hfrontend], by simp only [hfrontend], by simp only [hfrontend],
      by simp only [hfrontend], hlifecycle⟩, fun _ => ?_, fun _ => rfl,
      fun h => absurd h (by decide)⟩
    simp only [hfrontend, hring]
    refine ⟨h.stable, h.tail, ?_, ?_, writeEncRows_holds h.holds n⟩
    · simp only
      omega
    · simp only [encFramesRealizable_eq]
      exact hfit
  simp only [runEncoderKvBatch, if_neg hin]
  by_cases hfirst : eng.submitFails s.device.submits = true
  · simp only [submitGraph, hfirst, Bool.not_true, Bool.not_false, if_true]
    exact hfail _ ⟨rfl, rfl, rfl, rfl, rfl⟩ hfirst
  · simp only [Bool.not_eq_true] at hfirst
    simp only [submitGraph, hfirst, Bool.not_false, Bool.not_true, Bool.false_eq_true, if_false]
    by_cases hreuse : n = 4 ∧ physical = 4
    · simp only [if_pos hreuse, Bool.not_true, Bool.false_eq_true, if_false]
      exact hdone { s with device := { s.device with submits := s.device.submits + 1 } } rfl rfl rfl
    · simp only [if_neg hreuse]
      by_cases hsecond : eng.submitFails (s.device.submits + 1) = true
      · simp only [hsecond, Bool.not_true, Bool.not_false, if_true]
        exact hfail _ ⟨rfl, rfl, rfl, rfl, rfl⟩ hsecond
      · simp only [Bool.not_eq_true] at hsecond
        simp only [hsecond, Bool.not_false, Bool.not_true, Bool.false_eq_true, if_false]
        exact hdone { s with device := { s.device with submits := s.device.submits + 1 + 1 } }
          rfl rfl rfl

/-- `encoder_kv_run` over the next `n` frames, at most one block of them. -/
lemma encoderKvRun_outcome (h : EncoderTracks eng s.frontend.enc s.device.encOutRing) {n : ℕ}
    (hfit : s.frontend.enc.emitted + n ≤ encFramesRealizable s.frontend.enc.stableMel)
    (hn : 0 < n) (hmax : n ≤ encKvMaxNew) (physical : ℕ) :
    let r := encoderKvRun eng s s.frontend.enc.emitted n physical
    DriveOutcome eng s r.1 r.2 (s.frontend.enc.emitted + n) := by
  have hplan : ¬ (n = 0 ∨ encKvCap - encWindow < n) := by
    simp only [encKvMaxNew] at hmax
    simp only [encKvCap, encWindow, encKvMaxNew]
    omega
  have hstable : ¬ s.frontend.enc.stableMel < convMelEnd s.frontend.enc.emitted n := by
    rw [encFramesRealizable_eq] at hfit
    unfold convMelEnd
    omega
  have hrun := runEncoderKvBatch_outcome h hfit hn physical
  simp only [encoderKvRun, if_neg hplan, if_neg hstable]
  simp only at hrun
  cases hok : (runEncoderKvBatch eng s s.frontend.enc.emitted n physical).2 with
  | false =>
    rw [hok] at hrun
    exact hrun
  | true =>
    rw [hok] at hrun
    have hframe := hrun.frame
    refine ⟨⟨?_, ?_, ?_, ?_, ?_⟩, fun _ => (hrun.tracks rfl).trim, fun _ => ?_,
      fun h => absurd h (by simp)⟩
    · simp only [Bool.not_true, Bool.false_eq_true, if_false]
      rw [hframe.frontend]
    · simp only [Bool.not_true, Bool.false_eq_true, if_false, ← hframe.stable, encoderKvTrimTail]
      split_ifs <;> rfl
    · simp only [Bool.not_true, Bool.false_eq_true, if_false, ← hframe.history, encoderKvTrimTail]
      split_ifs <;> rfl
    · simp only [Bool.not_true, Bool.false_eq_true, if_false, ← hframe.finalized,
        encoderKvTrimTail]
      split_ifs <;> rfl
    · exact hframe.lifecycle
    · simp only [Bool.not_true, Bool.false_eq_true, if_false, encoderKvTrimTail_emitted]
      exact hrun.emitted rfl

/-- A failed run is one for every target. -/
lemma DriveOutcome.of_failed {s' : Stream α φ ε γ κ} {emitted : ℕ}
    (h : DriveOutcome eng s s' false emitted) (emitted' : ℕ) :
    DriveOutcome eng s s' false emitted' :=
  ⟨h.frame, h.tracks, fun hfalse => absurd hfalse (by decide), h.blame⟩

/-- A run followed by a run. -/
lemma DriveOutcome.trans {s₁ s₂ s₃ : Stream α φ ε γ κ} {ok : Bool} {e₂ e₃ : ℕ}
    (h : DriveOutcome eng s₁ s₂ true e₂) (h' : DriveOutcome eng s₂ s₃ ok e₃) :
    DriveOutcome eng s₁ s₃ ok e₃ :=
  ⟨h.frame.trans h'.frame, h'.tracks, h'.emitted, h'.blame⟩

/-- Nothing to do. -/
lemma DriveOutcome.refl (h : EncoderTracks eng s.frontend.enc s.device.encOutRing) :
    DriveOutcome eng s s true s.frontend.enc.emitted :=
  ⟨DriveFrame.refl s, fun _ => h, fun _ => rfl, fun h => absurd h (by decide)⟩

/-- One iteration of the loop: a run of `n` frames, then the rest. -/
lemma driveIteration_outcome (h : EncoderTracks eng s.frontend.enc s.device.encOutRing)
    {target q0 n physical emitted : ℕ} {final : Bool} {fuel : ℕ} (hq0 : q0 = s.frontend.enc.emitted)
    (hfit : s.frontend.enc.emitted + n ≤ encFramesRealizable s.frontend.enc.stableMel)
    (hn : 0 < n) (hmax : n ≤ encKvMaxNew)
    (hrest : ∀ t : Stream α φ ε γ κ, DriveFrame s t →
      EncoderTracks eng t.frontend.enc t.device.encOutRing →
      t.frontend.enc.emitted = s.frontend.enc.emitted + n →
      DriveOutcome eng t (encoderKvDriveLoop eng final target fuel t).1
        (encoderKvDriveLoop eng final target fuel t).2 emitted) :
    let r := encoderKvRun eng s q0 n physical
    let u := if !r.2 then (r.1, false) else encoderKvDriveLoop eng final target fuel r.1
    DriveOutcome eng s u.1 u.2 emitted := by
  subst hq0
  have hrun := encoderKvRun_outcome h hfit hn hmax physical
  simp only at hrun ⊢
  cases hok : (encoderKvRun eng s s.frontend.enc.emitted n physical).2 with
  | false =>
    rw [hok] at hrun
    exact hrun.of_failed emitted
  | true =>
    rw [hok] at hrun
    exact hrun.trans (hrest _ hrun.frame (hrun.tracks rfl) (hrun.emitted rfl))

/-- Emitted while audio arrives, from a state that emitted complete batches. -/
lemma encEmitted_of_batches {logical emitted target : ℕ} (hdvd : logical ∣ emitted)
    (hle : emitted ≤ target) (hlt : target < emitted + logical) (hblock : 128 ≤ target) :
    encEmitted logical target = emitted := by
  obtain ⟨k, rfl⟩ := hdvd
  have hdiv : target / logical = k :=
    Nat.div_eq_of_lt_le (by rw [Nat.mul_comm]; exact hle) (by rw [Nat.succ_mul, Nat.mul_comm]; exact hlt)
  unfold encEmitted
  rw [if_neg (by simp; omega), hdiv, Nat.mul_comm]

/-- A complete batch fits the block it starts in. -/
lemma batch_le_room {logical physical emitted : ℕ} (hpos : 0 < physical) (hdvd : logical ∣ physical)
    (hemitted : logical ∣ emitted) : logical ≤ physical - emitted % physical := by
  have hlt := Nat.mod_lt emitted hpos
  have hrem : logical ∣ physical - emitted % physical :=
    Nat.dvd_sub hdvd ((Nat.dvd_mod_iff hdvd).mpr hemitted)
  exact Nat.le_of_dvd (by omega) hrem

/-- The bounds of the encoder grids. -/
lemma EncoderSchedule.physical_bounds (sch : EncoderSchedule) :
    0 < sch.physical ∧ sch.physical ∣ 128 := by
  have hmem := sch.physical_mem
  simp only [List.mem_cons, List.not_mem_nil, or_false] at hmem
  rcases hmem with h | h | h | h | h | h <;> rw [h] <;> decide

/-- The drive loop while audio arrives. -/
lemma encoderKvDriveLoop_live (fuel : ℕ)
    (h : EncoderTracks eng s.frontend.enc s.device.encOutRing)
    (hdvd : eng.schedule.logical ∣ s.frontend.enc.emitted) {target : ℕ}
    (htarget : target = encFramesRealizable s.frontend.enc.stableMel)
    (hblock : s.frontend.enc.emitted ≠ 0 → 128 ≤ target)
    (hfuel : target ≤ s.frontend.enc.emitted + fuel) :
    DriveOutcome eng s (encoderKvDriveLoop eng false target fuel s).1
      (encoderKvDriveLoop eng false target fuel s).2 (encEmitted eng.schedule.logical target) := by
  obtain ⟨hphysical, hphysical128⟩ := eng.schedule.physical_bounds
  have hlogical := eng.schedule.logical_pos
  have hlogical_le : eng.schedule.logical ≤ 128 :=
    Nat.le_of_dvd (by decide) (eng.schedule.logical_dvd.trans hphysical128)
  induction fuel generalizing s with
  | zero =>
    have hrealizable := h.realizable
    have hself := DriveOutcome.refl h
    suffices hsame : encEmitted eng.schedule.logical target = s.frontend.enc.emitted by
      rw [hsame]
      exact hself
    by_cases hzero : s.frontend.enc.emitted = 0
    · unfold encEmitted
      rw [if_pos (by simp; omega), hzero]
    · exact encEmitted_of_batches hdvd (by omega) (by omega) (hblock hzero)
  | succ fuel ih =>
    have hrealizable := h.realizable
    have hself := DriveOutcome.refl h
    rw [encoderKvDriveLoop]
    simp only [Bool.false_eq_true, if_false, true_and]
    by_cases hdone : target ≤ s.frontend.enc.emitted
    · rw [if_pos hdone]
      suffices hsame : encEmitted eng.schedule.logical target = s.frontend.enc.emitted by
        rw [hsame]
        exact hself
      by_cases hzero : s.frontend.enc.emitted = 0
      · unfold encEmitted
        rw [if_pos (by simp; omega), hzero]
      · exact encEmitted_of_batches hdvd (by omega) (by omega) (hblock hzero)
    rw [if_neg hdone]
    by_cases hhold : s.frontend.enc.emitted = 0 ∧ target < encKvMaxNew
    · rw [if_pos hhold]
      have hsame : encEmitted eng.schedule.logical target = s.frontend.enc.emitted := by
        unfold encEmitted
        rw [if_pos hhold.2, hhold.1]
      rw [hsame]
      exact hself
    rw [if_neg hhold]
    by_cases hfirst : s.frontend.enc.emitted = 0 ∧ encKvMaxNew ≤ target
    · rw [if_pos hfirst]
      refine driveIteration_outcome h hfirst.1.symm
        (by rw [hfirst.1, Nat.zero_add, ← htarget]; exact hfirst.2) (by decide) le_rfl ?_
      intro t hframe htracks hemitted
      rw [hfirst.1, Nat.zero_add] at hemitted
      refine ih htracks ?_ (by rw [hframe.stable]; exact htarget) (fun _ => hfirst.2)
        (by rw [hemitted]; simp at hfirst ⊢; omega)
      rw [hemitted]
      exact eng.schedule.logical_dvd.trans hphysical128
    rw [if_neg hfirst]
    have hblock' : 128 ≤ target := by
      simp only [encKvMaxNew] at hhold hfirst
      by_cases hzero : s.frontend.enc.emitted = 0
      · omega
      · exact hblock hzero
    by_cases hpartial : target - s.frontend.enc.emitted < eng.schedule.logical
    · rw [if_pos hpartial]
      rw [encEmitted_of_batches hdvd (by omega) (by omega) hblock']
      exact hself
    rw [if_neg hpartial]
    have hroom := batch_le_room hphysical eng.schedule.logical_dvd hdvd
    have hn : min (min eng.schedule.logical
        (eng.schedule.physical - s.frontend.enc.emitted % eng.schedule.physical))
        (target - s.frontend.enc.emitted) = eng.schedule.logical := by omega
    rw [hn, if_neg (by omega)]
    refine driveIteration_outcome h rfl (by omega) hlogical (by simp; omega) ?_
    intro t hframe htracks hemitted
    refine ih htracks ?_ (by rw [hframe.stable]; exact htarget) (fun _ => hblock')
      (by rw [hemitted]; omega)
    rw [hemitted]
    exact Nat.dvd_add hdvd dvd_rfl

/-- The drive loop at the finish emits every realizable frame. -/
lemma encoderKvDriveLoop_final (fuel : ℕ)
    (h : EncoderTracks eng s.frontend.enc s.device.encOutRing) {target : ℕ}
    (htarget : target = encFramesRealizable s.frontend.enc.stableMel)
    (hfuel : target ≤ s.frontend.enc.emitted + fuel) :
    DriveOutcome eng s (encoderKvDriveLoop eng true target fuel s).1
      (encoderKvDriveLoop eng true target fuel s).2 target := by
  have hphysical : 0 < eng.finishPhysical ∧ eng.finishPhysical ≤ 128 := by
    have hmem := eng.finishPhysical_mem
    simp only [List.mem_cons, List.not_mem_nil, or_false] at hmem
    omega
  induction fuel generalizing s with
  | zero =>
    have hrealizable := h.realizable
    have hself := DriveOutcome.refl h
    rw [show target = s.frontend.enc.emitted by omega]
    exact hself
  | succ fuel ih =>
    have hrealizable := h.realizable
    have hself := DriveOutcome.refl h
    rw [encoderKvDriveLoop]
    simp only [Bool.true_eq_false, if_true, false_and, and_false, if_false]
    by_cases hdone : target ≤ s.frontend.enc.emitted
    · rw [if_pos hdone]
      have hsame : target = s.frontend.enc.emitted := by omega
      rw [← hsame] at hself
      exact hself
    rw [if_neg hdone]
    by_cases hfirst : s.frontend.enc.emitted = 0 ∧ encKvMaxNew ≤ target
    · rw [if_pos hfirst]
      refine driveIteration_outcome h hfirst.1.symm
        (by rw [hfirst.1, Nat.zero_add, ← htarget]; exact hfirst.2) (by decide) le_rfl ?_
      intro t hframe htracks hemitted
      refine ih htracks (by rw [hframe.stable]; exact htarget) ?_
      rw [hemitted]
      simp only [encKvMaxNew]
      omega
    rw [if_neg hfirst]
    have hmod := Nat.mod_lt s.frontend.enc.emitted hphysical.1
    set n := min (min eng.finishPhysical
      (eng.finishPhysical - s.frontend.enc.emitted % eng.finishPhysical))
      (target - s.frontend.enc.emitted) with hn
    have hpos : 0 < n := by omega
    rw [if_neg (by omega)]
    refine driveIteration_outcome h rfl (by omega) hpos (by simp; omega) ?_
    intro t hframe htracks hemitted
    refine ih htracks (by rw [hframe.stable]; exact htarget) ?_
    rw [hemitted]
    omega

/-! ## Pushes -/

/-- Mel frames handed to the encoder. -/
def pushFrames (s : Stream α φ ε γ κ) (frames : List φ) : Stream α φ ε γ κ :=
  { s with frontend := { s.frontend with enc := { s.frontend.enc with
      melTail := s.frontend.enc.melTail ++ frames
      stableMel := s.frontend.enc.stableMel + frames.length
      melHistory := s.frontend.enc.melHistory ++ frames } } }

/-- Pushed Mel frames leave the cursor of the encoder. -/
@[simp] lemma pushFrames_emitted (s : Stream α φ ε γ κ) (frames : List φ) :
    (pushFrames s frames).frontend.enc.emitted = s.frontend.enc.emitted := rfl

/-- They are counted as stable. -/
@[simp] lemma pushFrames_stableMel (s : Stream α φ ε γ κ) (frames : List φ) :
    (pushFrames s frames).frontend.enc.stableMel =
      s.frontend.enc.stableMel + frames.length := rfl

/-- An encoder frame depends on the Mel frames it attends to only. -/
lemma encoderFrameAt_append (history frames : List φ) {e : ℕ}
    (he : e < encFramesRealizable history.length) :
    encoderFrameAt eng (history ++ frames) e = encoderFrameAt eng history e := by
  rw [encFramesRealizable_eq] at he
  unfold encoderFrameAt
  rw [List.take_append_of_le_length (by omega)]

/-- More Mel frames leave what was emitted as it is. -/
lemma EncoderTracks.push (h : EncoderTracks eng s.frontend.enc s.device.encOutRing)
    (frames : List φ) : EncoderTracks eng (pushFrames s frames).frontend.enc
      (pushFrames s frames).device.encOutRing := by
  have hrealizable := h.realizable
  have hbase := h.base
  rw [encFramesRealizable_eq] at hrealizable
  refine ⟨?_, ?_, h.base, ?_, ?_⟩
  · simp only [pushFrames, List.length_append, h.stable]
  · simp only [pushFrames, h.tail]
    rw [List.drop_append_of_le_length (by rw [← h.stable]; omega)]
  · simp only [pushFrames, encFramesRealizable_eq]
    omega
  · refine h.holds.congr fun p _ hp => ?_
    simp only [pushFrames]
    rw [encoderFrameAt_append]
    rw [← h.stable, encFramesRealizable_eq]
    omega

/-- A push of frames drives the encoder. -/
lemma encoderStreamPushMel_eq (hlive : s.frontend.enc.finalized = false) {frames : List φ}
    (hframes : frames ≠ []) (final : Bool) :
    encoderStreamPushMel eng s final frames s.frontend.enc.stableMel =
      encoderKvDrive eng (pushFrames s frames) final := by
  unfold encoderStreamPushMel
  simp only
  rw [if_neg (by simp [hlive]), if_neg hframes, if_neg (by simp)]
  rfl

/-- A push while audio arrives. -/
lemma encoderStreamPushMel_live (h : EncoderTracks eng s.frontend.enc s.device.encOutRing)
    (hlive : s.frontend.enc.finalized = false)
    (hemitted : s.frontend.enc.emitted =
      encEmitted eng.schedule.logical (encFramesRealizable s.frontend.enc.stableMel))
    {frames : List φ} (hframes : frames ≠ []) :
    let r := encoderStreamPushMel eng s false frames s.frontend.enc.stableMel
    DriveOutcome eng (pushFrames s frames) r.1 r.2 (encEmitted eng.schedule.logical
      (encFramesRealizable (s.frontend.enc.stableMel + frames.length))) := by
  rw [encoderStreamPushMel_eq hlive hframes]
  refine encoderKvDriveLoop_live _ (h.push frames) ?_ rfl (fun hne => ?_) (by omega)
  · rw [pushFrames_emitted, hemitted]
    exact dvd_encEmitted _ _
  · rw [pushFrames_emitted, hemitted] at hne
    unfold encEmitted at hne
    split_ifs at hne with hsmall
    · exact absurd rfl hne
    · simp only [encFramesRealizable_eq, encKvMaxNew, pushFrames_stableMel] at hsmall ⊢
      omega

/-- The push at the finish. -/
lemma encoderStreamPushMel_final (h : EncoderTracks eng s.frontend.enc s.device.encOutRing)
    (hlive : s.frontend.enc.finalized = false) {frames : List φ} (hframes : frames ≠ []) :
    let r := encoderStreamPushMel eng s true frames s.frontend.enc.stableMel
    DriveOutcome eng (pushFrames s frames) r.1 r.2
      (encFramesRealizable (s.frontend.enc.stableMel + frames.length)) := by
  rw [encoderStreamPushMel_eq hlive hframes]
  exact encoderKvDriveLoop_final _ (h.push frames) rfl (by omega)

end Runs

end Voxtral
