import Voxtral.Stream.Lifecycle
import Voxtral.Stream.EncoderRuns

/-!
# The frames of the encoder

A graph that ran is recorded, and the cursor of the encoder moves behind its frames.  So whatever the
frontend part of a call does, and wherever it stops, the cursor grows by the frames of the graphs it ran.
-/

namespace Voxtral

variable {α φ ε γ κ : Type*} {eng : Engine α φ ε γ κ} {s s' : Stream α φ ε γ κ}

/-- The frames the encoder graphs of a history computed. -/
def encodedFrames (trace : List (TraceEntry ε γ)) : ℕ := ((encoderRuns trace).map EncoderRun.n).sum

/-- The cursor of the encoder grew by the frames of the graphs that ran. -/
def EncoderAdvanced (s s' : Stream α φ ε γ κ) : Prop :=
  s'.frontend.enc.emitted + encodedFrames s.trace = s.frontend.enc.emitted + encodedFrames s'.trace

/-- No graph ran, and the cursor stays. -/
lemma EncoderAdvanced.refl (s : Stream α φ ε γ κ) : EncoderAdvanced s s := rfl

/-- Two advances add up. -/
lemma EncoderAdvanced.trans {s₁ s₂ s₃ : Stream α φ ε γ κ} (h : EncoderAdvanced s₁ s₂)
    (h' : EncoderAdvanced s₂ s₃) : EncoderAdvanced s₁ s₃ := by
  unfold EncoderAdvanced at h h' ⊢
  omega

/-- Changes that neither the cursor nor the history sees. -/
lemma EncoderAdvanced.of_same (hemitted : s'.frontend.enc.emitted = s.frontend.enc.emitted)
    (htrace : encodedFrames s'.trace = encodedFrames s.trace) : EncoderAdvanced s s' := by
  unfold EncoderAdvanced
  rw [hemitted, htrace]

/-- The frames of two histories add up. -/
lemma encodedFrames_append (trace more : List (TraceEntry ε γ)) :
    encodedFrames (trace ++ more) = encodedFrames trace + encodedFrames more := by
  simp [encodedFrames, encoderRuns_append]

/-- One graph more. -/
lemma encodedFrames_concat (trace : List (TraceEntry ε γ)) (qStart n physical : ℕ) :
    encodedFrames (trace ++ [.encoderRun qStart n physical]) = encodedFrames trace + n := by
  rw [encodedFrames_append]
  rfl

variable (eng) in
/-- A graph that stopped is not recorded, and leaves the cursor where it is. -/
lemma runEncoderKvBatch_stopped {qStart n physical : ℕ}
    (hstop : (runEncoderKvBatch eng s qStart n physical).2 = false) :
    EncoderAdvanced s (runEncoderKvBatch eng s qStart n physical).1 := by
  unfold runEncoderKvBatch at hstop ⊢
  simp only at hstop ⊢
  split_ifs at hstop ⊢
  all_goals exact .of_same rfl rfl

variable (eng) in
/-- A batch at the cursor moves it by its frames. -/
lemma runEncoderKvBatch_advanced {q0 : ℕ} (hq0 : q0 = s.frontend.enc.emitted) (n physical : ℕ) :
    EncoderAdvanced s (runEncoderKvBatch eng s q0 n physical).1 := by
  cases hran : (runEncoderKvBatch eng s q0 n physical).2 with
  | false => exact runEncoderKvBatch_stopped eng hran
  | true =>
    obtain ⟨htrace, hemitted⟩ := runEncoderKvBatch_recorded hran
    unfold EncoderAdvanced
    rw [htrace, hemitted, encodedFrames_concat, hq0]
    omega

variable (eng) in
/-- So does a batch behind its checks. -/
lemma encoderKvRun_advanced {q0 : ℕ} (hq0 : q0 = s.frontend.enc.emitted) (n physical : ℕ) :
    EncoderAdvanced s (encoderKvRun eng s q0 n physical).1 := by
  have hrun := runEncoderKvBatch_advanced eng hq0 n physical
  unfold encoderKvRun
  simp only
  split_ifs
  · exact .refl s
  · exact .refl s
  · exact hrun
  · refine hrun.trans (.of_same ?_ rfl)
    unfold encoderKvTrimTail
    dsimp only
    split <;> rfl

variable (eng) in
/-- The loop of the batches moves the cursor by their frames. -/
lemma encoderKvDriveLoop_advanced (final : Bool) (target fuel : ℕ) (s : Stream α φ ε γ κ) :
    EncoderAdvanced s (encoderKvDriveLoop eng final target fuel s).1 := by
  induction fuel generalizing s with
  | zero => exact .refl s
  | succ fuel ih =>
    rw [encoderKvDriveLoop]
    simp only
    split_ifs with _ _ hfirst
    all_goals first
      | exact .refl s
      | exact encoderKvRun_advanced eng hfirst.1.symm _ _
      | exact (encoderKvRun_advanced eng hfirst.1.symm _ _).trans (ih _)
      | exact encoderKvRun_advanced eng rfl _ _
      | exact (encoderKvRun_advanced eng rfl _ _).trans (ih _)

variable (eng) in
/-- So does a push of Mel frames. -/
lemma encoderStreamPushMel_advanced (s : Stream α φ ε γ κ) (final : Bool) (frames : List φ)
    (baseFrame : ℕ) : EncoderAdvanced s (encoderStreamPushMel eng s final frames baseFrame).1 := by
  unfold encoderStreamPushMel
  simp only
  split_ifs
  · exact .refl s
  · exact .refl s
  · exact .refl s
  · exact EncoderAdvanced.trans (.of_same rfl rfl) (encoderKvDriveLoop_advanced eng final _ _ _)

variable (eng) in
/-- So does the finish of the encoder. -/
lemma encoderStreamFinish_advanced (s : Stream α φ ε γ κ) :
    EncoderAdvanced s (encoderStreamFinish eng s).1 := by
  unfold encoderStreamFinish
  simp only
  split_ifs
  · exact .refl s
  · exact (encoderKvDriveLoop_advanced eng true _ _ s).trans (.of_same rfl rfl)

variable (eng) in
/-- So does the loop that drains the Mel frontend. -/
lemma drainMelLoop_advanced (total fuel : ℕ) (s : Stream α φ ε γ κ) :
    EncoderAdvanced s (drainMelLoop eng total fuel s).1 := by
  induction fuel generalizing s with
  | zero => exact .refl s
  | succ fuel ih =>
    rw [drainMelLoop]
    simp only
    split_ifs
    · cases melFrontendFrameData s.frontend.melFe s.frontend.encPushedFrames with
      | none => exact .of_same rfl rfl
      | some frames =>
        have hpush := encoderStreamPushMel_advanced eng s false
          (frames.take (min melDrainSlice (total - s.frontend.encPushedFrames)))
          s.frontend.encPushedFrames
        simp only
        split_ifs
        · exact hpush
        · exact EncoderAdvanced.trans hpush (EncoderAdvanced.trans (.of_same rfl rfl) (ih _))
    · exact .refl s

variable (eng) in
/-- So does the drain. -/
lemma drainMelToEncoder_advanced (s : Stream α φ ε γ κ) (final : Bool) :
    EncoderAdvanced s (drainMelToEncoder eng s final).1 := by
  unfold drainMelToEncoder
  simp only
  split_ifs
  · exact .refl s
  · exact .of_same rfl rfl
  · cases melFrontendFrameData s.frontend.melFe s.frontend.encPushedFrames with
    | none => exact .of_same rfl rfl
    | some frames =>
      have hpush := encoderStreamPushMel_advanced eng s true
        (frames.take (s.frontend.melFe.nextFrame - s.frontend.encPushedFrames))
        s.frontend.encPushedFrames
      simp only
      split_ifs
      · exact hpush
      · exact hpush.trans (.of_same rfl rfl)
  · exact drainMelLoop_advanced eng _ _ s

/-- So does the left padding. -/
lemma ensureLeftPad_advanced [Zero α] (h : ensureLeftPad eng s = some s') : EncoderAdvanced s s' := by
  obtain ⟨_, _, rfl⟩ := ensureLeftPad_eq h
  exact .of_same rfl rfl

/-- So does a slice of audio. -/
lemma absorbSlice_advanced {slice : List α} {ok : Bool}
    (h : absorbSlice eng s slice = some (s', ok)) : EncoderAdvanced s s' := by
  unfold absorbSlice at h
  obtain ⟨r, -, hr⟩ := Option.map_eq_some_iff.mp h
  simp only at hr
  split_ifs at hr
  · obtain ⟨rfl, -⟩ := Prod.mk.inj hr
    exact .of_same rfl rfl
  · have hs' := congrArg Prod.fst hr
    dsimp only at hs'
    rw [← hs']
    exact EncoderAdvanced.trans (.of_same rfl rfl) (drainMelToEncoder_advanced eng _ _)

/-- So does the frontend part of a finish. -/
lemma finishFrontend_advanced [Zero α] {out : Option String}
    (h : finishFrontend eng s = some (s', out)) : EncoderAdvanced s s' := by
  unfold finishFrontend at h
  obtain ⟨t, hpad, h⟩ := Option.bind_eq_some_iff.mp h
  obtain ⟨r, -, h⟩ := Option.bind_eq_some_iff.mp h
  obtain ⟨melFe, -, h⟩ := Option.map_eq_some_iff.mp h
  have hdrain := drainMelToEncoder_advanced eng
    { t with frontend := { t.frontend with melFe := melFe } } true
  have hpadded : EncoderAdvanced s t := ensureLeftPad_advanced hpad
  have hstart : EncoderAdvanced s { t with frontend := { t.frontend with melFe := melFe } } := hpadded
  have hs' := congrArg Prod.fst h
  dsimp only at hs'
  rw [← hs']
  split_ifs
  · exact hstart.trans hdrain
  · exact (hstart.trans hdrain).trans (encoderStreamFinish_advanced eng _)
  · exact (hstart.trans hdrain).trans (encoderStreamFinish_advanced eng _)

/-- A pump runs no encoder graph. -/
lemma PumpStep.advanced (h : PumpStep eng s s') : EncoderAdvanced s s' := by
  apply EncoderAdvanced.of_same
  · rw [h.frame.frontend]
  · unfold encodedFrames
    rw [h.encoderRuns]

end Voxtral
