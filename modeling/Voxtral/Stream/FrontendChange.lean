import Voxtral.Stream.Session

/-!
# What the frontend part of a call can do

Absorbing samples and running the encoder change the frontend, the encoder ring and the history; the
decoder, the events and the audio-embedding ring stay as they are.
-/

namespace Voxtral

variable {α φ ε γ κ : Type*}

/-- A graph run of the encoder. -/
def TraceEntry.IsEncoderRun : TraceEntry ε γ → Prop
  | .encoderRun _ _ _ => True
  | _ => False

/-- The frontend took samples or ran the encoder. -/
structure FrontendChange (s s' : Stream α φ ε γ κ) : Prop where
  params : s'.params = s.params
  decoder : s'.decoder = s.decoder
  events : s'.events = s.events
  audioEmbRing : s'.device.audioEmbRing = s.device.audioEmbRing
  decKv : s'.device.decKv = s.device.decKv
  state : s'.lifecycle.state = s.lifecycle.state
  totalReceived : s'.lifecycle.totalSamplesReceived = s.lifecycle.totalSamplesReceived
  samples : s.frontend.realSamples <+: s'.frontend.realSamples
  history : s.frontend.enc.melHistory <+: s'.frontend.enc.melHistory
  finalized : s.frontend.melFe.finalized = true → s'.frontend.melFe.finalized = true
  trace : ∃ runs, s'.trace = s.trace ++ runs ∧ ∀ e ∈ runs, TraceEntry.IsEncoderRun e

section Frontend

variable {eng : Engine α φ ε γ κ} {s s' : Stream α φ ε γ κ}

/-! ## The frontend part of a call -/

/-- Nothing changed. -/
lemma FrontendChange.refl (s : Stream α φ ε γ κ) : FrontendChange s s :=
  ⟨rfl, rfl, rfl, rfl, rfl, rfl, rfl, List.prefix_rfl, List.prefix_rfl, id, [], by simp, by simp⟩

/-- Changes of the frontend, the encoder ring, the submission count and the error state only. -/
lemma FrontendChange.of_quiet (s : Stream α φ ε γ κ) (f : Frontend α φ) (ring : HistoryRing ε)
    (submits : ℕ) (status : Status) (msg : String)
    (hsamples : s.frontend.realSamples <+: f.realSamples)
    (hhistory : s.frontend.enc.melHistory <+: f.enc.melHistory)
    (hfinalized : s.frontend.melFe.finalized = true → f.melFe.finalized = true) :
    FrontendChange s
      { s with
        frontend := f
        device := { s.device with encOutRing := ring, submits := submits }
        lifecycle := { s.lifecycle with lastStatus := status, lastError := msg } } :=
  ⟨rfl, rfl, rfl, rfl, rfl, rfl, rfl, hsamples, hhistory, hfinalized, [], by simp, by simp⟩

/-- Two changes of the frontend. -/
lemma FrontendChange.trans {s₁ s₂ s₃ : Stream α φ ε γ κ} (h : FrontendChange s₁ s₂)
    (h' : FrontendChange s₂ s₃) : FrontendChange s₁ s₃ where
  params := h'.params.trans h.params
  decoder := h'.decoder.trans h.decoder
  events := h'.events.trans h.events
  audioEmbRing := h'.audioEmbRing.trans h.audioEmbRing
  decKv := h'.decKv.trans h.decKv
  state := h'.state.trans h.state
  totalReceived := h'.totalReceived.trans h.totalReceived
  samples := h.samples.trans h'.samples
  history := h.history.trans h'.history
  finalized := h'.finalized ∘ h.finalized
  trace := by
    obtain ⟨runs, htrace, hruns⟩ := h.trace
    obtain ⟨runs', htrace', hruns'⟩ := h'.trace
    refine ⟨runs ++ runs', by rw [htrace', htrace, List.append_assoc], fun e he => ?_⟩
    rcases List.mem_append.mp he with he | he
    · exact hruns e he
    · exact hruns' e he

/-- Noting an error changes nothing behind the frontend. -/
lemma setError_frontendChange (s : Stream α φ ε γ κ) (status : Status) (msg : String) :
    FrontendChange s (setError s status msg) :=
  .of_quiet s s.frontend s.device.encOutRing s.device.submits status msg List.prefix_rfl
    List.prefix_rfl id

variable (eng) in
/-- Nor does the submission of a graph. -/
lemma submitGraph_frontendChange (s : Stream α φ ε γ κ) :
    FrontendChange s (submitGraph eng s).1 :=
  .of_quiet s s.frontend s.device.encOutRing (s.device.submits + 1) _ _ List.prefix_rfl
    List.prefix_rfl id

variable (eng) in
/-- A batch of the encoder changes the frontend only. -/
lemma runEncoderKvBatch_frontendChange (s : Stream α φ ε γ κ) (qStart n physical : ℕ) :
    FrontendChange s (runEncoderKvBatch eng s qStart n physical).1 := by
  unfold runEncoderKvBatch
  have hsubmit := submitGraph_frontendChange eng s
  simp only
  split_ifs
  · exact FrontendChange.refl s
  · exact hsubmit
  · exact hsubmit
  · exact hsubmit.trans ⟨rfl, rfl, rfl, rfl, rfl, rfl, rfl, List.prefix_rfl, List.prefix_rfl, id,
      [_], rfl,
      by simp [TraceEntry.IsEncoderRun]⟩
  · exact hsubmit.trans (submitGraph_frontendChange eng _)
  · exact hsubmit.trans ((submitGraph_frontendChange eng _).trans
      ⟨rfl, rfl, rfl, rfl, rfl, rfl, rfl, List.prefix_rfl, List.prefix_rfl, id,
      [_], rfl,
      by simp [TraceEntry.IsEncoderRun]⟩)

variable (eng) in
/-- So does a batch behind its checks. -/
lemma encoderKvRun_frontendChange (s : Stream α φ ε γ κ) (q0 n physical : ℕ) :
    FrontendChange s (encoderKvRun eng s q0 n physical).1 := by
  have hrun := runEncoderKvBatch_frontendChange eng s q0 n physical
  unfold encoderKvRun
  simp only
  split_ifs
  · exact FrontendChange.refl s
  · exact FrontendChange.refl s
  · exact hrun
  · refine hrun.trans (.of_quiet _ _ _ _ _ _ List.prefix_rfl ?_ id)
    simp only [encoderKvTrimTail]
    split_ifs <;> exact List.prefix_rfl

variable (eng) in
/-- So does the loop of the batches. -/
lemma encoderKvDriveLoop_frontendChange (final : Bool) (target fuel : ℕ)
    (s : Stream α φ ε γ κ) : FrontendChange s (encoderKvDriveLoop eng final target fuel s).1 := by
  induction fuel generalizing s with
  | zero => exact FrontendChange.refl s
  | succ fuel ih =>
    rw [encoderKvDriveLoop]
    simp only
    split_ifs
    all_goals first
      | exact FrontendChange.refl s
      | exact encoderKvRun_frontendChange eng s _ _ _
      | exact (encoderKvRun_frontendChange eng s _ _ _).trans (ih _)

variable (eng) in
/-- So does a push of Mel frames. -/
lemma encoderStreamPushMel_frontendChange (s : Stream α φ ε γ κ) (final : Bool) (frames : List φ)
    (baseFrame : ℕ) : FrontendChange s (encoderStreamPushMel eng s final frames baseFrame).1 := by
  unfold encoderStreamPushMel
  simp only
  split_ifs
  · exact FrontendChange.refl s
  · exact FrontendChange.refl s
  · exact FrontendChange.refl s
  · refine FrontendChange.trans ?_ (encoderKvDriveLoop_frontendChange eng _ _ _ _)
    exact .of_quiet s _ _ _ _ _ List.prefix_rfl (List.prefix_append _ frames) id

variable (eng) in
/-- So does the finish of the encoder. -/
lemma encoderStreamFinish_frontendChange (s : Stream α φ ε γ κ) :
    FrontendChange s (encoderStreamFinish eng s).1 := by
  unfold encoderStreamFinish
  simp only
  split_ifs
  · exact FrontendChange.refl s
  · exact (encoderKvDriveLoop_frontendChange eng true _ _ s).trans
      (.of_quiet _ _ _ _ _ _ List.prefix_rfl List.prefix_rfl id)

variable (eng) in
/-- So does the loop that drains the Mel frontend. -/
lemma drainMelLoop_frontendChange (total fuel : ℕ) (s : Stream α φ ε γ κ) :
    FrontendChange s (drainMelLoop eng total fuel s).1 := by
  induction fuel generalizing s with
  | zero => exact FrontendChange.refl s
  | succ fuel ih =>
    rw [drainMelLoop]
    simp only
    split_ifs with hbase
    · cases melFrontendFrameData s.frontend.melFe s.frontend.encPushedFrames with
      | none => exact setError_frontendChange s _ _
      | some frames =>
        have hpush := encoderStreamPushMel_frontendChange eng s false
          (frames.take (min melDrainSlice (total - s.frontend.encPushedFrames)))
          s.frontend.encPushedFrames
        simp only
        split_ifs
        · exact hpush.trans (setError_frontendChange _ _ _)
        · refine FrontendChange.trans (hpush.trans ?_) (ih _)
          exact .of_quiet _ _ _ _ _ _ List.prefix_rfl List.prefix_rfl (by simp)
    · exact FrontendChange.refl s

variable (eng) in
/-- So does the drain. -/
lemma drainMelToEncoder_frontendChange (s : Stream α φ ε γ κ) (final : Bool) :
    FrontendChange s (drainMelToEncoder eng s final).1 := by
  unfold drainMelToEncoder
  simp only
  split_ifs
  · exact FrontendChange.refl s
  · exact setError_frontendChange s _ _
  · cases melFrontendFrameData s.frontend.melFe s.frontend.encPushedFrames with
    | none => exact setError_frontendChange s _ _
    | some frames =>
      have hpush := encoderStreamPushMel_frontendChange eng s true
        (frames.take (s.frontend.melFe.nextFrame - s.frontend.encPushedFrames))
        s.frontend.encPushedFrames
      simp only
      split_ifs
      · exact hpush.trans (setError_frontendChange _ _ _)
      · exact hpush.trans (.of_quiet _ _ _ _ _ _ List.prefix_rfl List.prefix_rfl (by simp))
  · exact drainMelLoop_frontendChange eng _ _ s

/-- So does the left padding. -/
lemma ensureLeftPad_frontendChange [Zero α] (h : ensureLeftPad eng s = some s') :
    FrontendChange s s' := by
  unfold ensureLeftPad at h
  split_ifs at h
  · obtain rfl := Option.some.inj h
    exact FrontendChange.refl s
  · obtain ⟨r, hfeed, rfl⟩ := Option.map_eq_some_iff.mp h
    exact .of_quiet s _ _ _ _ _ List.prefix_rfl List.prefix_rfl (melFrontendFeed_finalized hfeed)

/-- The left padding reaches the Mel frontend only. -/
lemma ensureLeftPad_eq [Zero α] (h : ensureLeftPad eng s = some s') :
    ∃ padded fe, s' = { s with frontend := { s.frontend with
      leftPadInjected := padded, melFe := fe } } := by
  unfold ensureLeftPad at h
  split_ifs at h
  · obtain rfl := Option.some.inj h
    exact ⟨_, _, rfl⟩
  · obtain ⟨r, -, rfl⟩ := Option.map_eq_some_iff.mp h
    exact ⟨_, _, rfl⟩

/-- So does a slice of audio. -/
lemma absorbSlice_frontendChange {slice : List α} {ok : Bool}
    (h : absorbSlice eng s slice = some (s', ok)) : FrontendChange s s' := by
  unfold absorbSlice at h
  obtain ⟨r, hfeed, hr⟩ := Option.map_eq_some_iff.mp h
  have hquiet := FrontendChange.of_quiet s { s.frontend with
    melFe := r.2, realSamples := s.frontend.realSamples ++ slice } s.device.encOutRing
    s.device.submits s.lifecycle.lastStatus s.lifecycle.lastError (List.prefix_append _ slice)
    List.prefix_rfl (melFrontendFeed_finalized hfeed)
  simp only at hr
  split_ifs at hr
  · obtain ⟨rfl, -⟩ := Prod.mk.inj hr
    exact hquiet.trans (setError_frontendChange _ _ _)
  · have hs' := congrArg Prod.fst hr
    simp only at hs'
    rw [← hs']
    exact hquiet.trans (drainMelToEncoder_frontendChange eng _ _)

end Frontend

end Voxtral
