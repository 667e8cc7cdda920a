import Voxtral.Stream.AlikeCalls
import Voxtral.Stream.CallCases

/-!
# What the Mel frontend is handed

Every call on a stream reaches its Mel frontend as a list of calls: samples or silence are fed, frames
the encoder took over are discarded, and a finish ends the signal.  `MelFed` records the samples handed
over, in order, whatever becomes of the call.
-/

namespace Voxtral

variable {α φ ε γ κ : Type*}

/-! ## Lists of frontend calls -/

section Fed

variable [Zero α] {kernel : List α → φ} {fe fe' fe'' : MelFrontend α φ} {samples more : List α}

/-- A call a stream makes on its Mel frontend before the next reset. -/
def MelCall.IsStream : MelCall α → Prop
  | .setRetainHistory _ | .reset => False
  | _ => True

/-- The frontend was handed `samples`, in order. -/
def MelFed (kernel : List α → φ) (fe fe' : MelFrontend α φ) (samples : List α) : Prop :=
  ∃ calls os, (∀ c ∈ calls, MelCall.IsStream c) ∧
    runSteps (melStep kernel) fe calls = some (fe', os) ∧ calls.flatMap MelCall.samples = samples

/-- A frontend that was fed nothing. -/
lemma MelFed.refl (kernel : List α → φ) (fe : MelFrontend α φ) : MelFed kernel fe fe [] :=
  ⟨[], [], by simp, rfl, rfl⟩

/-- Samples behind samples. -/
lemma MelFed.trans (h : MelFed kernel fe fe' samples) (h' : MelFed kernel fe' fe'' more) :
    MelFed kernel fe fe'' (samples ++ more) := by
  obtain ⟨calls, os, hcalls, hrun, rfl⟩ := h
  obtain ⟨calls', os', hcalls', hrun', rfl⟩ := h'
  refine ⟨calls ++ calls', os ++ os', ?_, ?_, List.flatMap_append⟩
  · intro c hc
    rcases List.mem_append.mp hc with hc | hc
    · exact hcalls c hc
    · exact hcalls' c hc
  · exact runSteps_append.mpr ⟨fe', os, os', hrun, hrun', rfl⟩

/-- One call. -/
lemma MelFed.of_call {c : MelCall α} {o : Bool} (hc : c.IsStream)
    (h : melStep kernel fe c = some (fe', o)) : MelFed kernel fe fe' c.samples := by
  refine ⟨[c], [o], ?_, ?_, List.flatMap_singleton ..⟩
  · intro d hd
    rwa [List.mem_singleton.mp hd]
  · exact runSteps_singleton.mpr ⟨o, h, rfl⟩

/-- A feed feeds its samples. -/
lemma MelFed.feed {pcm : List α} {o : Bool} (h : melFrontendFeed kernel fe pcm = some (o, fe')) :
    MelFed kernel fe fe' pcm :=
  MelFed.of_call (c := .feed pcm) (o := o) trivial (by rw [melStep, h]; rfl)

/-- Silence feeds zeros. -/
lemma MelFed.feedSilence {n : ℕ} {o : Bool}
    (h : melFrontendFeedSilence kernel fe n = some (o, fe')) :
    MelFed kernel fe fe' (List.replicate n 0) :=
  MelFed.of_call (c := .feedSilence n) (o := o) trivial (by rw [melStep, h]; rfl)

/-- The finish feeds nothing. -/
lemma MelFed.finish (h : melFrontendFinish kernel fe = some fe') : MelFed kernel fe fe' [] :=
  MelFed.of_call (c := .finish) (o := true) trivial (by rw [melStep, h]; rfl)

/-- Discarding frames feeds nothing. -/
lemma MelFed.discard (kernel : List α → φ) (fe : MelFrontend α φ) (frame : ℤ) :
    MelFed kernel fe (melFrontendDiscardBefore fe frame) [] :=
  MelFed.of_call (c := .discardBefore frame) (o := true) trivial rfl

omit [Zero α] in
/-- Computing frames leaves the history mode alone. -/
lemma emitStableLoop_retainHistory (fuel : ℕ)
    (h : emitStableLoop kernel fuel fe = some fe') : fe'.retainHistory = fe.retainHistory := by
  induction fuel generalizing fe with
  | zero => rw [← Option.some.inj h]
  | succ fuel ih =>
    rw [emitStableLoop] at h
    split_ifs at h
    · obtain ⟨filled, -, h⟩ := Option.bind_eq_some_iff.mp h
      have hkept := ih h
      exact hkept
    · rw [← Option.some.inj h]

omit [Zero α] in
/-- The loop of the finish leaves the history mode. -/
lemma finishLoop_retainHistory (nTotal fuel : ℕ)
    (h : finishLoop kernel nTotal fuel fe = some fe') : fe'.retainHistory = fe.retainHistory := by
  induction fuel generalizing fe with
  | zero => rw [← Option.some.inj h]
  | succ fuel ih =>
    rw [finishLoop] at h
    split_ifs at h
    · obtain ⟨filled, -, h⟩ := Option.bind_eq_some_iff.mp h
      have hkept := ih h
      exact hkept
    · rw [← Option.some.inj h]

omit [Zero α] in
/-- So does a feed. -/
lemma melFrontendFeed_retainHistory {pcm : List α} {o : Bool}
    (h : melFrontendFeed kernel fe pcm = some (o, fe')) : fe'.retainHistory = fe.retainHistory := by
  unfold melFrontendFeed at h
  split_ifs at h
  · rw [← (Prod.mk.inj (Option.some.inj h)).2]
  · rw [← (Prod.mk.inj (Option.some.inj h)).2]
  · obtain ⟨t, hemit, hr⟩ := Option.map_eq_some_iff.mp h
    have hkept := emitStableLoop_retainHistory _ hemit
    rw [← (Prod.mk.inj hr).2, compact_retainHistory]
    exact hkept

/-- A call of a stream leaves the history mode alone. -/
lemma melStep_retainHistory {c : MelCall α} {o : Bool} (hc : c.IsStream)
    (h : melStep kernel fe c = some (fe', o)) : fe'.retainHistory = fe.retainHistory := by
  cases c with
  | feed pcm =>
    obtain ⟨r, hfeed, hr⟩ := Option.map_eq_some_iff.mp h
    rw [← (Prod.mk.inj hr).1]
    exact melFrontendFeed_retainHistory hfeed
  | feedSilence n =>
    obtain ⟨r, hfeed, hr⟩ := Option.map_eq_some_iff.mp h
    rw [← (Prod.mk.inj hr).1]
    exact melFrontendFeed_retainHistory hfeed
  | finish =>
    obtain ⟨t, hfinish, hr⟩ := Option.map_eq_some_iff.mp h
    rw [← (Prod.mk.inj hr).1]
    unfold melFrontendFinish at hfinish
    split_ifs at hfinish
    · rw [← Option.some.inj hfinish]
    · obtain ⟨u, hloop, rfl⟩ := Option.map_eq_some_iff.mp hfinish
      have hkept := finishLoop_retainHistory _ _ hloop
      exact hkept
  | discardBefore frame =>
    rw [← (Prod.mk.inj (Option.some.inj h)).1]
    unfold melFrontendDiscardBefore
    dsimp only
    split_ifs <;> rfl
  | setRetainHistory retain => exact absurd hc id
  | reset => exact absurd hc id

/-- So does every feeding. -/
lemma MelFed.retainHistory (h : MelFed kernel fe fe' samples) :
    fe'.retainHistory = fe.retainHistory := by
  obtain ⟨calls, os, hcalls, hrun, -⟩ := h
  induction calls generalizing fe os with
  | nil => rw [(Prod.mk.inj (Option.some.inj hrun)).1]
  | cons c calls ih =>
    obtain ⟨t, o, os', hstep, hrest, -⟩ := runSteps_cons_eq_some.mp hrun
    rw [ih os' (fun d hd => hcalls d (List.mem_cons_of_mem _ hd)) hrest]
    exact melStep_retainHistory (hcalls c List.mem_cons_self) hstep

end Fed

/-! ## The encoder leaves the Mel frontend alone -/

section Encoder

variable {eng : Engine α φ ε γ κ} {s s' : Stream α φ ε γ κ}

variable (eng) in
/-- A batch of the encoder leaves the Mel frontend. -/
lemma encoderKvRun_melFe (s : Stream α φ ε γ κ) (q0 n physical : ℕ) :
    (encoderKvRun eng s q0 n physical).1.frontend.melFe = s.frontend.melFe := by
  have hbatch : (runEncoderKvBatch eng s q0 n physical).1.frontend.melFe = s.frontend.melFe := by
    unfold runEncoderKvBatch submitGraph
    dsimp only
    split_ifs <;> rfl
  unfold encoderKvRun
  split_ifs
  · rfl
  · rfl
  · dsimp only
    split_ifs <;> exact hbatch

variable (eng) in
/-- So does the loop of the batches. -/
lemma encoderKvDriveLoop_melFe (final : Bool) (target fuel : ℕ) (s : Stream α φ ε γ κ) :
    (encoderKvDriveLoop eng final target fuel s).1.frontend.melFe = s.frontend.melFe := by
  induction fuel generalizing s with
  | zero => rfl
  | succ fuel ih =>
    rw [encoderKvDriveLoop]
    dsimp only
    split_ifs
    all_goals first
      | rfl
      | exact encoderKvRun_melFe eng s _ _ _
      | exact (ih _).trans (encoderKvRun_melFe eng s _ _ _)

variable (eng) in
/-- So does a push of Mel frames. -/
lemma encoderStreamPushMel_melFe (s : Stream α φ ε γ κ) (final : Bool) (frames : List φ)
    (baseFrame : ℕ) :
    (encoderStreamPushMel eng s final frames baseFrame).1.frontend.melFe = s.frontend.melFe := by
  unfold encoderStreamPushMel
  dsimp only
  split_ifs
  · rfl
  · rfl
  · rfl
  · exact encoderKvDriveLoop_melFe eng _ _ _ _

variable (eng) in
/-- So does the finish of the encoder. -/
lemma encoderStreamFinish_melFe (s : Stream α φ ε γ κ) :
    (encoderStreamFinish eng s).1.frontend.melFe = s.frontend.melFe := by
  unfold encoderStreamFinish
  split_ifs
  · rfl
  · exact encoderKvDriveLoop_melFe eng _ _ _ _

variable [Zero α]

variable (eng) in
/-- Handing frames over discards them from the frontend. -/
lemma drainMelLoop_melFed (total fuel : ℕ) (s : Stream α φ ε γ κ) :
    MelFed eng.melFrame s.frontend.melFe (drainMelLoop eng total fuel s).1.frontend.melFe [] := by
  induction fuel generalizing s with
  | zero => exact MelFed.refl _ _
  | succ fuel ih =>
    rw [drainMelLoop]
    dsimp only
    split_ifs
    · split
      · exact MelFed.refl _ _
      · rename_i frames _
        have hpush := encoderStreamPushMel_melFe eng s false
          (frames.take (min melDrainSlice (total - s.frontend.encPushedFrames)))
          s.frontend.encPushedFrames
        split_ifs
        · rw [setError, hpush]
          exact MelFed.refl _ _
        · have hrest : ∀ u : Stream α φ ε γ κ,
              u.frontend.melFe = melFrontendDiscardBefore s.frontend.melFe
                (s.frontend.encPushedFrames +
                  min melDrainSlice (total - s.frontend.encPushedFrames) : ℕ) →
              MelFed eng.melFrame s.frontend.melFe
                (drainMelLoop eng total fuel u).1.frontend.melFe [] := by
            intro u hu
            have hloop := ih u
            rw [hu] at hloop
            exact (MelFed.discard _ _ _).trans hloop
          exact hrest _ (congrArg (melFrontendDiscardBefore · _) hpush)
    · exact MelFed.refl _ _

variable (eng) in
/-- The drain feeds the Mel frontend nothing. -/
lemma drainMelToEncoder_melFed (s : Stream α φ ε γ κ) (final : Bool) :
    MelFed eng.melFrame s.frontend.melFe (drainMelToEncoder eng s final).1.frontend.melFe [] := by
  unfold drainMelToEncoder
  dsimp only
  split_ifs
  · exact MelFed.refl _ _
  · exact MelFed.refl _ _
  · split
    · exact MelFed.refl _ _
    · rename_i frames _
      have hpush := encoderStreamPushMel_melFe eng s true
        (frames.take (s.frontend.melFe.nextFrame - s.frontend.encPushedFrames))
        s.frontend.encPushedFrames
      split_ifs
      · rw [setError, hpush]
        exact MelFed.refl _ _
      · dsimp only
        rw [hpush]
        exact MelFed.discard _ _ _
  · exact drainMelLoop_melFed eng _ _ s

/-- The left padding is handed over once. -/
lemma ensureLeftPad_melFed (h : ensureLeftPad eng s = some s') :
    MelFed eng.melFrame s.frontend.melFe s'.frontend.melFe
      (if s.frontend.leftPadInjected then [] else List.replicate streamLeftPad 0) := by
  unfold ensureLeftPad at h
  split_ifs at h ⊢
  · rw [Option.some.inj h]
    exact MelFed.refl _ _
  · obtain ⟨r, hfeed, rfl⟩ := Option.map_eq_some_iff.mp h
    exact MelFed.feedSilence hfeed

/-- A slice is handed over, whatever becomes of its frames. -/
lemma absorbSlice_melFed {slice : List α} {ok : Bool}
    (h : absorbSlice eng s slice = some (s', ok)) :
    MelFed eng.melFrame s.frontend.melFe s'.frontend.melFe slice := by
  unfold absorbSlice at h
  obtain ⟨r, hfeed, hr⟩ := Option.map_eq_some_iff.mp h
  dsimp only at hr
  split_ifs at hr
  · rw [← (Prod.mk.inj hr).1]
    exact MelFed.feed hfeed
  · have hdrain := drainMelToEncoder_melFed eng
      { s with frontend := { s.frontend with
        melFe := r.2, realSamples := s.frontend.realSamples ++ slice } } false
    rw [hr] at hdrain
    have hfed := (MelFed.feed hfeed).trans hdrain
    rwa [List.append_nil] at hfed

/-- Where the slice loop of a feed leads, as far as the samples are concerned: all slices are handed
over, unless a graph failed. -/
structure SlicesFed (eng : Engine α φ ε γ κ) (s s' : Stream α φ ε γ κ) (slices : List (List α))
    (status : Status) : Prop where
  fed : ∃ fed, MelFed eng.melFrame s.frontend.melFe s'.frontend.melFe fed ∧
    (status ≠ .backendError → fed = slices.flatten)
  total : s'.lifecycle.totalSamplesReceived = s.lifecycle.totalSamplesReceived
  result : PumpStatus status

/-- A slice in front of the others. -/
lemma SlicesFed.cons {t u : Stream α φ ε γ κ} {slice : List α} {rest : List (List α)}
    {status : Status} (hslice : MelFed eng.melFrame s.frontend.melFe t.frontend.melFe slice)
    (hmel : u.frontend.melFe = t.frontend.melFe)
    (htotal : u.lifecycle.totalSamplesReceived = s.lifecycle.totalSamplesReceived)
    (h : SlicesFed eng u s' rest status) : SlicesFed eng s s' (slice :: rest) status := by
  obtain ⟨fed, hfed, hall⟩ := h.fed
  rw [hmel] at hfed
  refine ⟨⟨slice ++ fed, hslice.trans hfed, fun hne => ?_⟩, h.total.trans htotal, h.result⟩
  rw [List.flatten_cons, hall hne]

/-- The slice loop. -/
lemma feedSlices_fed (slices : List (List α)) {stalled : Bool} {status : Status}
    (hw : DecoderWithin s) (h : feedSlices eng s stalled slices = some (s', status)) :
    SlicesFed eng s s' slices status := by
  induction slices generalizing s stalled with
  | nil =>
    obtain ⟨rfl, rfl⟩ := Prod.mk.inj (Option.some.inj h)
    refine ⟨⟨[], MelFed.refl _ _, fun _ => rfl⟩, rfl, ?_⟩
    cases stalled
    · exact Or.inl rfl
    · exact Or.inr (Or.inl rfl)
  | cons slice rest ih =>
    rw [feedSlices] at h
    obtain ⟨⟨t, ok⟩, habsorb, h⟩ := Option.bind_eq_some_iff.mp h
    have hslice := absorbSlice_melFed habsorb
    have hchange := absorbSlice_frontendChange habsorb
    have hwt : DecoderWithin t := hw.of_decoder hchange.decoder rfl rfl rfl rfl rfl
    have hsteps : PumpSteps eng t (pumpIncremental eng t).1 := pumpIncremental_steps hwt
    have hpumped : (pumpIncremental eng t).1.frontend.melFe = t.frontend.melFe := by
      rw [(PumpSteps.frame hsteps).frontend]
    have htotal := (PumpSteps.frame hsteps).totalReceived.trans hchange.totalReceived
    dsimp only at h
    split_ifs at h with hok hstalled hfull hfail
    · obtain ⟨rfl, rfl⟩ := Prod.mk.inj (Option.some.inj h)
      exact ⟨⟨slice, hslice, fun hne => absurd rfl hne⟩, hchange.totalReceived, Or.inr (Or.inr rfl)⟩
    · exact .cons hslice rfl hchange.totalReceived (ih hwt h)
    · exact .cons hslice hpumped htotal (ih (PumpSteps.within hsteps hwt) h)
    · have hp : pumpIncremental eng t = (s', status) := Option.some.inj h
      have hresult := pumpIncremental_status eng t
      rw [hp] at hpumped htotal hfail hfull hresult
      refine ⟨⟨slice, by rw [hpumped]; exact hslice, fun hne => ?_⟩, htotal, hresult⟩
      exact absurd ((hresult.resolve_left hfail).resolve_left hfull) hne
    · exact .cons hslice hpumped htotal (ih (PumpSteps.within hsteps hwt) h)

/-- The frontend part of a finish hands the paddings over and ends the signal. -/
lemma finishFrontend_melFed {out : Option String} (h : finishFrontend eng s = some (s', out)) :
    ∃ fed, MelFed eng.melFrame s.frontend.melFe s'.frontend.melFe fed := by
  unfold finishFrontend at h
  obtain ⟨t, hpad, h⟩ := Option.bind_eq_some_iff.mp h
  obtain ⟨r, hsilence, h⟩ := Option.bind_eq_some_iff.mp h
  obtain ⟨melFe, hfinish, h⟩ := Option.map_eq_some_iff.mp h
  have hfed := ((ensureLeftPad_melFed hpad).trans (MelFed.feedSilence hsilence)).trans
    (MelFed.finish hfinish)
  have hdrain := drainMelToEncoder_melFed eng
    { t with frontend := { t.frontend with melFe := melFe } } true
  dsimp only at h
  split_ifs at h
  · rw [← (Prod.mk.inj h).1]
    exact ⟨_, hfed.trans hdrain⟩
  · rw [← (Prod.mk.inj h).1, encoderStreamFinish_melFe]
    exact ⟨_, hfed.trans hdrain⟩
  · rw [← (Prod.mk.inj h).1, encoderStreamFinish_melFe]
    exact ⟨_, hfed.trans hdrain⟩

end Encoder

/-! ## Calls -/

section Calls

variable [Zero α] {eng : Engine α φ ε γ κ} {s s' : Stream α φ ε γ κ}

omit [Zero α] in
/-- The bookkeeping behind a slice loop leaves the frontend alone, and counts the samples of a loop
that took them all. -/
lemma feedEnd_account (previous : Bool) (count : ℕ) (r : Stream α φ ε γ κ × Status)
    (hr : PumpStatus r.2) :
    (feedEnd previous count r).1.frontend = r.1.frontend ∧
      (r.2 ≠ .backendError → (feedEnd previous count r).1.lifecycle.totalSamplesReceived =
        r.1.lifecycle.totalSamplesReceived + count) := by
  unfold feedEnd
  dsimp only
  rcases hr with hr | hr | hr
  all_goals
    rw [hr]
    exact ⟨rfl, fun hne => by first | rfl | exact absurd rfl hne⟩

/-- The audio path of a feed hands the left padding over, if it was not, and then the samples, unless
it fails in the backend; it counts what it handed over. -/
lemma feedAudio_melFed {samples : List ℤ} {status : Status} (hw : DecoderWithin s)
    (h : feedAudio eng s samples = some (s', status)) :
    (∃ fed, MelFed eng.melFrame s.frontend.melFe s'.frontend.melFe
        ((if s.frontend.leftPadInjected then [] else List.replicate streamLeftPad 0) ++ fed) ∧
      (status ≠ .backendError → fed = samples.map eng.sampleOf)) ∧
    (status ≠ .backendError → s'.lifecycle.totalSamplesReceived =
      s.lifecycle.totalSamplesReceived + samples.length) := by
  rw [feedAudio_eq] at h
  obtain ⟨t, hpad, h⟩ := Option.bind_eq_some_iff.mp h
  obtain ⟨⟨u, st⟩, hslices, hend⟩ := Option.map_eq_some_iff.mp h
  have hchange := ensureLeftPad_frontendChange hpad
  have hwt : DecoderWithin t := hw.of_decoder hchange.decoder rfl rfl rfl rfl rfl
  have hloop := feedSlices_fed _ hwt hslices
  have hstatus := feedEnd_status s.events.aggressivePartialCoalescing samples.length (u, st)
  have haccount := feedEnd_account s.events.aggressivePartialCoalescing samples.length (u, st)
    hloop.result
  rw [hend] at hstatus haccount
  obtain rfl : status = st := hstatus
  obtain ⟨hfrontend, htotal⟩ := haccount
  obtain ⟨fed, hfed, hall⟩ := hloop.fed
  rw [flatten_audioSlices] at hall
  refine ⟨⟨fed, ?_, hall⟩, fun hne => ?_⟩
  · rw [show s'.frontend = u.frontend from hfrontend]
    exact (ensureLeftPad_melFed hpad).trans hfed
  · have hcount := htotal hne
    rw [hloop.total, hchange.totalReceived] at hcount
    exact hcount

variable (eng) in
omit [Zero α] in
/-- A pump leaves the Mel frontend alone. -/
lemma pumpIncremental_frontend (hw : DecoderWithin s) :
    (pumpIncremental eng s).1.frontend = s.frontend :=
  (PumpSteps.frame (pumpIncremental_steps hw)).frontend

variable (eng) in
omit [Zero α] in
/-- A resumption leaves the frontend. -/
lemma resumed_frontend (hw : DecoderWithin s) : (resumed eng s).frontend = s.frontend := by
  unfold resumed
  split_ifs
  · exact pumpIncremental_frontend eng hw
  · rfl

variable (eng) in
omit [Zero α] in
/-- It keeps the decoder within its groups. -/
lemma resumed_within (hw : DecoderWithin s) : DecoderWithin (resumed eng s) := by
  unfold resumed
  split_ifs
  · exact PumpSteps.within (pumpIncremental_steps hw) hw
  · exact hw

/-- A feed hands some samples over. -/
lemma feedCommon_melFed {buf : FeedBuffer} {status : Status} (hw : DecoderWithin s)
    (h : feedCommon eng s buf = some (s', status)) :
    ∃ fed, MelFed eng.melFrame s.frontend.melFe s'.frontend.melFe fed := by
  have hpump := pumpIncremental_frontend eng hw
  have hresumed := resumed_frontend eng hw
  cases feedCommon_call h with
  | closed => exact ⟨[], MelFed.refl _ _⟩
  | stalled => exact ⟨[], by rw [hpump]; exact MelFed.refl _ _⟩
  | pumpFailed => exact ⟨[], by rw [hpump]; exact MelFed.refl _ _⟩
  | refused => exact ⟨[], by rw [hresumed]; exact MelFed.refl _ _⟩
  | admitted _ haudio =>
    obtain ⟨⟨fed, hfed, -⟩, -⟩ := feedAudio_melFed (resumed_within eng hw) haudio
    rw [hresumed] at hfed
    exact ⟨_, hfed⟩

/-- A finish hands some samples over. -/
lemma finishInternal_melFed {status : Status} (hw : DecoderWithin s)
    (h : finishInternal eng s = some (s', status)) :
    ∃ fed, MelFed eng.melFrame s.frontend.melFe s'.frontend.melFe fed := by
  have hpump := pumpIncremental_frontend eng hw
  have hresumed := resumed_frontend eng hw
  have hfail : ∀ (t : Stream α φ ε γ κ) (status : Status),
      (failStream t status).frontend = t.frontend := by
    intro t status
    obtain ⟨_, happ, -⟩ := failStream_appends t status
    exact happ.frontend
  have hcomplete : ∀ t : Stream α φ ε γ κ, (completeStream t).frontend = t.frontend := by
    intro t
    obtain ⟨_, happ, -⟩ := completeStream_appends t
    exact happ.frontend
  have htail : ∀ {t : Stream α φ ε γ κ} {out : Option String},
      finishFrontend eng (flushStart (resumed eng s)) = some (t, out) →
        (∃ fed, MelFed eng.melFrame s.frontend.melFe t.frontend.melFe fed) ∧
          DecoderWithin (tailStart t) := by
    intro t out hfront
    obtain ⟨fed, hfed⟩ := finishFrontend_melFed hfront
    have hdecoder := (finishFrontend_frontendChange hfront).1.decoder
    rw [show (flushStart (resumed eng s)).frontend = s.frontend from hresumed] at hfed
    refine ⟨⟨fed, hfed⟩, (resumed_within eng hw).of_decoder rfl ?_ ?_ ?_ ?_ ?_⟩
    all_goals
      rw [tailStart]
      dsimp only
      rw [hdecoder]
      rfl
  cases finishInternal_call h with
  | ended => exact ⟨[], MelFed.refl _ _⟩
  | failed => exact ⟨[], MelFed.refl _ _⟩
  | finishing => exact ⟨[], MelFed.refl _ _⟩
  | stalled => exact ⟨[], by rw [hpump]; exact MelFed.refl _ _⟩
  | pumpFailed => exact ⟨[], by rw [hfail, hpump]; exact MelFed.refl _ _⟩
  | live _ _ hpath =>
    cases hpath with
    | empty =>
      refine ⟨[], ?_⟩
      rw [hcomplete, show (emptyEnd (resumed eng s)).frontend = s.frontend from hresumed]
      exact MelFed.refl _ _
    | frontendFailed _ hfront =>
      obtain ⟨⟨fed, hfed⟩, -⟩ := htail hfront
      exact ⟨fed, by rw [finishThrew, hfail]; exact hfed⟩
    | pumpFailed _ hfront _ =>
      obtain ⟨⟨fed, hfed⟩, hwt⟩ := htail hfront
      refine ⟨fed, ?_⟩
      rw [finishThrew, hfail, setError, pumpIncremental_frontend eng hwt]
      exact hfed
    | completed _ hfront _ =>
      obtain ⟨⟨fed, hfed⟩, hwt⟩ := htail hfront
      refine ⟨fed, ?_⟩
      rw [hcomplete, tailEnd, pumpIncremental_frontend eng hwt]
      exact hfed

/-- Every call reaches the Mel frontend as a list of its calls. -/
theorem streamStep_melFed {op : Op} {r : Response} (hw : DecoderWithin s)
    (h : streamStep eng s op = some (s', r)) :
    ∃ fed, MelFed eng.melFrame s.frontend.melFe s'.frontend.melFe fed := by
  cases op with
  | feed buf =>
    obtain ⟨⟨t, status⟩, hfeed, hr'⟩ := Option.map_eq_some_iff.mp h
    obtain ⟨fed, hfed⟩ := feedCommon_melFed hw hfeed
    refine ⟨fed, ?_⟩
    rw [← (Prod.mk.inj hr').1]
    dsimp only
    split_ifs
    · obtain ⟨_, happ, -⟩ := failStream_appends
        (setError { t with events := { t.events with finalizingFlush := true } } status
          t.lifecycle.lastError) status
      rw [failStreamNoexcept, happ.frontend]
      exact hfed
    · exact hfed
  | poll =>
    obtain ⟨_, heq, -⟩ := streamPollEvent_eq s
    have hs' : (streamPollEvent s).1 = s' := congrArg Prod.fst (Option.some.inj h)
    rw [← hs', heq]
    exact ⟨[], MelFed.refl _ _⟩
  | finish =>
    obtain ⟨⟨t, status⟩, hfinish, ht⟩ := Option.map_eq_some_iff.mp h
    rw [← (Prod.mk.inj ht).1]
    exact finishInternal_melFed hw hfinish
  | cancel =>
    obtain ⟨_, happ, -⟩ := cancelInternal_appends s
    rw [← (Prod.mk.inj (Option.some.inj h)).1, happ.frontend]
    exact ⟨[], MelFed.refl _ _⟩

end Calls

end Voxtral
