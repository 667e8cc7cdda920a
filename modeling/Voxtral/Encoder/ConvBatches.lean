import Voxtral.Encoder.ConvStem
import Voxtral.Stream.EncoderSchedule

/-!
# The conv stem of a stream

Every stream starts its encoder with a block of 128 frames: the left padding makes that many frames
available before the samples do, and `encoder_kv_drive` waits for them.  So every other batch starts
behind the first two rows, where windows are exact, and the reusable graph never sees the start of the
stream.
-/

namespace Voxtral

variable {α φ ε γ κ : Type*} {eng : Engine α φ ε γ κ} {s s' : Stream α φ ε γ κ}

/-! ## The first block -/

/-- The graph of the first block, or one that starts behind it. -/
def EncoderRun.BehindStart (r : EncoderRun) : Prop :=
  r = ⟨0, encKvMaxNew, encKvMaxNew⟩ ∨ encKvMaxNew ≤ r.qStart

/-- The encoder did not start, or emitted the first block at least. -/
structure StartsWithBlock (s : Stream α φ ε γ κ) : Prop where
  emitted : s.frontend.enc.emitted = 0 ∨ encKvMaxNew ≤ s.frontend.enc.emitted
  runs : ∀ r ∈ encoderRuns s.trace, r.BehindStart

/-- The first batch is seen in the runs and the emitted frames. -/
lemma StartsWithBlock.congr (h : StartsWithBlock s)
    (hemitted : s'.frontend.enc.emitted = s.frontend.enc.emitted)
    (hruns : encoderRuns s'.trace = encoderRuns s.trace) : StartsWithBlock s' := by
  refine ⟨?_, ?_⟩
  · rw [hemitted]
    exact h.emitted
  · rw [hruns]
    exact h.runs

/-- A batch that fails changes the device only. -/
lemma runEncoderKvBatch_failed {q0 n physical : ℕ}
    (hok : (runEncoderKvBatch eng s q0 n physical).2 = false) :
    (runEncoderKvBatch eng s q0 n physical).1.frontend = s.frontend ∧
      (runEncoderKvBatch eng s q0 n physical).1.trace = s.trace := by
  unfold runEncoderKvBatch at hok ⊢
  simp only at hok ⊢
  split_ifs at hok ⊢
  all_goals exact ⟨rfl, rfl⟩

/-- A run of the first block, or of frames behind it. -/
lemma StartsWithBlock.run (h : StartsWithBlock s) {q0 n physical : ℕ}
    (hr : (⟨q0, n, physical⟩ : EncoderRun).BehindStart) :
    StartsWithBlock (encoderKvRun eng s q0 n physical).1 := by
  cases hok : (encoderKvRun eng s q0 n physical).2 with
  | true =>
    obtain ⟨hruns, hemitted⟩ := encoderKvRun_recorded hok
    refine ⟨Or.inr ?_, fun r hmem => ?_⟩
    · rw [hemitted]
      rcases hr with hr | hr
      · obtain ⟨rfl, rfl, -⟩ := EncoderRun.mk.inj hr
        exact le_of_eq (Nat.zero_add _).symm
      · exact Nat.le_add_right_of_le hr
    · rw [hruns] at hmem
      rcases List.mem_append.mp hmem with hmem | hmem
      · exact h.runs r hmem
      · rw [List.mem_singleton.mp hmem]
        exact hr
  | false =>
    unfold encoderKvRun at hok ⊢
    simp only at hok ⊢
    split_ifs at hok ⊢ with hplan hstable hran
    · exact h
    · exact h
    · simp only [Bool.not_eq_true'] at hran
      obtain ⟨hfrontend, htrace⟩ := runEncoderKvBatch_failed hran
      exact h.congr (by rw [hfrontend]) (by rw [htrace])

/-- The loop of `encoder_kv_drive`.  While audio arrives it holds the frames before the first block is
complete back; at the end the block is complete. -/
lemma StartsWithBlock.driveLoop {final : Bool} {target : ℕ}
    (hfinal : final = true → encKvMaxNew ≤ target) (fuel : ℕ) (h : StartsWithBlock s) :
    StartsWithBlock (encoderKvDriveLoop eng final target fuel s).1 := by
  induction fuel generalizing s with
  | zero => exact h
  | succ fuel ih =>
    -- one graph, then the rest
    have hnext : ∀ q0 n physical, (⟨q0, n, physical⟩ : EncoderRun).BehindStart →
        StartsWithBlock (if !(encoderKvRun eng s q0 n physical).2 then
            ((encoderKvRun eng s q0 n physical).1, false)
          else encoderKvDriveLoop eng final target fuel (encoderKvRun eng s q0 n physical).1).1 := by
      intro q0 n physical hr
      split_ifs
      · exact h.run hr
      · exact ih (h.run hr)
    rw [encoderKvDriveLoop]
    simp only
    by_cases hdone : target ≤ s.frontend.enc.emitted
    · rwa [if_pos hdone]
    rw [if_neg hdone]
    by_cases hhold : s.frontend.enc.emitted = 0 ∧ final = false ∧ target < encKvMaxNew
    · rwa [if_pos hhold]
    rw [if_neg hhold]
    by_cases hfirst : s.frontend.enc.emitted = 0 ∧ encKvMaxNew ≤ target
    · rw [if_pos hfirst]
      exact hnext 0 encKvMaxNew encKvMaxNew (Or.inl rfl)
    rw [if_neg hfirst]
    have hbehind : encKvMaxNew ≤ s.frontend.enc.emitted := by
      refine h.emitted.resolve_left fun hzero => ?_
      have hshort := not_le.mp fun hle => hfirst ⟨hzero, hle⟩
      cases final with
      | true => exact absurd (hfinal rfl) (not_le.mpr hshort)
      | false => exact hhold ⟨hzero, rfl, hshort⟩
    by_cases hpartial : final = false ∧ target - s.frontend.enc.emitted < eng.schedule.logical
    · rwa [if_pos hpartial]
    rw [if_neg hpartial]
    generalize (if final = true then eng.finishPhysical else eng.schedule.physical) = physical
    generalize (if final = true then eng.finishPhysical else eng.schedule.logical) = logical
    generalize min (min logical (physical - s.frontend.enc.emitted % physical))
      (target - s.frontend.enc.emitted) = n
    by_cases hzero : n = 0
    · rwa [if_pos hzero]
    rw [if_neg hzero]
    exact hnext _ n physical (Or.inr hbehind)

/-- A push of Mel frames. -/
lemma StartsWithBlock.push (h : StartsWithBlock s) {final : Bool} {frames : List φ} (baseFrame : ℕ)
    (hfinal : final = true →
      encKvMaxNew ≤ encFramesRealizable (s.frontend.enc.stableMel + frames.length)) :
    StartsWithBlock (encoderStreamPushMel eng s final frames baseFrame).1 := by
  unfold encoderStreamPushMel
  simp only
  split_ifs
  · exact h
  · exact h
  · exact h
  · exact .driveLoop hfinal _ (h.congr rfl rfl)

/-- The slices of a feed. -/
lemma StartsWithBlock.drainMelLoop (total fuel : ℕ) (h : StartsWithBlock s) :
    StartsWithBlock (drainMelLoop eng total fuel s).1 := by
  induction fuel generalizing s with
  | zero => exact h
  | succ fuel ih =>
    rw [Voxtral.drainMelLoop]
    simp only
    split_ifs with hbase
    · cases melFrontendFrameData s.frontend.melFe s.frontend.encPushedFrames with
      | none => exact h.congr rfl rfl
      | some frames =>
        have hpush : StartsWithBlock (encoderStreamPushMel eng s false
          (frames.take (min melDrainSlice (total - s.frontend.encPushedFrames)))
          s.frontend.encPushedFrames).1 := h.push _ fun hfalse => absurd hfalse Bool.false_ne_true
        simp only
        split_ifs
        · exact hpush.congr rfl rfl
        · exact ih (hpush.congr rfl rfl)
    · exact h

/-- A slice is absorbed. -/
lemma StartsWithBlock.absorbSlice (h : StartsWithBlock s) {slice : List α} {ok : Bool}
    (habsorb : absorbSlice eng s slice = some (s', ok)) : StartsWithBlock s' := by
  unfold Voxtral.absorbSlice at habsorb
  obtain ⟨r, -, hr⟩ := Option.map_eq_some_iff.mp habsorb
  simp only at hr
  split_ifs at hr
  · rw [← (Prod.mk.inj hr).1]
    exact h.congr rfl rfl
  · have hs' := congrArg Prod.fst hr
    simp only at hs'
    rw [← hs']
    unfold drainMelToEncoder
    simp only [Bool.false_eq_true, if_false]
    split_ifs
    · exact h.congr rfl rfl
    · exact h.congr rfl rfl
    · exact .drainMelLoop _ _ (h.congr rfl rfl)

/-- A pump leaves the encoder alone. -/
lemma StartsWithBlock.pump (h : StartsWithBlock s) (hsteps : PumpSteps eng s s') :
    StartsWithBlock s' :=
  h.congr (by rw [(PumpSteps.frame hsteps).frontend]) (PumpSteps.encoderRuns hsteps)

/-- The slice loop. -/
lemma StartsWithBlock.feedSlices (slices : List (List α)) {stalled : Bool} {status : Status}
    (h : StartsWithBlock s) (hw : DecoderWithin s)
    (hfeed : feedSlices eng s stalled slices = some (s', status)) : StartsWithBlock s' := by
  induction slices generalizing s stalled with
  | nil =>
    obtain ⟨rfl, -⟩ := Prod.mk.inj (Option.some.inj hfeed)
    exact h
  | cons slice rest ih =>
    rw [Voxtral.feedSlices] at hfeed
    obtain ⟨⟨t, ok⟩, habsorb, hfeed⟩ := Option.bind_eq_some_iff.mp hfeed
    have ht := h.absorbSlice habsorb
    have hwt : DecoderWithin t :=
      hw.of_decoder (absorbSlice_frontendChange habsorb).decoder rfl rfl rfl rfl rfl
    have hsteps : PumpSteps eng t (pumpIncremental eng t).1 := pumpIncremental_steps hwt
    dsimp only at hfeed
    split_ifs at hfeed with hok hstalled hfull hfail
    · obtain ⟨rfl, -⟩ := Prod.mk.inj (Option.some.inj hfeed)
      exact ht
    · exact ih ht hwt hfeed
    · exact ih (ht.pump hsteps) (PumpSteps.within hsteps hwt) hfeed
    · have hp : pumpIncremental eng t = (s', status) := Option.some.inj hfeed
      rw [hp] at hsteps
      exact ht.pump hsteps
    · exact ih (ht.pump hsteps) (PumpSteps.within hsteps hwt) hfeed

/-! ## Calls -/

section Calls

variable [Zero α]

/-- The audio path of a feed. -/
lemma StartsWithBlock.feedAudio (h : StartsWithBlock s) (hw : DecoderWithin s) {samples : List ℤ}
    {status : Status} (hfeed : feedAudio eng s samples = some (s', status)) : StartsWithBlock s' := by
  rw [feedAudio_eq] at hfeed
  obtain ⟨t, hpad, hfeed⟩ := Option.bind_eq_some_iff.mp hfeed
  obtain ⟨⟨u, st⟩, hslices, hend⟩ := Option.map_eq_some_iff.mp hfeed
  obtain ⟨padded, fe, rfl⟩ := ensureLeftPad_eq hpad
  have hpadded : StartsWithBlock { feedStart s samples.length with
      frontend := { (feedStart s samples.length).frontend with
        leftPadInjected := padded, melFe := fe } } := h.congr rfl rfl
  have hu := hpadded.feedSlices _ (hw.of_decoder rfl rfl rfl rfl rfl rfl) hslices
  have hs' : (feedEnd s.events.aggressivePartialCoalescing samples.length (u, st)).1 = s' :=
    congrArg Prod.fst hend
  rw [← hs']
  unfold feedEnd
  dsimp only
  split_ifs
  all_goals exact hu.congr rfl rfl

variable (eng) in
omit [Zero α] in
/-- The resume pump leaves the encoder alone. -/
lemma StartsWithBlock.resumed (h : StartsWithBlock s) (hw : DecoderWithin s) :
    StartsWithBlock (resumed eng s) :=
  h.congr (by rw [(resumed_frame eng hw).frontend]) (resumed_encoderRuns eng hw)

/-- A feed. -/
lemma StartsWithBlock.feedCommon (h : StartsWithBlock s) (hr : OpReady eng True s) {buf : FeedBuffer}
    {status : Status} (hfeed : feedCommon eng s buf = some (s', status)) : StartsWithBlock s' := by
  have hsteps : PumpSteps eng s (pumpIncremental eng s).1 := pumpIncremental_steps hr.within
  cases feedCommon_call hfeed with
  | closed => exact h.congr rfl rfl
  | stalled => exact (h.pump hsteps).congr rfl rfl
  | pumpFailed => exact h.pump hsteps
  | refused => exact (h.resumed eng hr.within).congr rfl rfl
  | admitted hadmitted haudio =>
    exact (h.resumed eng hr.within).feedAudio
      (resumed_ready hr hadmitted.1 hadmitted.2.1).1.within haudio

omit [Zero α] in
/-- Appended events leave the encoder alone. -/
lemma StartsWithBlock.appends (h : StartsWithBlock s) {t : Stream α φ ε γ κ} {es : List StreamEvent}
    (happ : Appends t s' es) (hemitted : t.frontend.enc.emitted = s.frontend.enc.emitted)
    (hruns : encoderRuns t.trace = encoderRuns s.trace) : StartsWithBlock s' :=
  h.congr (by rw [happ.frontend, hemitted]) (happ.encoderRuns.trans hruns)

/-- The frontend part of a finish: with the paddings there are more frames than the first block has. -/
lemma StartsWithBlock.finishFrontend (h : StartsWithBlock s) (hf : FrontReady eng s)
    (hpadded : s.frontend.leftPadInjected = true)
    (htotal : s.lifecycle.totalSamplesReceived = s.frontend.realSamples.length)
    {out : Option String} (hfront : finishFrontend eng s = some (s', out)) : StartsWithBlock s' := by
  obtain ⟨fe, hcomplete, hbase, hout⟩ := finishFrontend_eq hf hpadded htotal hfront
  obtain ⟨-, hlive, -, hdone⟩ := drainFinal_outcome hf hpadded hcomplete hbase
  have hnext := hcomplete.nextFrame_finished
  have hgroups : 32 ≤ finishGroups s.frontend.realSamples.length := by
    unfold finishGroups
    omega
  have hstable : s.frontend.enc.stableMel = s.frontend.encPushedFrames := hf.stableMel
  have hmel : StartsWithBlock { s with frontend := { s.frontend with melFe := fe } } :=
    h.congr rfl rfl
  have hdrained : StartsWithBlock
      (drainMelToEncoder eng { s with frontend := { s.frontend with melFe := fe } } true).1 := by
    unfold drainMelToEncoder
    simp only [if_true]
    split_ifs with hnone hlate
    · exact h.congr rfl rfl
    · exact h.congr rfl rfl
    · rw [hcomplete.toMelTracks.frameData (not_lt.mp hlate) (not_le.mp hnone)]
      simp only
      have hpush : ∀ frames : List φ, frames.length = fe.nextFrame - s.frontend.encPushedFrames →
          StartsWithBlock (encoderStreamPushMel eng
            { s with frontend := { s.frontend with melFe := fe } } true frames
              s.frontend.encPushedFrames).1 := by
        refine fun frames hlength => hmel.push _ fun _ => ?_
        simp only [encFramesRealizable_eq, hstable, hlength, hnext, encKvMaxNew]
        omega
      have htake := hpush (((List.range' s.frontend.encPushedFrames
          (fe.nextFrame - s.frontend.encPushedFrames)).map
            (melRow eng.melFrame (finishedSignal s.frontend.realSamples))).take
              (fe.nextFrame - s.frontend.encPushedFrames)) (by
        rw [List.length_take, List.length_map, List.length_range', Nat.min_self])
      split_ifs
      · exact htake.congr rfl rfl
      · exact htake.congr rfl rfl
  unfold drainedFinish at hout
  by_cases hok : (drainMelToEncoder eng
      { s with frontend := { s.frontend with melFe := fe } } true).2 = true
  · rw [hok, encoderStreamFinish_of_done hlive (hdone hok).1] at hout
    simp only [Bool.not_true, Bool.false_eq_true, if_false] at hout
    rw [(Prod.mk.inj hout).1]
    exact hdrained.congr rfl rfl
  · rw [if_pos (by simpa using hok)] at hout
    rw [(Prod.mk.inj hout).1]
    exact hdrained

/-- A finish behind its backlog drain. -/
lemma StartsWithBlock.finishPath (h : StartsWithBlock s) (hr : OpReady eng True s) (hopen : s.Open)
    (hbp : s.events.decoderBackpressured = false) {status : Status}
    (hpath : FinishPath eng s s' status) : StartsWithBlock s' := by
  have hs := hr.live (live_of_open hopen)
  have hfront : s.lifecycle.totalSamplesReceived ≠ 0 → ∀ {t : Stream α φ ε γ κ} {out : Option String},
      Voxtral.finishFrontend eng (flushStart s) = some (t, out) → StartsWithBlock t := by
    intro hzero t out hflush
    have hstart : StartsWithBlock (flushStart s) := h.congr rfl rfl
    exact hstart.finishFrontend (hs.front.congr rfl rfl) (hs.received hzero).2 hs.total hflush
  have htail : s.lifecycle.totalSamplesReceived ≠ 0 → ∀ {t : Stream α φ ε γ κ},
      Voxtral.finishFrontend eng (flushStart s) = some (t, none) →
        StartsWithBlock (pumpIncremental eng (tailStart t)).1 := by
    intro hzero t hflush
    have hwithin := (finishFrontend_tailReady hs (live_of_open hopen) hbp hzero hflush).within
    have hstart : StartsWithBlock (tailStart t) := (hfront hzero hflush).congr rfl rfl
    exact hstart.pump (pumpIncremental_steps (hwithin.of_decoder rfl rfl rfl rfl rfl rfl))
  cases hpath with
  | empty hzero =>
    obtain ⟨_, happ, -⟩ := completeStream_appends (emptyEnd s)
    exact h.appends happ rfl rfl
  | @frontendFailed hzero t what hflush =>
    obtain ⟨_, happ, -⟩ := failStream_appends (setError t .backendError
      ("inference threw: " ++ what)) .backendError
    exact (hfront hzero hflush).appends happ rfl rfl
  | @pumpFailed hzero t hflush =>
    obtain ⟨_, happ, -⟩ := failStream_appends (setError (pumpIncremental eng (tailStart t)).1
      .backendError ("inference threw: " ++
        (pumpIncremental eng (tailStart t)).1.lifecycle.lastError)) .backendError
    exact (htail hzero hflush).appends happ rfl rfl
  | @completed hzero t hflush =>
    obtain ⟨_, happ, -⟩ := completeStream_appends (tailEnd (pumpIncremental eng (tailStart t)).1)
    exact (htail hzero hflush).appends happ rfl rfl

/-- A finish. -/
lemma StartsWithBlock.finishInternal (h : StartsWithBlock s) (hr : OpReady eng True s)
    {status : Status} (hfinish : finishInternal eng s = some (s', status)) : StartsWithBlock s' := by
  have hsteps : PumpSteps eng s (pumpIncremental eng s).1 := pumpIncremental_steps hr.within
  cases finishInternal_call hfinish with
  | ended | failed | finishing => exact h.congr rfl rfl
  | stalled => exact h.pump hsteps
  | pumpFailed =>
    obtain ⟨_, happ, -⟩ := failStream_appends { (pumpIncremental eng s).1 with
      events := { (pumpIncremental eng s).1.events with finalizingFlush := true } } .backendError
    exact (h.pump hsteps).appends happ rfl rfl
  | live hopen hresumes hpath =>
    obtain ⟨hready, hopen', hbp⟩ := resumed_ready hr hopen hresumes
    exact (h.resumed eng hr.within).finishPath hready hopen' hbp hpath

/-- A call. -/
lemma StartsWithBlock.step (h : StartsWithBlock s) (hr : OpReady eng True s) {op : Op} {r : Response}
    (hstep : streamStep eng s op = some (s', r)) : StartsWithBlock s' := by
  cases op with
  | feed buf =>
    obtain ⟨⟨t, status⟩, hfeed, ht⟩ := Option.map_eq_some_iff.mp hstep
    have hkept := h.feedCommon hr hfeed
    rw [← (Prod.mk.inj ht).1]
    dsimp only
    split_ifs
    · obtain ⟨_, happ, -⟩ := failStream_appends (setError
        { t with events := { t.events with finalizingFlush := true } } status
          t.lifecycle.lastError) status
      exact hkept.appends happ rfl rfl
    · exact hkept
  | poll =>
    have hpoll : streamPollEvent s = (s', r) := Option.some.inj hstep
    obtain ⟨ev, hev, -⟩ := streamPollEvent_eq s
    rw [hpoll] at hev
    obtain rfl : s' = { s with events := ev } := hev
    exact h.congr rfl rfl
  | cancel =>
    obtain ⟨rfl, rfl⟩ := Prod.mk.inj (Option.some.inj hstep)
    obtain ⟨es, happ, -⟩ := cancelInternal_appends s
    exact h.appends happ rfl rfl
  | finish =>
    obtain ⟨⟨t, status⟩, hfinish, ht⟩ := Option.map_eq_some_iff.mp hstep
    obtain ⟨rfl, rfl⟩ := Prod.mk.inj ht
    exact h.finishInternal hr hfinish

/-- Whatever was called, the encoder started with its first block. -/
lemma startsWithBlock_run {maxEvents : ℕ} {device : Device ε γ κ} {ops : List Op} {os : List Response}
    (hrun : runSteps (streamStep eng) (Stream.create maxEvents device) ops = some (s, os)) :
    StartsWithBlock s := by
  refine (runSteps_induction (P := fun s _ _ => OpReady eng True s ∧ StartsWithBlock s) ?_
    ⟨opReady_create eng True maxEvents device, ?_⟩ hrun).2
  · rintro s ops os op s' r ⟨hr, h⟩ hstep
    exact ⟨(streamStep_moves hr (Or.inl trivial) hstep).2, h.step hr hstep⟩
  · exact ⟨Or.inl rfl, fun r hr => absurd hr (List.not_mem_nil)⟩

end Calls

/-! ## What an encoder holds when it runs a batch -/

variable (eng) in
/-- The states of a call between two graphs of the encoder: frames are pushed, the loop of
`encoder_kv_drive` went through `fuel` iterations, or something else happened that leaves the encoder
alone. -/
inductive BetweenGraphs (s : Stream α φ ε γ κ) : Stream α φ ε γ κ → Prop
  | start : BetweenGraphs s s
  | push {t : Stream α φ ε γ κ} (h : BetweenGraphs s t) (frames : List φ) :
      BetweenGraphs s (pushFrames t frames)
  | drive {t u : Stream α φ ε γ κ} (h : BetweenGraphs s t) (final : Bool) (fuel : ℕ)
      (hrun : encoderKvDriveLoop eng final (encFramesRealizable t.frontend.enc.stableMel) fuel t =
        (u, true)) : BetweenGraphs s u
  | other {t u : Stream α φ ε γ κ} (h : BetweenGraphs s t) (henc : u.frontend.enc = t.frontend.enc)
      (hring : u.device.encOutRing = t.device.encOutRing) : BetweenGraphs s u

/-- The encoder is in order after every iteration of the loop. -/
lemma EncoderTracks.driveLoop (final : Bool) {target : ℕ} (fuel : ℕ)
    (h : EncoderTracks eng s.frontend.enc s.device.encOutRing)
    (htarget : target ≤ encFramesRealizable s.frontend.enc.stableMel)
    (hok : (encoderKvDriveLoop eng final target fuel s).2 = true) :
    EncoderTracks eng (encoderKvDriveLoop eng final target fuel s).1.frontend.enc
      (encoderKvDriveLoop eng final target fuel s).1.device.encOutRing := by
  induction fuel generalizing s with
  | zero => exact h
  | succ fuel ih =>
    -- one graph, then the rest
    have hnext : ∀ n physical, 0 < n → n ≤ encKvMaxNew → s.frontend.enc.emitted + n ≤ target →
        ∀ q0, q0 = s.frontend.enc.emitted →
        (if !(encoderKvRun eng s q0 n physical).2 then ((encoderKvRun eng s q0 n physical).1, false)
          else encoderKvDriveLoop eng final target fuel (encoderKvRun eng s q0 n physical).1).2 =
            true →
        ∀ r, r = (if !(encoderKvRun eng s q0 n physical).2 then
            ((encoderKvRun eng s q0 n physical).1, false)
          else encoderKvDriveLoop eng final target fuel (encoderKvRun eng s q0 n physical).1).1 →
        EncoderTracks eng r.frontend.enc r.device.encOutRing := by
      rintro n physical hn hmax hfit q0 rfl hrest r rfl
      have hrun := encoderKvRun_outcome h (hfit.trans htarget) hn hmax physical
      simp only at hrun
      split_ifs at hrest ⊢ with hran
      simp only [Bool.not_eq_true, Bool.not_eq_false'] at hran
      rw [hran] at hrun
      refine ih (hrun.tracks rfl) ?_ hrest
      rw [hrun.frame.stable]
      exact htarget
    rw [encoderKvDriveLoop] at hok ⊢
    simp only at hok ⊢
    by_cases hdone : target ≤ s.frontend.enc.emitted
    · rwa [if_pos hdone]
    rw [if_neg hdone] at hok ⊢
    by_cases hhold : s.frontend.enc.emitted = 0 ∧ final = false ∧ target < encKvMaxNew
    · rwa [if_pos hhold]
    rw [if_neg hhold] at hok ⊢
    by_cases hfirst : s.frontend.enc.emitted = 0 ∧ encKvMaxNew ≤ target
    · rw [if_pos hfirst] at hok ⊢
      exact hnext encKvMaxNew encKvMaxNew (by decide) le_rfl (by rw [hfirst.1]; omega) 0
        hfirst.1.symm hok _ rfl
    rw [if_neg hfirst] at hok ⊢
    by_cases hpartial : final = false ∧ target - s.frontend.enc.emitted < eng.schedule.logical
    · rwa [if_pos hpartial]
    rw [if_neg hpartial] at hok ⊢
    generalize (if final = true then eng.finishPhysical else eng.schedule.physical) = physical at hok ⊢
    have hlogical : (if final = true then eng.finishPhysical else eng.schedule.logical) ≤ 128 := by
      split_ifs
      · have hmem := eng.finishPhysical_mem
        simp only [List.mem_cons, List.not_mem_nil, or_false] at hmem
        omega
      · exact Nat.le_of_dvd (by decide)
          (eng.schedule.logical_dvd.trans eng.schedule.physical_bounds.2)
    generalize (if final = true then eng.finishPhysical else eng.schedule.logical) = logical
      at hok hlogical ⊢
    set n := min (min logical (physical - s.frontend.enc.emitted % physical))
      (target - s.frontend.enc.emitted) with hn
    by_cases hzero : n = 0
    · rwa [if_pos hzero]
    rw [if_neg hzero] at hok ⊢
    exact hnext n physical (Nat.pos_of_ne_zero hzero) (by simp only [encKvMaxNew]; omega) (by omega) _
      rfl hok _ rfl

/-- The encoder is in order between two graphs. -/
lemma BetweenGraphs.tracks {t : Stream α φ ε γ κ} (h : BetweenGraphs eng s t)
    (hs : EncoderTracks eng s.frontend.enc s.device.encOutRing) :
    EncoderTracks eng t.frontend.enc t.device.encOutRing := by
  induction h with
  | start => exact hs
  | push _ frames ih => exact ih.push frames
  | drive _ final fuel hrun ih =>
    have hloop := ih.driveLoop final fuel le_rfl (by rw [hrun])
    rwa [hrun] at hloop
  | other _ henc hring ih => rwa [henc, hring]

/-- An encoder in order is ready for each realizable batch. -/
lemma EncoderTracks.batchReady {ρ : Type*} {nMel : ℕ} {eng : Engine α (Fin nMel → ρ) ε γ κ}
    {enc : EncoderStream (Fin nMel → ρ)} {ring : HistoryRing ε} (h : EncoderTracks eng enc ring)
    {n : ℕ} (hfit : enc.emitted + n ≤ encFramesRealizable enc.stableMel) (physical : ℕ)
    {mel : List (Fin nMel → ρ)} (hmel : enc.melHistory <+: mel) :
    BatchReady enc mel ⟨enc.emitted, n, physical⟩ := by
  rw [encFramesRealizable_eq] at hfit
  refine ⟨rfl, ?_, ?_, h.base, ?_⟩
  · rw [h.stable]
    exact hmel.length_le
  · rw [h.tail, h.stable, ← List.prefix_iff_eq_take.mp hmel]
  · unfold convMelEnd
    simp only
    omega

/-- **The conv stem of a stream is exact.**  Let the Mel frames, the weights, the biases and the
activation come from any arithmetic, and the graphs from any schedule.  Every batch a stream ran hands
its transformer the rows `[q, q + n)` of the stem applied once to the whole Mel sequence, for every
sequence that starts with the Mel frames pushed so far, in the variable graph and in the reusable graph
alike.  Between any two graphs the encoder holds the Mel frames of its next batch. -/
theorem conv_stem_exact [Zero α] {ρ : Type*} [Zero ρ] [Add ρ] [Mul ρ] {nMel encDim : ℕ}
    (stem : ConvStem ρ nMel encDim) (eng : Engine α (Fin nMel → ρ) ε γ κ) (maxEvents : ℕ)
    (device : Device ε γ κ) (ops : List Op) (s : Stream α (Fin nMel → ρ) ε γ κ) (os : List Response)
    (hrun : runSteps (streamStep eng) (Stream.create maxEvents device) ops = some (s, os)) :
    (∀ r ∈ encoderRuns s.trace, ∀ (mel : List (Fin nMel → ρ)) (enc : EncoderStream (Fin nMel → ρ)),
      BatchReady enc mel r →
        batchConvRows stem enc r = some (((stem.run mel).drop r.qStart).take r.n)) ∧
    (s.Live → ∀ t, BetweenGraphs eng s t → ∀ n physical,
      t.frontend.enc.emitted + n ≤ encFramesRealizable t.frontend.enc.stableMel →
      ∀ mel : List (Fin nMel → ρ), t.frontend.enc.melHistory <+: mel →
        BatchReady t.frontend.enc mel ⟨t.frontend.enc.emitted, n, physical⟩) := by
  have hready := (runSteps_moves (opReady_create _ True maxEvents device) (Or.inl trivial) hrun).2
  refine ⟨fun r hr mel enc hbatch => ?_, fun hlive t ht n physical hfit mel hmel => ?_⟩
  · have hstart := (startsWithBlock_run hrun).runs r hr
    unfold batchConvRows
    by_cases hsteady : r.n = 4 ∧ r.physical = 4
    · rw [if_pos hsteady]
      refine hbatch.steadyConvRows stem hsteady.1 ?_
      rcases hstart with rfl | hbehind
      · exact absurd hsteady.1 (by decide)
      · exact le_trans (by decide) hbehind
    · rw [if_neg hsteady]
      exact hbatch.variableConvRows stem
  · exact (ht.tracks (hready.live hlive).front.tracks).batchReady hfit physical hmel

/-- The plain engine with integers for Mel frames. -/
def integerMelEngine : Engine ℤ (Fin 1 → ℤ) Unit Unit Unit :=
  { plainEngine defaultSchedule with melFrame := fun _ _ => 0, encoderFrame := fun _ => () }

/-- A stem with a bias that its activation does not map to zero. -/
def squareStem : ConvStem ℤ 1 1 :=
  ⟨⟨fun _ _ k => k, fun _ => 1⟩, ⟨fun _ _ k => k + 1, fun _ => 2⟩, fun x => x * x⟩

/-- The Mel frames `0, 1, …, 263`, and the encoder behind the first block of a stream. -/
def rampMel : List (Fin 1 → ℤ) := (List.range 264).map fun i _ => (i : ℤ)

/-- A second of audio runs a batch of four behind the first block; the reusable graph computes its rows
from a tail of twelve frames. -/
theorem conv_stem_exact_second : ∃ s os,
    runSteps (streamStep integerMelEngine) (Stream.create 64 plainDevice) [feedZeros 16000] =
      some (s, os) ∧
    (⟨128, 4, 4⟩ : EncoderRun) ∈ encoderRuns s.trace ∧
    batchConvRows squareStem
      { emitted := 128, stableMel := 264, melTail := rampMel.drop 252, tailBase := 252 }
      ⟨128, 4, 4⟩ = some (((squareStem.run rampMel).drop 128).take 4) := by
  obtain ⟨s, os, hrun⟩ := exists_run integerMelEngine 64 plainDevice [feedZeros 16000]
    (by simp [TotalFits])
  obtain ⟨hos, halike⟩ := pacedRun_eq (fun _ => rfl) hrun
  simp only [List.map_cons, feedZeros_paced, List.map_nil] at hos halike
  have hmodel : let m := pacedRun integerMelEngine 64 plainDevice [.feed false 16000]
      m.2 = [.feed .ok 16000] ∧ m.1.lifecycle.state = .running := by
    decide +kernel
  simp only [hos, halike.lifecycle] at hmodel
  obtain ⟨rfl, hstate⟩ := hmodel
  have hcount : ∀ n : ℕ, (acceptedPcm ([feedZeros n].zip [.feed .ok n])).length = n := by
    intro n
    have htake : ((List.replicate n (0 : ℤ)).take n).length = n := by simp
    exact (congrArg List.length (List.append_nil _)).trans htake
  have hruns := (encoderRuns_run hrun).1 (Or.inr (Or.inl hstate))
  rw [hcount] at hruns
  have hmem : (⟨128, 4, 4⟩ : EncoderRun) ∈ encoderRuns s.trace := by
    rw [hruns]
    decide +kernel
  refine ⟨s, _, hrun, hmem, ?_⟩
  refine (conv_stem_exact squareStem integerMelEngine 64 plainDevice _ s _ hrun).1 _ hmem rampMel _ ?_
  have hlength : rampMel.length = 264 := by decide +kernel
  have htake : rampMel.take 264 = rampMel := List.take_of_length_le hlength.le
  refine ⟨rfl, hlength.ge, ?_, by decide, by decide⟩
  dsimp only
  rw [htake]

end Voxtral
