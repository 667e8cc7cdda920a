import Voxtral.Stream.Transitions

/-!
# Feeds

What holds of a stream between two calls (`OpReady`), and how a feed keeps it: the slice loop works off
one slice after the other, or stalls on a full queue and only runs the encoder on.
-/

namespace Voxtral

open Relation

variable {α φ ε γ κ : Type*} {eng : Engine α φ ε γ κ} {late : Prop} {s s' : Stream α φ ε γ κ}

/-! ## Streams between two calls -/

/-- A live stream between two calls. -/
structure StreamReady [Zero α] (eng : Engine α φ ε γ κ) (late : Prop) (s : Stream α φ ε γ κ) : Prop
    extends Working eng late s where
  total : s.lifecycle.totalSamplesReceived = s.frontend.realSamples.length
  aggressive : s.events.aggressivePartialCoalescing = false
  synced : s.events.decoderBackpressured = false → late ∨ Synced s

/-- A stream that completed after receiving samples. -/
structure Finished [Zero α] (eng : Engine α φ ε γ κ) (late : Prop) (s : Stream α φ ε γ κ) :
    Prop where
  flushed : Flushed eng s
  pending : s.decoder.pending = none
  /-- Every position was decoded, up to the end. -/
  decoded : late ∨ (s.decoder.decoderPrefillDone = true ∧ (s.decoder.decoderEos = true ∨
    s.decoder.decoderPosition = finishGroups s.frontend.realSamples.length))

/-- What holds of a stream between two calls. -/
structure OpReady [Zero α] (eng : Engine α φ ε γ κ) (late : Prop) (s : Stream α φ ε γ κ) :
    Prop where
  within : DecoderWithin s
  /-- Before the first sample nothing was decoded. -/
  fresh : s.Live → s.lifecycle.totalSamplesReceived = 0 →
    s.decoder.partialText = [] ∧ s.decoder.tokens = [] ∧ s.events.decoderBackpressured = false
  settled : s.lifecycle.state ≠ .finishing
  live : s.Live → StreamReady eng late s
  completed : s.lifecycle.state = .completed → s.frontend.realSamples ≠ [] → Finished eng late s

/-- The cursors stayed where they are, and the queue did not grow. -/
structure SamePace (s s' : Stream α φ ε γ κ) : Prop where
  params : s'.params = s.params
  emitted : s'.frontend.enc.emitted = s.frontend.enc.emitted
  runs : encoderRuns s'.trace = encoderRuns s.trace
  samples : s'.frontend.realSamples = s.frontend.realSamples
  decoder : s'.decoder = s.decoder
  backpressured : s'.events.decoderBackpressured = s.events.decoderBackpressured
  flush : s'.events.finalizingFlush = s.events.finalizingFlush
  maxEvents : s'.events.maxEvents = s.events.maxEvents
  queue : s'.events.queue.length ≤ s.events.queue.length

/-- The same pace, the same groups consumed. -/
lemma SamePace.consumedFloor (h : SamePace s s') : consumedFloor s' = consumedFloor s := by
  unfold Voxtral.consumedFloor
  rw [h.decoder]

/-- The same pace, the same groups to commit. -/
lemma SamePace.committable (h : SamePace s s') : committable s' = committable s := by
  unfold Voxtral.committable
  rw [h.emitted, h.consumedFloor]

/-- It keeps a stream in step. -/
lemma SamePace.synced (h : SamePace s s') (hs : Synced s) : Synced s' := by
  refine ⟨?_, ?_, ?_, ?_⟩
  · rw [h.decoder]
    exact hs.pending
  · rw [h.committable, h.decoder]
    exact hs.committed
  · rw [h.decoder]
    exact hs.prefilled
  · rw [h.decoder]
    exact hs.position

/-- It keeps the rows within reach. -/
lemma SamePace.withinReach (h : SamePace s s') (hs : WithinReach s) : WithinReach s' := by
  refine ⟨?_, ?_⟩
  · unfold RowsInRing
    rw [h.emitted, h.consumedFloor, h.decoder]
    exact hs.rows
  · rw [h.emitted, h.consumedFloor, h.decoder]
    exact hs.throttle

/-- It keeps the decoder within its groups. -/
lemma SamePace.within (h : SamePace s s') (hw : DecoderWithin s) : DecoderWithin s' :=
  hw.of_decoder h.decoder rfl rfl rfl rfl rfl

/-- Two changes that keep the pace. -/
lemma SamePace.trans {s₁ s₂ s₃ : Stream α φ ε γ κ} (h : SamePace s₁ s₂) (h' : SamePace s₂ s₃) :
    SamePace s₁ s₃ :=
  ⟨h'.params.trans h.params, h'.emitted.trans h.emitted, h'.runs.trans h.runs,
    h'.samples.trans h.samples, h'.decoder.trans h.decoder, h'.backpressured.trans h.backpressured,
    h'.flush.trans h.flush, h'.maxEvents.trans h.maxEvents, h'.queue.trans h.queue⟩

/-- Nothing that `OpReady` speaks of changed. -/
structure Unmoved (s s' : Stream α φ ε γ κ) : Prop extends SamePace s s' where
  frontend : s'.frontend = s.frontend
  encOutRing : s'.device.encOutRing = s.device.encOutRing
  aggressive : s'.events.aggressivePartialCoalescing = s.events.aggressivePartialCoalescing
  total : s'.lifecycle.totalSamplesReceived = s.lifecycle.totalSamplesReceived
  state : s'.lifecycle.state = s.lifecycle.state

/-- Counters and the error state of the lifecycle changed. -/
lemma Unmoved.of_lifecycle (s : Stream α φ ε γ κ) (lifecycle : Lifecycle)
    (hstate : lifecycle.state = s.lifecycle.state)
    (htotal : lifecycle.totalSamplesReceived = s.lifecycle.totalSamplesReceived) :
    Unmoved s { s with lifecycle := lifecycle } :=
  ⟨⟨rfl, rfl, rfl, rfl, rfl, rfl, rfl, rfl, le_rfl⟩, rfl, rfl, rfl, htotal, hstate⟩

/-- A stream that was not moved is live as before. -/
lemma Unmoved.live (h : Unmoved s s') : s'.Live ↔ s.Live := by
  unfold Stream.Live
  rw [h.state]

variable [Zero α]

/-- What is said of a completed stream depends on these parts only. -/
lemma Finished.congr (h : Finished eng late s) (hfrontend : s'.frontend = s.frontend)
    (hring : s'.device.encOutRing = s.device.encOutRing)
    (hpending : s'.decoder.pending = s.decoder.pending)
    (hprefill : s'.decoder.decoderPrefillDone = s.decoder.decoderPrefillDone)
    (heos : s'.decoder.decoderEos = s.decoder.decoderEos)
    (hposition : s'.decoder.decoderPosition = s.decoder.decoderPosition) :
    Finished eng late s' := by
  refine ⟨⟨?_, ?_, ?_⟩, ?_, ?_⟩
  · rw [hfrontend]
    exact h.flushed.history
  · rw [hfrontend]
    exact h.flushed.emitted
  · rw [hfrontend, hring]
    exact h.flushed.holds
  · rw [hpending]
    exact h.pending
  · rw [hprefill, heos, hposition, hfrontend]
    exact h.decoded

/-- A stream that works goes on working if its front is ready. -/
lemma SamePace.working (h : SamePace s s') (hs : Working eng late s) (hfront : FrontReady eng s') :
    Working eng late s' where
  within := h.within hs.within
  front := hfront
  emitted := by
    rw [h.emitted, h.samples]
    exact hs.emitted
  recorded := by
    unfold RunsRecorded
    rw [h.runs, h.emitted]
    exact hs.recorded
  params := h.params.trans hs.params
  committed := by
    rw [h.committable, h.decoder]
    exact hs.committed
  queue := by
    rw [h.maxEvents]
    exact h.queue.trans hs.queue
  flush := h.flush.trans hs.flush
  stall := by
    rw [h.backpressured, h.decoder]
    exact hs.stall
  stash := by
    rw [h.backpressured, h.decoder]
    exact hs.stash
  reach := hs.reach.imp_right h.withinReach

/-- A stream that was not moved is as ready as before. -/
lemma Unmoved.streamReady (h : Unmoved s s') (hs : StreamReady eng late s) :
    StreamReady eng late s' where
  toWorking := h.working hs.toWorking (hs.front.congr h.frontend h.encOutRing)
  total := by
    rw [h.total, h.frontend]
    exact hs.total
  aggressive := h.aggressive.trans hs.aggressive
  synced := by
    rw [h.backpressured]
    exact fun hbp => (hs.synced hbp).imp_right h.synced

/-- It is as ready for the next call. -/
lemma Unmoved.ready (h : Unmoved s s') (hr : OpReady eng late s) : OpReady eng late s' where
  within := h.within hr.within
  fresh := by
    rw [h.decoder, h.backpressured, h.total, h.live]
    exact hr.fresh
  settled := by
    rw [h.state]
    exact hr.settled
  live := fun hlive => h.streamReady (hr.live (h.live.mp hlive))
  completed := by
    intro hcompleted hsamples
    rw [h.state] at hcompleted
    rw [h.frontend] at hsamples
    refine (hr.completed hcompleted hsamples).congr h.frontend h.encOutRing ?_ ?_ ?_ ?_
    all_goals rw [h.decoder]

/-- A stream that ended without completing. -/
lemma OpReady.of_ended (hw : DecoderWithin s)
    (hstate : s.lifecycle.state = .failed ∨ s.lifecycle.state = .cancelled) :
    OpReady eng late s := by
  have hdead : ¬ s.Live := by
    unfold Stream.Live
    rcases hstate with h | h <;> rw [h] <;> decide
  refine ⟨hw, fun h => absurd h hdead, ?_, fun h => absurd h hdead, fun h => ?_⟩
  · rcases hstate with h | h <;> rw [h] <;> decide
  · rcases hstate with h' | h' <;> rw [h'] at h <;> exact absurd h (by decide)

/-- A live stream between two calls was created or is running. -/
lemma OpReady.open (hr : OpReady eng late s) (hlive : s.Live) :
    s.lifecycle.state = .created ∨ s.lifecycle.state = .running := by
  rcases hlive with h | h | h
  · exact Or.inl h
  · exact Or.inr h
  · exact absurd h hr.settled

omit [Zero α] in
/-- A created or a running stream is live. -/
lemma live_of_open (hopen : s.lifecycle.state = .created ∨ s.lifecycle.state = .running) :
    s.Live := by
  rcases hopen with h | h <;> simp [Stream.Live, h]

/-- A pump of a stream that works off audio is a chain of transitions. -/
lemma Working.pump_continues (h : Working eng late s) (hlive : s.Live) :
    Continues eng late s (pumpIncremental eng s).1 :=
  pumpIncremental_continues h.within hlive (Or.inr h.inTime) (h.reach.imp_right WithinReach.rows)
    h.front.ringReady

/-- The pump that resumes a stalled stream. -/
lemma OpReady.pump (hr : OpReady eng late s) (hlive : s.Live)
    (hbp : s.events.decoderBackpressured = true)
    (hok : (pumpIncremental eng s).2 ≠ .backendError) :
    OpReady eng late (pumpIncremental eng s).1 := by
  have hs := hr.live hlive
  have hopen := hr.open hlive
  obtain ⟨hout, hworking, hsynced⟩ := hs.toWorking.pump
  have hframe : PumpFrame s (pumpIncremental eng s).1 := (pumpIncremental_steps hr.within).frame
  have hnone : (pumpIncremental eng s).1.events.decoderBackpressured = false →
      (pumpIncremental eng s).2 = .ok := by
    intro hclear
    rcases hout.result with h | h | h
    · exact h
    · rw [(hout.stalled h).2.2.2.1] at hclear
      exact absurd hclear (by decide)
    · exact absurd h hok
  refine ⟨(pumpIncremental_steps hr.within).within hr.within, fun _ hzero => ?_, ?_, fun _ => ?_, ?_⟩
  · rw [hframe.totalReceived] at hzero
    have hfalse := (hr.fresh hlive hzero).2.2
    rw [hbp] at hfalse
    exact absurd hfalse (by decide)
  · rw [hframe.state]
    exact hr.settled
  · refine ⟨hworking hok, ?_, hframe.aggressive.trans hs.aggressive, fun hclear => ?_⟩
    · rw [hframe.totalReceived, hframe.frontend]
      exact hs.total
    · exact (hsynced (hnone hclear)).2
  · intro hcompleted
    rw [hframe.state] at hcompleted
    rcases hopen with h | h <;> rw [h] at hcompleted <;> exact absurd hcompleted (by decide)

/-! ## Feeds -/

/-- Where the slice loop of a feed leads. -/
structure LoopOutcome (eng : Engine α φ ε γ κ) (late : Prop) (s s' : Stream α φ ε γ κ)
    (slices : List (List α)) (status : Status) : Prop where
  continues : Continues eng late s s'
  total : s'.lifecycle.totalSamplesReceived = s.lifecycle.totalSamplesReceived
  running : s'.frontend.enc.finalized = false
  result : PumpStatus status
  working : status ≠ .backendError → Working eng late s' ∧
    s'.frontend.leftPadInjected = true ∧
    s'.frontend.realSamples = s.frontend.realSamples ++ slices.flatten
  synced : status = .ok → s'.events.decoderBackpressured = false ∧ (late ∨ Synced s')
  stalled : status = .limitExceeded → s'.events.decoderBackpressured = true
  blame : status = .backendError → LastGraphFailed eng s'

/-- An absorbed slice in front of the rest of the loop. -/
lemma LoopOutcome.cons {t : Stream α φ ε γ κ} {slice : List α} {rest : List (List α)}
    {status : Status} (hcont : Continues eng late s t)
    (htotal : t.lifecycle.totalSamplesReceived = s.lifecycle.totalSamplesReceived)
    (hsamples : t.frontend.realSamples = s.frontend.realSamples ++ slice)
    (h : LoopOutcome eng late t s' rest status) :
    LoopOutcome eng late s s' (slice :: rest) status where
  continues := hcont.trans h.continues
  total := h.total.trans htotal
  running := h.running
  result := h.result
  working := by
    intro hne
    obtain ⟨hworking, hpadded, hs'⟩ := h.working hne
    refine ⟨hworking, hpadded, ?_⟩
    rw [hs', hsamples, List.flatten_cons, List.append_assoc]
  synced := h.synced
  stalled := h.stalled
  blame := h.blame

/-- A loop that failed in the backend. -/
lemma LoopOutcome.of_failed {slices : List (List α)} (hcont : Continues eng late s s')
    (htotal : s'.lifecycle.totalSamplesReceived = s.lifecycle.totalSamplesReceived)
    (hrunning : s'.frontend.enc.finalized = false) (hbad : LastGraphFailed eng s') :
    LoopOutcome eng late s s' slices .backendError :=
  ⟨hcont, htotal, hrunning, Or.inr (Or.inr rfl), fun h => absurd rfl h, fun h => absurd h (by decide),
    fun h => absurd h (by decide), fun _ => hbad⟩

/-- The slice loop behind a stall: the encoder runs on, the decoder stands still. -/
lemma feedSlices_stalled (slices : List (List α)) {status : Status} (h : Working eng late s)
    (hlive : s.Live) (hpadded : s.frontend.leftPadInjected = true)
    (hbp : s.events.decoderBackpressured = true)
    (hslices : ∀ slice ∈ slices, slice.length ≤ audioDrainSlice)
    (hkeep : late ∨ (s.decoder.adapterGroupsCommitted ≤ consumedFloor s + 128 ∧
      emittedAt eng.schedule.logical (s.frontend.realSamples.length + slices.flatten.length) ≤
        4 * s.decoder.adapterGroupsCommitted + encOutRingCap))
    (hrun : feedSlices eng s true slices = some (s', status)) :
    LoopOutcome eng late s s' slices status := by
  induction slices generalizing s with
  | nil =>
    obtain ⟨rfl, rfl⟩ := Prod.mk.inj (Option.some.inj hrun)
    exact ⟨Continues.refl s, rfl, h.front.running, Or.inr (Or.inl rfl),
      fun _ => ⟨h, hpadded, by simp⟩,
      fun hok => absurd hok (by decide), fun _ => hbp, fun hfail => absurd hfail (by decide)⟩
  | cons slice rest ih =>
    rw [feedSlices] at hrun
    obtain ⟨⟨t, ok⟩, habsorb, hrun⟩ := Option.bind_eq_some_iff.mp hrun
    have hslice := hslices slice List.mem_cons_self
    have hchange := absorbSlice_frontendChange habsorb
    have hcont : Continues eng late s t := hchange.continues hlive h.front.notFinal
    have hout := absorbSlice_outcome h.front hpadded hslice habsorb
    cases ok with
    | false =>
      simp only [Bool.not_false, if_true] at hrun
      obtain ⟨rfl, rfl⟩ := Prod.mk.inj (Option.some.inj hrun)
      exact .of_failed hcont hchange.totalReceived hout.running (hout.blame rfl)
    | true =>
      simp only [Bool.not_true, Bool.false_eq_true, if_false, if_true] at hrun
      have hlen : (slice :: rest).flatten.length = slice.length + rest.flatten.length := by
        rw [List.flatten_cons, List.length_append]
      obtain ⟨ht, htpadded, hdecoder, hevents, hsamples⟩ := h.absorb hpadded hslice
        (hkeep.imp_right fun hk => Or.inr ⟨hk.1, (emittedAt_mono _ (by omega)).trans hk.2⟩) habsorb
      have hfloor : consumedFloor t = consumedFloor s := by
        unfold consumedFloor
        rw [hdecoder]
      refine .cons hcont hchange.totalReceived hsamples (ih ht (hcont.live.mpr hlive) htpadded
        (by rw [hevents]; exact hbp) (fun x hx => hslices x (List.mem_cons_of_mem slice hx)) ?_ hrun)
      refine hkeep.imp_right fun hk => ?_
      rw [hdecoder, hfloor, hsamples, List.length_append, Nat.add_assoc, ← hlen]
      exact hk

omit [Zero α] in
/-- Behind a stall the adapter is near the decoder, at the head of the encoder. -/
lemma stalled_committed {t : Stream α φ ε γ κ} (hsync : Synced s) (hdecoder : t.decoder = s.decoder)
    (hgrowth : t.frontend.enc.emitted ≤ s.frontend.enc.emitted + 177)
    {p : Stream α φ ε γ κ} (hsteps : PumpSteps eng t p)
    (hcommitted : p.decoder.adapterGroupsCommitted = committable t)
    (heos : p.decoder.decoderEos = false) :
    p.decoder.adapterGroupsCommitted = t.frontend.enc.emitted / 4 ∧
      p.decoder.adapterGroupsCommitted ≤ consumedFloor p + 128 := by
  obtain ⟨hfloor, hend⟩ := PumpSteps.forward hsteps
  have hlive : s.decoder.decoderEos = false := by
    by_contra htrue
    rw [hend (by rw [hdecoder]; simpa using htrue)] at heos
    exact absurd heos (by decide)
  obtain ⟨hhead, hnear⟩ := hsync.head hlive
  have hsame : consumedFloor t = consumedFloor s := by
    unfold consumedFloor
    rw [hdecoder]
  rw [hcommitted, committable, hsame]
  simp only [downsampleFactor, aembRingCap]
  omega

/-- The slice loop of a stream whose decoder has caught up. -/
lemma feedSlices_outcome (slices : List (List α)) {status : Status} (h : Working eng late s)
    (hlive : s.Live) (hpadded : s.frontend.leftPadInjected = true)
    (hbp : s.events.decoderBackpressured = false) (hsync : late ∨ Synced s)
    (hslices : ∀ slice ∈ slices, slice.length ≤ audioDrainSlice)
    (hkeep : late ∨ StallsInTime eng s slices)
    (hrun : feedSlices eng s false slices = some (s', status)) :
    LoopOutcome eng late s s' slices status := by
  induction slices generalizing s with
  | nil =>
    obtain ⟨rfl, rfl⟩ := Prod.mk.inj (Option.some.inj hrun)
    exact ⟨Continues.refl s, rfl, h.front.running, Or.inl rfl, fun _ => ⟨h, hpadded, by simp⟩,
      fun _ => ⟨hbp, hsync⟩, fun hlimit => absurd hlimit (by decide),
      fun hfail => absurd hfail (by decide)⟩
  | cons slice rest ih =>
    rw [feedSlices] at hrun
    obtain ⟨⟨t, ok⟩, habsorb, hrun⟩ := Option.bind_eq_some_iff.mp hrun
    have hslice := hslices slice List.mem_cons_self
    have hrest := fun x hx => hslices x (List.mem_cons_of_mem slice hx)
    have hchange := absorbSlice_frontendChange habsorb
    have hst : Continues eng late s t := hchange.continues hlive h.front.notFinal
    have hout := absorbSlice_outcome h.front hpadded hslice habsorb
    cases ok with
    | false =>
      simp only [Bool.not_false, if_true] at hrun
      obtain ⟨rfl, rfl⟩ := Prod.mk.inj (Option.some.inj hrun)
      exact .of_failed hst hchange.totalReceived hout.running (hout.blame rfl)
    | true =>
      simp only [Bool.not_true, Bool.false_eq_true, if_false] at hrun
      obtain ⟨ht, htpadded, hdecoder, hevents, hsamples⟩ := h.absorb hpadded hslice
        (hsync.imp_right fun hsync => Or.inl ⟨hbp, hsync⟩) habsorb
      have htlive := hst.live.mpr hlive
      have hpump : Continues eng late t (pumpIncremental eng t).1 := ht.pump_continues htlive
      obtain ⟨hpout, hworking, hsynced⟩ := ht.pump
      have hsteps : PumpSteps eng t (pumpIncremental eng t).1 := pumpIncremental_steps ht.within
      have hframe := hsteps.frame
      have hkeep' : late ∨ ((pumpIncremental eng t).2 = .limitExceeded → Tolerated
          eng.schedule.logical t.frontend.realSamples.length rest.flatten.length) ∧
          ((pumpIncremental eng t).2 = .ok →
            StallsInTime eng (pumpIncremental eng t).1 rest) :=
        hkeep.imp_right fun hk => hk t habsorb
      have hgrowth : t.frontend.enc.emitted ≤ s.frontend.enc.emitted + 177 := by
        rw [ht.emitted, h.emitted, hsamples, List.length_append]
        exact emittedAt_slice eng.schedule hslice
      have hblame : (pumpIncremental eng t).2 = .backendError →
          LastGraphFailed eng (pumpIncremental eng t).1 := pumpIncremental_blame
      -- the state behind the pump, its status apart
      generalize pumpIncremental eng t = r
        at hrun hpump hpout hworking hsynced hsteps hframe hkeep' hblame
      obtain ⟨p, st⟩ := r
      simp only at hrun hpump hpout hworking hsynced hsteps hframe hkeep' hblame
      have hsp := hst.trans hpump
      have htotal : p.lifecycle.totalSamplesReceived = s.lifecycle.totalSamplesReceived :=
        hframe.totalReceived.trans hchange.totalReceived
      have hpsamples : p.frontend.realSamples = s.frontend.realSamples ++ slice := by
        rw [hframe.frontend]
        exact hsamples
      have hppadded : p.frontend.leftPadInjected = true := by
        rw [hframe.frontend]
        exact htpadded
      have hplive := hsp.live.mpr hlive
      rcases hpout.result with rfl | rfl | rfl
      · -- the pump worked off the slice
        simp only [reduceCtorEq, ne_eq, not_true_eq_false, if_false] at hrun
        obtain ⟨hclear, hcaught⟩ := hsynced rfl
        exact .cons hsp htotal hpsamples (ih (hworking (by decide)) hplive hppadded hclear hcaught
          hrest (hkeep'.imp_right fun hk => hk.2 rfl) hrun)
      · -- the pump stalled
        simp only [if_true] at hrun
        obtain ⟨-, -, heos, hfull, -⟩ := hpout.stalled rfl
        refine .cons hsp htotal hpsamples (feedSlices_stalled rest (hworking (by decide)) hplive
          hppadded hfull hrest ?_ hrun)
        rcases hsync with hlate | hsync
        · exact Or.inl hlate
        · refine hkeep'.imp_right fun hk => ?_
          obtain ⟨hhead, hnear⟩ := stalled_committed hsync hdecoder hgrowth hsteps
            (hpout.committed (by decide)) heos
          have htolerated := hk.1 rfl
          unfold Tolerated at htolerated
          rw [← ht.emitted, ← hhead] at htolerated
          rw [hframe.frontend]
          exact ⟨hnear, htolerated⟩
      · simp only [reduceCtorEq, ne_eq, not_false_eq_true, if_false, if_true] at hrun
        obtain ⟨rfl, rfl⟩ := Prod.mk.inj (Option.some.inj hrun)
        exact .of_failed hsp htotal (hframe.frontend ▸ ht.front.running) (hblame rfl)

omit [Zero α] in
/-- The slices of a feed are its samples in order. -/
lemma flatten_audioSlices (pcm : List α) : (audioSlices pcm).flatten = pcm := by
  have hchunks : ∀ n, ((List.range n).map fun k =>
      (pcm.drop (audioDrainSlice * k)).take audioDrainSlice).flatten =
        pcm.take (audioDrainSlice * n) := by
    intro n
    induction n with
    | zero => simp
    | succ n ih =>
      rw [List.range_succ, List.map_append, List.flatten_append, ih, List.map_singleton,
        List.flatten_singleton, Nat.mul_succ, List.take_add]
  rw [audioSlices, hchunks, List.take_of_length_le]
  simp only [audioDrainSlice]
  omega

omit [Zero α] in
/-- A slice is a second long at most. -/
lemma length_of_mem_audioSlices {pcm slice : List α} (h : slice ∈ audioSlices pcm) :
    slice.length ≤ audioDrainSlice := by
  obtain ⟨k, -, rfl⟩ := List.mem_map.mp h
  exact List.length_take_le _ _

/-- The stream as the audio path of a feed of `count` samples finds it. -/
def feedStart (s : Stream α φ ε γ κ) (count : ℕ) : Stream α φ ε γ κ :=
  { s with events := { s.events with
      aggressivePartialCoalescing := aggressiveMode s.events count } }

omit [Zero α] in
/-- The start of a feed keeps the pace. -/
lemma feedStart_samePace (s : Stream α φ ε γ κ) (count : ℕ) : SamePace s (feedStart s count) :=
  ⟨rfl, rfl, rfl, rfl, rfl, rfl, rfl, rfl, le_rfl⟩

/-- The left padding leaves the cursors alone. -/
lemma ensureLeftPad_samePace (h : FrontReady eng s) (hpad : ensureLeftPad eng s = some s') :
    SamePace s s' ∧ FrontReady eng s' ∧ s'.frontend.leftPadInjected = true := by
  obtain ⟨hfront, hpadded, -, -⟩ := ensureLeftPad_outcome h hpad
  obtain ⟨padded, fe, rfl⟩ := ensureLeftPad_eq hpad
  exact ⟨⟨rfl, rfl, rfl, rfl, rfl, rfl, rfl, rfl, le_rfl⟩, hfront, hpadded⟩

/-- A feed of `samples` keeps up: its slice loop does not go on too long behind a stall. -/
def FeedKeepsUp (eng : Engine α φ ε γ κ) (s : Stream α φ ε γ κ) (samples : List ℤ) : Prop :=
  ∀ t, ensureLeftPad eng (feedStart s samples.length) = some t →
    StallsInTime eng t (audioSlices (samples.map eng.sampleOf))

/-- Where a feed of `pcm` leads. -/
structure FeedOutcome (eng : Engine α φ ε γ κ) (late : Prop) (s s' : Stream α φ ε γ κ)
    (pcm : List α) (status : Status) : Prop where
  transitions : Transitions eng late s s'
  live : s'.Live
  running : s'.frontend.enc.finalized = false
  ready : status ≠ .backendError → OpReady eng late s'
  /-- Everything was accepted, or nothing. -/
  accepted : status ≠ .backendError →
    (pcm ≠ [] ∧ (status = .ok ∨ status = .limitExceeded) ∧
      s'.frontend.leftPadInjected = true ∧
      s'.frontend.realSamples = s.frontend.realSamples ++ pcm ∧
      s'.lifecycle.totalSamplesReceived = s.lifecycle.totalSamplesReceived + pcm.length) ∨
    ((status = .ok → pcm = []) ∧ s'.frontend = s.frontend ∧
      s'.lifecycle.totalSamplesReceived = s.lifecycle.totalSamplesReceived)
  failed : status = .backendError →
    s'.lifecycle.totalSamplesReceived = s.lifecycle.totalSamplesReceived
  blame : status = .backendError → LastGraphFailed eng s'
  result : status ≠ .outOfMemory ∧ status ≠ .internalError

/-- A feed that is refused without a change. -/
lemma FeedOutcome.refused {pcm : List α} {status : Status} (hr : OpReady eng late s) (hlive : s.Live)
    (hcont : Continues eng late s s') (h : Unmoved s s') (hok : status = .ok → pcm = [])
    (hfail : status ≠ .backendError ∧ status ≠ .outOfMemory ∧ status ≠ .internalError) :
    FeedOutcome eng late s s' pcm status :=
  ⟨hcont.transitions, h.live.mpr hlive, h.frontend ▸ (hr.live hlive).front.running,
    fun _ => h.ready hr,
    fun _ => Or.inr ⟨hok, h.frontend, h.total⟩, fun h => absurd h hfail.1,
    fun h => absurd h hfail.1, hfail.2⟩

/-- The audio path of a feed. -/
lemma feedAudio_outcome {samples : List ℤ} {status : Status} (hr : OpReady eng late s)
    (hopen : s.lifecycle.state = .created ∨ s.lifecycle.state = .running)
    (hbp : s.events.decoderBackpressured = false) (hne : samples ≠ [])
    (hkeep : late ∨ FeedKeepsUp eng s samples)
    (h : feedAudio eng s samples = some (s', status)) :
    FeedOutcome eng late s s' (samples.map eng.sampleOf) status := by
  have hlive := live_of_open hopen
  have hs := hr.live hlive
  unfold feedAudio at h
  change (ensureLeftPad eng (feedStart s samples.length)).bind _ = _ at h
  set u := feedStart s samples.length with hu
  obtain ⟨t, hpad, hrun⟩ := Option.bind_eq_some_iff.mp h
  obtain ⟨⟨r, st⟩, hloop, hout⟩ := Option.map_eq_some_iff.mp hrun
  -- the flag and the left padding leave the cursors alone
  have hsu : Continues eng late s u := ⟨.single (.account (.of_flags s s.lifecycle
    (aggressiveMode s.events samples.length) s.events.finalizingFlush s.decoder.tokensBeforeFinish
    (Or.inl rfl) (Or.inl rfl))), rfl⟩
  have hufront : FrontReady eng u := hs.front.congr rfl rfl
  have hut := ensureLeftPad_frontendChange hpad
  have hst : Continues eng late s t := hsu.trans (hut.continues (hsu.live.mpr hlive) hufront.notFinal)
  obtain ⟨hpace, htfront, htpadded⟩ := ensureLeftPad_samePace hufront hpad
  have htpace : SamePace s t := (feedStart_samePace s samples.length).trans hpace
  have ht : Working eng late t := htpace.working hs.toWorking htfront
  have htlive := hst.live.mpr hlive
  have htbp : t.events.decoderBackpressured = false := htpace.backpressured.trans hbp
  have hloopout := feedSlices_outcome (audioSlices (samples.map eng.sampleOf)) ht htlive htpadded
    htbp ((hs.synced hbp).imp_right htpace.synced)
    (fun slice hslice => length_of_mem_audioSlices hslice) (hkeep.imp_right fun hk => hk t hpad)
    hloop
  have hsr : Continues eng late s r := hst.trans hloopout.continues
  have hrtotal : r.lifecycle.totalSamplesReceived = s.lifecycle.totalSamplesReceived :=
    hloopout.total.trans hut.totalReceived
  have hrlive := hsr.live.mpr hlive
  simp only at hout
  by_cases hfail : st = .backendError
  · subst hfail
    simp only [ne_eq, reduceCtorEq, not_false_eq_true, and_self, if_true] at hout
    obtain ⟨rfl, rfl⟩ := Prod.mk.inj hout
    refine ⟨hsr.transitions.tail (.account (.of_flags r r.lifecycle
      s.events.aggressivePartialCoalescing r.events.finalizingFlush r.decoder.tokensBeforeFinish
      (Or.inl rfl) (Or.inl rfl))), hrlive, hloopout.running, fun h => absurd rfl h,
      fun h => absurd rfl h, fun _ => hrtotal, hloopout.blame, by decide⟩
  · obtain ⟨hworking, hrpadded, hrsamples⟩ := hloopout.working hfail
    rw [htpace.samples, flatten_audioSlices] at hrsamples
    have hopen' : r.lifecycle.state = .created ∨ r.lifecycle.state = .running := by
      rw [hsr.state]
      exact hopen
    have hsamplesLen : r.lifecycle.totalSamplesReceived + samples.length =
        r.frontend.realSamples.length := by
      rw [hrtotal, hs.total, hrsamples, List.length_append, List.length_map]
    -- the stream counts the samples, is running, and restores the flag
    have hcounted : ∀ lifecycle : Lifecycle,
        lifecycle.totalSamplesReceived = r.lifecycle.totalSamplesReceived + samples.length →
        lifecycle.state = .running →
        let v : Stream α φ ε γ κ := { r with
          lifecycle := lifecycle
          events := { r.events with
            aggressivePartialCoalescing := s.events.aggressivePartialCoalescing } }
        Transitions eng late s v ∧ v.Live ∧ OpReady eng late v := by
      intro lifecycle htotal hstate v
      have hvlive : v.Live := Or.inr (Or.inl hstate)
      have hrv : Transition eng late r v := .account (.of_flags r lifecycle
        s.events.aggressivePartialCoalescing r.events.finalizingFlush r.decoder.tokensBeforeFinish
        (Or.inr ⟨hrlive, Or.inr (Or.inl hstate)⟩) (Or.inr (htotal.trans hsamplesLen)))
      have hpace' : SamePace r v := ⟨rfl, rfl, rfl, rfl, rfl, rfl, rfl, rfl, le_rfl⟩
      have hready : StreamReady eng late v := by
        refine ⟨hpace'.working hworking (hworking.front.congr rfl rfl), ?_, hs.aggressive,
          fun hclear => ?_⟩
        · exact htotal.trans hsamplesLen
        · refine (hloopout.synced ?_).2.imp_right hpace'.synced
          rcases hloopout.result with hok | hlimit | hbad
          · exact hok
          · have hbp' : r.events.decoderBackpressured = false := hclear
            rw [hloopout.stalled hlimit] at hbp'
            exact absurd hbp' (by decide)
          · exact absurd hbad hfail
      refine ⟨hsr.transitions.tail hrv, hvlive, hready.within, fun _ hzero => ?_, ?_,
        fun _ => hready, fun hcompleted => ?_⟩
      · have hpos : 0 < samples.length := List.length_pos_of_ne_nil hne
        rw [htotal] at hzero
        omega
      · rw [hstate]
        decide
      · rw [hstate] at hcompleted
        exact absurd hcompleted (by decide)
    have hstate : (if r.lifecycle.state = .created then StreamState.running
        else r.lifecycle.state) = .running := by
      rcases hopen' with h | h <;> simp [h]
    have hrest : ∀ {v : Stream α φ ε γ κ}, (Transitions eng late s v ∧ v.Live ∧ OpReady eng late v) →
        v.frontend = r.frontend → (st = .ok ∨ st = .limitExceeded) →
        v.lifecycle.totalSamplesReceived = r.lifecycle.totalSamplesReceived + samples.length →
        FeedOutcome eng late s v (samples.map eng.sampleOf) st := by
      rintro v ⟨htrans, hvlive, hready⟩ hvfront hstatus htotal
      refine ⟨htrans, hvlive, hvfront ▸ hloopout.running, fun _ => hready,
        fun _ => Or.inl ⟨by simpa using hne, hstatus, ?_, ?_, ?_⟩, fun h => absurd h hfail, fun h => absurd h hfail, ?_⟩
      · rw [hvfront]
        exact hrpadded
      · rw [hvfront]
        exact hrsamples
      · rw [htotal, hrtotal, List.length_map]
      · rcases hstatus with h | h <;> rw [h] <;> decide
    rcases hloopout.result with rfl | rfl | rfl
    · simp only [ne_eq, not_true_eq_false, false_and, if_false, reduceCtorEq, hstate] at hout
      obtain ⟨rfl, rfl⟩ := Prod.mk.inj hout
      exact hrest (hcounted _ rfl rfl) rfl (Or.inl rfl) rfl
    · simp only [ne_eq, not_true_eq_false, and_false, if_false, if_true, hstate] at hout
      obtain ⟨rfl, rfl⟩ := Prod.mk.inj hout
      exact hrest (hcounted _ rfl rfl) rfl (Or.inr rfl) rfl
    · exact absurd rfl hfail

/-- The admission checks of a feed. -/
lemma feedAdmit_outcome {buf : FeedBuffer} {status : Status} (hr : OpReady eng late s)
    (hopen : s.lifecycle.state = .created ∨ s.lifecycle.state = .running)
    (hbp : s.events.decoderBackpressured = false)
    (hkeep : late ∨ (buf.samples.length ≤ maxFeedSamples → FeedKeepsUp eng s buf.samples))
    (h : feedAdmit eng s buf = some (s', status)) :
    FeedOutcome eng late s s' (buf.samples.map eng.sampleOf) status := by
  have hlive := live_of_open hopen
  have hreject : ∀ {status : Status} {msg : String}, (status ≠ .backendError ∧
      status ≠ .outOfMemory ∧ status ≠ .internalError) → status ≠ .ok →
      FeedOutcome eng late s (setError s status msg) (buf.samples.map eng.sampleOf) status :=
    fun hfail hok => .refused hr hlive (setError_continues s _ _) (.of_lifecycle s _ rfl rfl)
      (fun h => absurd h hok) hfail
  have hempty : FeedOutcome eng late s
      { clearError s with lifecycle := { (clearError s).lifecycle with
        feedCalls := (clearError s).lifecycle.feedCalls + 1 } } [] .ok :=
    .refused hr hlive (continues_of_lifecycle s { (clearError s).lifecycle with
      feedCalls := (clearError s).lifecycle.feedCalls + 1 } rfl rfl) (.of_lifecycle s _ rfl rfl)
      (fun _ => rfl) (by decide)
  unfold feedAdmit at h
  match buf with
  | .null (count + 1) =>
    obtain ⟨rfl, rfl⟩ := Prod.mk.inj (Option.some.inj h)
    exact hreject (by decide) (by decide)
  | .null 0 =>
    obtain ⟨rfl, rfl⟩ := Prod.mk.inj (Option.some.inj h)
    exact hempty
  | .data [] =>
    obtain ⟨rfl, rfl⟩ := Prod.mk.inj (Option.some.inj h)
    exact hempty
  | .data (x :: xs) =>
    simp only at h
    split_ifs at h with hlimit hoverflow hrange hduration
    iterate 3
      obtain ⟨rfl, rfl⟩ := Prod.mk.inj (Option.some.inj h)
      exact hreject (by decide) (by decide)
    · obtain ⟨rfl, rfl⟩ := Prod.mk.inj (Option.some.inj h)
      exact hreject (by decide) (by decide)
    · exact feedAudio_outcome hr hopen hbp (List.cons_ne_nil x xs)
        (hkeep.imp_right fun hk => hk (not_lt.mp hlimit)) h

/-- The stream behind the resume pump of a feed. -/
def resumed (eng : Engine α φ ε γ κ) (s : Stream α φ ε γ κ) : Stream α φ ε γ κ :=
  if s.events.decoderBackpressured then (pumpIncremental eng s).1 else s

/-- A feed keeps up: if it is admitted, its slice loop does not go on too long behind a stall. -/
def KeepsUp (eng : Engine α φ ε γ κ) (s : Stream α φ ε γ κ) : Op → Prop
  | .feed buf => s.Live → (s.events.decoderBackpressured = true → (pumpIncremental eng s).2 = .ok) →
      buf.samples.length ≤ maxFeedSamples → FeedKeepsUp eng (resumed eng s) buf.samples
  | _ => True

/-- A feed in front of which the stream was pumped. -/
lemma FeedOutcome.of_pump {pcm : List α} {status : Status}
    (hpump : Continues eng late s (pumpIncremental eng s).1)
    (hframe : PumpFrame s (pumpIncremental eng s).1)
    (h : FeedOutcome eng late (pumpIncremental eng s).1 s' pcm status) :
    FeedOutcome eng late s s' pcm status where
  transitions := hpump.transitions.trans h.transitions
  live := h.live
  running := h.running
  ready := h.ready
  accepted := by
    rw [← hframe.frontend, ← hframe.totalReceived]
    exact h.accepted
  failed := by
    rw [← hframe.totalReceived]
    exact h.failed
  blame := h.blame
  result := h.result

/-- A feed: a stream under backpressure first resumes the decoder. -/
lemma feedCommon_outcome {buf : FeedBuffer} {status : Status} (hr : OpReady eng late s)
    (hopen : s.lifecycle.state = .created ∨ s.lifecycle.state = .running)
    (hkeep : late ∨ KeepsUp eng s (.feed buf))
    (h : feedCommon eng s buf = some (s', status)) :
    FeedOutcome eng late s s' (buf.samples.map eng.sampleOf) status := by
  have hlive := live_of_open hopen
  unfold feedCommon at h
  rw [if_neg fun hne => hopen.elim hne.1 hne.2] at h
  by_cases hbp : s.events.decoderBackpressured = true
  · rw [if_pos hbp] at h
    simp only at h
    have hpump : Continues eng late s (pumpIncremental eng s).1 :=
      (hr.live hlive).toWorking.pump_continues hlive
    have hframe : PumpFrame s (pumpIncremental eng s).1 := (pumpIncremental_steps hr.within).frame
    have hout := (hr.live hlive).toWorking.pump.1
    by_cases hlimit : (pumpIncremental eng s).2 = .limitExceeded
    · rw [if_pos hlimit] at h
      obtain ⟨rfl, rfl⟩ := Prod.mk.inj (Option.some.inj h)
      have hready := hr.pump hlive hbp (by rw [hlimit]; decide)
      exact .of_pump hpump hframe (.refused hready (hpump.live.mpr hlive)
        (continues_of_lifecycle _ { (pumpIncremental eng s).1.lifecycle with
          feedCalls := (pumpIncremental eng s).1.lifecycle.feedCalls + 1 } rfl rfl)
        (.of_lifecycle _ _ rfl rfl) (fun h => absurd h (by decide)) (by decide))
    · rw [if_neg hlimit] at h
      by_cases hok : (pumpIncremental eng s).2 = .ok
      · rw [if_neg (by simp [hok])] at h
        have hready := hr.pump hlive hbp (by rw [hok]; decide)
        have hopen' : (pumpIncremental eng s).1.lifecycle.state = .created ∨
            (pumpIncremental eng s).1.lifecycle.state = .running := by
          rw [hpump.state]
          exact hopen
        have hclear := ((hr.live hlive).toWorking.pump.2.2 hok).1
        refine .of_pump hpump hframe (feedAdmit_outcome hready hopen' hclear ?_ h)
        refine hkeep.imp_right fun hk hsize => ?_
        have hkeep' := hk hlive (fun _ => hok) hsize
        rwa [resumed, if_pos hbp] at hkeep'
      · have hfail := (hout.result.resolve_left hok).resolve_left hlimit
        rw [if_pos hok] at h
        obtain ⟨hs', rfl⟩ := Prod.mk.inj (Option.some.inj h)
        subst hs'
        have hrunning : (pumpIncremental eng s).1.frontend.enc.finalized = false := by
          rw [hframe.frontend]
          exact (hr.live hlive).front.running
        have hresult : (pumpIncremental eng s).2 ≠ .outOfMemory ∧
            (pumpIncremental eng s).2 ≠ .internalError := by
          rw [hfail]
          decide
        exact ⟨hpump.transitions, hpump.live.mpr hlive,
          hrunning, fun h => absurd hfail h,
          fun h => absurd hfail h, fun _ => hframe.totalReceived, pumpIncremental_blame,
          hresult⟩
  · simp only [Bool.not_eq_true] at hbp
    rw [if_neg (by simp [hbp])] at h
    refine feedAdmit_outcome hr hopen hbp ?_ h
    refine hkeep.imp_right fun hk hsize => ?_
    have hkeep' := hk hlive (fun hfull => absurd (hbp.symm.trans hfull) (by decide)) hsize
    rwa [resumed, if_neg (by simp [hbp])] at hkeep'

variable (eng) (late) in
/-- A stream that fails. -/
lemma failStream_outcome (status : Status) (hw : DecoderWithin s) (hlive : s.Live) :
    Transitions eng late s (failStream s status) ∧ OpReady eng late (failStream s status) := by
  have hstep : Transition eng late s (failStream s status) := .fail s hlive status
  exact ⟨.single hstep, .of_ended (hstep.within hw) (Or.inl rfl)⟩

/-- `voxtral_stream_feed_pcm16`: a feed that failed in the backend ends the stream. -/
lemma streamFeedPcm16_transitions {buf : FeedBuffer} {r : Response} (hr : OpReady eng late s)
    (hkeep : late ∨ KeepsUp eng s (.feed buf)) (h : streamFeedPcm16 eng s buf = some (s', r)) :
    Transitions eng late s s' ∧ OpReady eng late s' := by
  obtain ⟨⟨t, status⟩, hfeed, hr'⟩ := Option.map_eq_some_iff.mp h
  have hs' := congrArg Prod.fst hr'
  simp only at hs'
  by_cases hopen : s.lifecycle.state = .created ∨ s.lifecycle.state = .running
  · have hout := feedCommon_outcome hr hopen hkeep hfeed
    by_cases hfail : status = .backendError
    · rw [if_pos (Or.inl hfail)] at hs'
      rw [← hs', failStreamNoexcept]
      have hflag : Transitions eng late t (setError
          { t with events := { t.events with finalizingFlush := true } } status
          t.lifecycle.lastError) :=
        .single (.account (.of_flags t
          { t.lifecycle with lastStatus := status, lastError := t.lifecycle.lastError }
          t.events.aggressivePartialCoalescing true t.decoder.tokensBeforeFinish (Or.inl rfl) (Or.inl rfl)))
      have hchain := hout.transitions.trans hflag
      obtain ⟨hend, hready⟩ := failStream_outcome eng late status
        (Transitions.within hchain hr.within) (show (setError
          { t with events := { t.events with finalizingFlush := true } } status
          t.lifecycle.lastError).Live from hout.live)
      exact ⟨hchain.trans hend, hready⟩
    · have hother : ¬ (status = .backendError ∨ status = .outOfMemory ∨ status = .internalError) := by
        have hresult := hout.result
        rintro (h | h | h)
        · exact hfail h
        · exact hresult.1 h
        · exact hresult.2 h
      rw [if_neg hother] at hs'
      rw [← hs']
      exact ⟨hout.transitions, hout.ready hfail⟩
  · have hclosed : feedCommon eng s buf = some (setError s .invalidState
        ("feed not allowed in state " ++ stateName s.lifecycle.state), .invalidState) := by
      unfold feedCommon
      rw [if_pos (not_or.mp hopen)]
    obtain ⟨rfl, rfl⟩ := Prod.mk.inj (Option.some.inj (hclosed.symm.trans hfeed))
    rw [if_neg (by decide)] at hs'
    rw [← hs']
    exact ⟨(setError_continues s _ _).transitions, Unmoved.ready (.of_lifecycle s _ rfl rfl) hr⟩

end Voxtral
