import Voxtral.Stream.Pipeline
import Voxtral.Stream.FrontendChange
import Voxtral.Stream.PumpOutcome

/-!
# The pace of encoder, adapter and decoder

While a feed is worked off slice by slice, the encoder is at most 45 groups ahead of the adapter, and
the decoder has caught up with the adapter.  A decoder that stalls on a full queue stops both, and the
encoder may run on by itself for the rest of the feed: only a feed that continues long enough takes it
out of reach of the adapter.
-/

namespace Voxtral

variable {α φ ε γ κ : Type*}

/-! ## Frames emitted for a sample count -/

/-- Encoder frames emitted once `n` real samples were absorbed. -/
def emittedAt (logical n : ℕ) : ℕ :=
  encEmitted logical (encFramesRealizable (stableFrameCount (streamLeftPad + n)))

/-- Nothing is emitted for no samples. -/
lemma emittedAt_zero (logical : ℕ) : emittedAt logical 0 = 0 := by
  unfold emittedAt encEmitted
  rw [if_pos]
  simp [encFramesRealizable_eq, stableFrameCount]

/-- A later target, no fewer frames. -/
lemma encEmitted_mono (logical : ℕ) {t t' : ℕ} (h : t ≤ t') :
    encEmitted logical t ≤ encEmitted logical t' := by
  unfold encEmitted
  by_cases hsmall : t < encKvMaxNew
  · rw [if_pos hsmall]
    exact Nat.zero_le _
  · rw [if_neg hsmall, if_neg (not_lt.mpr ((not_lt.mp hsmall).trans h))]
    exact Nat.mul_le_mul_right _ (Nat.div_le_div_right h)

/-- More samples, no fewer frames. -/
lemma emittedAt_mono (logical : ℕ) {n m : ℕ} (h : n ≤ m) :
    emittedAt logical n ≤ emittedAt logical m := by
  unfold emittedAt
  refine encEmitted_mono logical ?_
  have hstable := stableFrameCount_mono (Nat.add_le_add_left h streamLeftPad)
  rw [encFramesRealizable_eq, encFramesRealizable_eq]
  omega

/-- The groups emitted lie within the audio received. -/
lemma emittedAt_inTime (logical n : ℕ) : 1280 * (emittedAt logical n / 4) ≤ 40960 + n := by
  have hle := encEmitted_le logical (encFramesRealizable (stableFrameCount (streamLeftPad + n)))
  unfold emittedAt
  rw [encFramesRealizable_eq, show streamLeftPad + n = 40960 + n from rfl] at hle ⊢
  set e := encEmitted logical (stableFrameCount (40960 + n) / 2)
  unfold stableFrameCount at hle
  split_ifs at hle <;> omega

/-- At most a batch is held back once the first block is out. -/
lemma lt_emittedAt {logical : ℕ} (hpos : 0 < logical) (n : ℕ) :
    encFramesRealizable (stableFrameCount (streamLeftPad + n)) < 128 ∨
      encFramesRealizable (stableFrameCount (streamLeftPad + n)) < emittedAt logical n + logical := by
  by_cases hblock : 128 ≤ encFramesRealizable (stableFrameCount (streamLeftPad + n))
  · exact Or.inr (lt_encEmitted_add hpos hblock)
  · exact Or.inl (not_le.mp hblock)

/-- A batch has 128 frames at most. -/
lemma EncoderSchedule.logical_le (sch : EncoderSchedule) : sch.logical ≤ 128 :=
  Nat.le_of_dvd (by decide) (sch.logical_dvd.trans sch.physical_bounds.2)

/-- One slice emits at most 177 frames. -/
lemma emittedAt_slice (sch : EncoderSchedule) {n k : ℕ} (hk : k ≤ 16000) :
    emittedAt sch.logical (n + k) ≤ emittedAt sch.logical n + 177 := by
  have hle := encEmitted_le sch.logical
    (encFramesRealizable (stableFrameCount (streamLeftPad + (n + k))))
  have hlt := lt_emittedAt sch.logical_pos n
  have hlogical := sch.logical_le
  change emittedAt sch.logical (n + k) ≤ _ at hle
  rw [encFramesRealizable_eq, show streamLeftPad + (n + k) = 40960 + (n + k) from rfl] at hle
  rw [encFramesRealizable_eq, show streamLeftPad + n = 40960 + n from rfl] at hlt
  unfold stableFrameCount at hle hlt
  split_ifs at hle hlt <;> omega

/-- The finish emits at most 206 frames. -/
lemma finishGroups_le (sch : EncoderSchedule) (n : ℕ) :
    4 * finishGroups n ≤ emittedAt sch.logical n + 206 := by
  have hlt := lt_emittedAt sch.logical_pos n
  have hlogical := sch.logical_le
  rw [encFramesRealizable_eq, show streamLeftPad + n = 40960 + n from rfl] at hlt
  unfold stableFrameCount at hlt
  unfold finishGroups
  split_ifs at hlt <;> omega

/-- The finish emits every frame emitted before. -/
lemma emittedAt_le_finish (logical n : ℕ) : emittedAt logical n ≤ 4 * finishGroups n := by
  have hle := encEmitted_le logical (encFramesRealizable (stableFrameCount (streamLeftPad + n)))
  change emittedAt logical n ≤ _ at hle
  rw [encFramesRealizable_eq, show streamLeftPad + n = 40960 + n from rfl] at hle
  unfold stableFrameCount at hle
  unfold finishGroups
  split_ifs at hle <;> omega

/-! ## Cursors -/

/-- The groups the encoder has completed lie within the audio received, and so do those the adapter
has committed. -/
structure InTime (s : Stream α φ ε γ κ) : Prop where
  emitted : 1280 * (s.frontend.enc.emitted / 4) ≤ 40960 + s.frontend.realSamples.length
  committed : s.decoder.adapterGroupsCommitted ≤ s.frontend.enc.emitted / 4

/-- The next groups the adapter reads are still in the encoder ring, or it reads no more. -/
def RowsInRing (s : Stream α φ ε γ κ) : Prop :=
  s.frontend.enc.emitted ≤ 4 * s.decoder.adapterGroupsCommitted + encOutRingCap ∨
    (s.decoder.decoderEos = true ∧ s.decoder.pending = none ∧
      consumedFloor s + aembRingCap ≤ s.decoder.adapterGroupsCommitted)

/-- The encoder is within reach of the adapter, and the adapter within reach of the decoder. -/
structure WithinReach (s : Stream α φ ε γ κ) : Prop where
  rows : RowsInRing s
  throttle : s.decoder.decoderEos = true ∨ s.frontend.enc.emitted / 4 ≤ consumedFloor s + 192

/-- Adapter and decoder have caught up. -/
structure Synced (s : Stream α φ ε γ κ) : Prop where
  pending : s.decoder.pending = none
  committed : s.decoder.adapterGroupsCommitted = committable s
  prefilled : s.decoder.decoderPrefillDone = true ↔
    promptLength - 1 ≤ s.decoder.adapterGroupsCommitted
  position : s.decoder.decoderPrefillDone = true → s.decoder.decoderEos = false →
    s.decoder.decoderPosition = s.decoder.adapterGroupsCommitted

/-- The encoder ring holds the last frames, as functions of the Mel frames pushed. -/
structure RingReady (eng : Engine α φ ε γ κ) (s : Stream α φ ε γ κ) : Prop where
  seen : 2 * s.frontend.enc.emitted ≤ s.frontend.enc.melHistory.length
  holds : s.device.encOutRing.Holds encOutRingCap (encoderFrameAt eng s.frontend.enc.melHistory)
    (s.frontend.enc.emitted - encOutRingCap) s.frontend.enc.emitted

/-- A stream that works off audio.  `late` says that a feed went on too long behind a stall, after
which the pace is lost. -/
structure Working [Zero α] (eng : Engine α φ ε γ κ) (late : Prop) (s : Stream α φ ε γ κ) : Prop where
  within : DecoderWithin s
  front : FrontReady eng s
  emitted : s.frontend.enc.emitted =
    emittedAt eng.schedule.logical s.frontend.realSamples.length
  recorded : RunsRecorded eng s
  params : s.params = {}
  committed : s.decoder.adapterGroupsCommitted ≤ committable s
  queue : s.events.queue.length ≤ s.events.maxEvents
  flush : s.events.finalizingFlush = false
  stall : s.events.decoderBackpressured = true → s.decoder.decoderPrefillDone = true ∧
    s.decoder.pending ≠ none ∧ s.decoder.decoderEos = false
  stash : s.events.decoderBackpressured = false → s.decoder.pending = none
  reach : late ∨ WithinReach s

section Pace

variable {eng : Engine α φ ε γ κ} {late : Prop} {s s' : Stream α φ ε γ κ}

/-- The bound of the queue is kept by every atomic change. -/
lemma PumpStep.queue_le (h : PumpStep eng s s') (hq : s.events.queue.length ≤ s.events.bound) :
    s'.events.queue.length ≤ s'.events.bound := by
  rw [h.frame.bound]
  cases h with
  | deliver p _ _ hroom =>
    by_cases heos : p.token = tokenEos
    · rw [(deliverPending_eos_events eng s heos).1, List.length_append, List.length_singleton]
      exact hroom
    · obtain ⟨hpush, -⟩ := deliverPending_text_events eng s heos
      generalize (deliverPending eng s p).events.queue = queue' at hpush ⊢
      generalize hqueue : s.events.queue ++ [tokenEvent eng p (s.decoder.tokenSequence + 1)] = queue
        at hpush
      have hlen : queue.length ≤ s.events.bound := by
        rw [← hqueue, List.length_append, List.length_singleton]
        exact hroom
      cases hpush with
      | append _ hroom' =>
        rw [List.length_append, List.length_singleton]
        exact hroom'
      | moveBack pre x post =>
        simp only [List.length_append, List.length_cons, List.length_nil] at hlen ⊢
        omega
      | replace pre x post =>
        simp only [List.length_append, List.length_cons] at hlen ⊢
        omega
      | drop => exact hlen
  | _ => exact hq

/-- A pump keeps the queue within its bound. -/
lemma PumpSteps.queue_le (h : PumpSteps eng s s') (hq : s.events.queue.length ≤ s.events.bound) :
    s'.events.queue.length ≤ s'.events.bound := by
  induction h with
  | refl => exact hq
  | tail _ hstep ih => exact hstep.queue_le ih

/-- Every atomic change leaves the rows to be read in the encoder ring. -/
lemma PumpStep.rowsInRing (h : PumpStep eng s s') (hw : DecoderWithin s) (hs : RowsInRing s) :
    RowsInRing s' := by
  rcases hs with hs | ⟨heos, hnone, hfloor⟩
  · refine Or.inl ?_
    rw [h.frame.frontend]
    refine hs.trans (Nat.add_le_add_right (Nat.mul_le_mul_left _ ?_) _)
    cases h with
    | advanceAdapter committed hgrow => exact hgrow.le
    | deliver p =>
      rw [deliverPending_decoder, decoderAfter]
      split_ifs <;> exact le_rfl
    | _ => exact le_rfl
  · cases h with
    | bookkeep => exact Or.inr ⟨heos, hnone, hfloor⟩
    | commitGroup => exact Or.inr ⟨heos, hnone, hfloor⟩
    | advanceAdapter committed hgrow hcap =>
      exact absurd (hcap.trans hfloor) (not_le.mpr hgrow)
    | prefill hfresh =>
      rw [(hw.fresh hfresh).2] at heos
      exact absurd heos (by decide)
    | decoderStep _ _ hmay =>
      rw [hmay.2.1] at heos
      exact absurd heos (by decide)
    | deliver p _ hpending =>
      rw [hpending] at hnone
      exact absurd hnone (by simp)

/-- It keeps the rows still to be read in the encoder ring. -/
lemma PumpSteps.rowsInRing (h : PumpSteps eng s s') (hw : DecoderWithin s) (hs : RowsInRing s) :
    RowsInRing s' := by
  induction h with
  | refl => exact hs
  | tail hsteps hstep ih => exact hstep.rowsInRing (PumpSteps.within hsteps hw) ih

/-- Every atomic change leaves the committed groups within the audio received. -/
lemma PumpStep.inTime (h : PumpStep eng s s') (hs : InTime s) : InTime s' := by
  have hframe := h.frame
  refine ⟨?_, ?_⟩
  · rw [hframe.frontend]
    exact hs.emitted
  · rw [hframe.frontend]
    cases h with
    | advanceAdapter committed _ _ havail => exact havail
    | deliver p =>
      rw [deliverPending_decoder, decoderAfter]
      split_ifs <;> exact hs.committed
    | _ => exact hs.committed

/-- It keeps a stream in time. -/
lemma PumpSteps.inTime (h : PumpSteps eng s s') (hs : InTime s) : InTime s' := by
  induction h with
  | refl => exact hs
  | tail _ hstep ih => exact hstep.inTime ih

/-- An atomic change of a pump runs no encoder graph. -/
lemma PumpStep.encoderRuns (h : PumpStep eng s s') :
    encoderRuns s'.trace = encoderRuns s.trace := by
  cases h with
  | deliver p =>
    by_cases heos : p.token = tokenEos
    · rw [(deliverPending_eos_events eng s heos).2, encoderRuns_append]
      exact List.append_nil _
    · obtain ⟨-, extra, htrace, hextra⟩ := deliverPending_text_events eng s heos
      rw [htrace, encoderRuns_append, encoderRuns_append]
      have hnone : Voxtral.encoderRuns extra = [] := by
        refine List.filterMap_eq_nil_iff.mpr fun e he => ?_
        rw [List.mem_singleton.mp (hextra.subset he)]
        rfl
      rw [hnone, List.append_nil]
      exact List.append_nil _
  | commitGroup | prefill | decoderStep => exact (encoderRuns_append _ _).trans (List.append_nil _)
  | bookkeep | advanceAdapter => rfl

/-- It runs no encoder graph. -/
lemma PumpSteps.encoderRuns (h : PumpSteps eng s s') :
    encoderRuns s'.trace = encoderRuns s.trace := by
  induction h with
  | refl => rfl
  | tail _ hstep ih => exact hstep.encoderRuns.trans ih

/-- The decoder never goes back, and the end is never undone. -/
lemma PumpStep.forward (h : PumpStep eng s s') :
    consumedFloor s ≤ consumedFloor s' ∧
      (s.decoder.decoderEos = true → s'.decoder.decoderEos = true) := by
  cases h with
  | prefill hfresh =>
    refine ⟨?_, id⟩
    unfold consumedFloor
    rw [if_neg (by simp [hfresh])]
    exact Nat.zero_le _
  | deliver p hprefill =>
    have hdec := deliverPending_decoder eng s p
    unfold consumedFloor
    rw [hdec, decoderAfter]
    split_ifs with heos <;> simp [hprefill, appendTokenToPartial] at *
  | _ => exact ⟨le_rfl, id⟩

/-- It moves the consumed groups forward, and an end of the text stays. -/
lemma PumpSteps.forward (h : PumpSteps eng s s') :
    consumedFloor s ≤ consumedFloor s' ∧
      (s.decoder.decoderEos = true → s'.decoder.decoderEos = true) := by
  induction h with
  | refl => exact ⟨le_rfl, id⟩
  | tail _ hstep ih => exact ⟨ih.1.trans hstep.forward.1, fun h => hstep.forward.2 (ih.2 h)⟩

/-- After the end the decoder stays where it is. -/
lemma PumpSteps.floor_of_eos (h : PumpSteps eng s s') (hw : DecoderWithin s)
    (heos : s.decoder.decoderEos = true) : consumedFloor s' = consumedFloor s := by
  induction h with
  | refl => rfl
  | tail hsteps hstep ih =>
    have hw' := PumpSteps.within hsteps hw
    have heos' := (PumpSteps.forward hsteps).2 heos
    rw [← ih]
    cases hstep with
    | prefill hfresh =>
      rw [(hw'.fresh hfresh).2] at heos'
      exact absurd heos' (by decide)
    | deliver p _ hpending =>
      rw [(hw'.stash p hpending).2.2] at heos'
      exact absurd heos' (by decide)
    | _ => rfl

/-- Without a token limit a decoder that may not step has ended or caught up. -/
lemma caughtUp_of_not_mayStep (hw : DecoderWithin s) (hparams : s.params = {})
    (hprefill : s.decoder.decoderPrefillDone = true) (heos : s.decoder.decoderEos = false)
    (hmay : ¬ decoderMayStep s) :
    s.decoder.decoderPosition = s.decoder.adapterGroupsCommitted := by
  have hfloor := hw.floor
  unfold consumedFloor at hfloor
  rw [if_pos hprefill] at hfloor
  by_contra hne
  exact hmay ⟨by omega, heos, by rw [hparams]; exact Or.inl le_rfl⟩

/-- Before the end, an adapter that has caught up stands at the head of the encoder. -/
lemma Synced.head (h : Synced s) (heos : s.decoder.decoderEos = false) :
    s.decoder.adapterGroupsCommitted = s.frontend.enc.emitted / 4 ∧
      s.decoder.adapterGroupsCommitted ≤ consumedFloor s + 37 := by
  have hc := h.committed
  have hpre := h.prefilled
  simp only [committable, downsampleFactor, aembRingCap, promptLength] at hc hpre
  by_cases hdone : s.decoder.decoderPrefillDone = true
  · have hpos := h.position hdone heos
    have hfloor : consumedFloor s = s.decoder.decoderPosition := by
      unfold consumedFloor
      rw [if_pos hdone]
    omega
  · have hsmall : ¬ 38 ≤ s.decoder.adapterGroupsCommitted := fun h => hdone (hpre.mpr h)
    omega

/-- Where adapter and decoder had caught up, a slice leaves them within reach. -/
lemma Synced.withinReach_of_growth (h : Synced s) (hdecoder : s'.decoder = s.decoder)
    (hgrowth : s'.frontend.enc.emitted ≤ s.frontend.enc.emitted + 206) : WithinReach s' := by
  have hfloor : consumedFloor s' = consumedFloor s := by
    unfold consumedFloor
    rw [hdecoder]
  have hc := h.committed
  simp only [committable, downsampleFactor, aembRingCap] at hc
  by_cases heos : s.decoder.decoderEos = true
  · refine ⟨?_, Or.inl (by rw [hdecoder]; exact heos)⟩
    unfold RowsInRing
    rw [hdecoder, hfloor]
    simp only [encOutRingCap, aembRingCap]
    by_cases hthrottled : s.frontend.enc.emitted / 4 ≤ consumedFloor s + 256
    · left
      omega
    · exact Or.inr ⟨heos, h.pending, by omega⟩
  · simp only [Bool.not_eq_true] at heos
    obtain ⟨hhead, hnear⟩ := h.head heos
    refine ⟨Or.inl ?_, Or.inr ?_⟩
    · rw [hdecoder]
      simp only [encOutRingCap]
      omega
    · rw [hfloor]
      omega

variable [Zero α]

/-- A ready front has the rows of the encoder ring in place. -/
lemma FrontReady.ringReady (h : FrontReady eng s) : RingReady eng s := by
  have hrealizable := h.tracks.realizable
  rw [encFramesRealizable_eq, h.tracks.stable] at hrealizable
  exact ⟨by omega, h.tracks.holds⟩

/-- What a drained encoder has emitted. -/
lemma FrontReady.emitted_of_drained (h : FrontReady eng s)
    (hpadded : s.frontend.leftPadInjected = true) (hdrained : Drained s) :
    s.frontend.enc.emitted =
      emittedAt eng.schedule.logical s.frontend.realSamples.length := by
  rw [h.emitted, hdrained, h.mel.next, length_paddedSignal hpadded]
  rfl

/-- A stream that works is in time. -/
lemma Working.inTime (h : Working eng late s) : InTime s := by
  refine ⟨?_, h.committed.trans (Nat.min_le_left _ _)⟩
  rw [h.emitted]
  exact emittedAt_inTime _ _

/-- A pump of a stream that works off audio. -/
theorem Working.pump (h : Working eng late s) :
    PumpOutcome eng s (pumpIncremental eng s).1 (pumpIncremental eng s).2 ∧
      ((pumpIncremental eng s).2 ≠ .backendError → Working eng late (pumpIncremental eng s).1) ∧
      ((pumpIncremental eng s).2 = .ok →
        (pumpIncremental eng s).1.events.decoderBackpressured = false ∧
          (late ∨ Synced (pumpIncremental eng s).1)) := by
  have hout := pumpIncremental_outcome eng h.within h.committed
  have hsteps : PumpSteps eng s (pumpIncremental eng s).1 := pumpIncremental_steps h.within
  generalize pumpIncremental eng s = r at hout hsteps ⊢
  obtain ⟨p, status⟩ := r
  simp only at hout hsteps ⊢
  have hframe := hsteps.frame
  have hwp := PumpSteps.within hsteps h.within
  obtain ⟨hfloor, hend⟩ := PumpSteps.forward hsteps
  have hparams : p.params = {} := hframe.params.trans h.params
  have hprefilled : s.decoder.decoderPrefillDone = true → p.decoder.decoderPrefillDone = true :=
    fun hs => PumpSteps.prefillDone hsteps hs
  have hgrow : committable s ≤ committable p := by
    unfold committable
    rw [hframe.frontend]
    omega
  have hcommitted : status ≠ .backendError → p.decoder.adapterGroupsCommitted ≤ committable p :=
    fun hne => (hout.committed hne).le.trans hgrow
  -- the flag after a pump that worked off everything
  have hclear : status = .ok → p.events.decoderBackpressured = false := by
    intro hok
    obtain ⟨-, hdone, hsame⟩ := hout.done hok
    cases hpre : p.decoder.decoderPrefillDone with
    | true => exact (hdone hpre).2
    | false =>
      rw [hsame hpre]
      by_contra htrue
      have hs := hprefilled (h.stall (by simpa using htrue)).1
      exact absurd (hs.symm.trans hpre) (by decide)
  have hreach : late ∨ WithinReach p := by
    rcases h.reach with hlate | hreach
    · exact Or.inl hlate
    · refine Or.inr ⟨PumpSteps.rowsInRing hsteps h.within hreach.rows, ?_⟩
      rw [hframe.frontend]
      rcases hreach.throttle with heos | hle
      · exact Or.inl (hend heos)
      · exact Or.inr (hle.trans (Nat.add_le_add_right hfloor _))
  refine ⟨hout, fun hne => ?_, fun hok => ⟨hclear hok, ?_⟩⟩
  · have hqueue := PumpSteps.queue_le hsteps (by
      unfold Events.bound
      rw [h.flush]
      exact h.queue)
    unfold Events.bound at hqueue
    rw [hframe.finalizingFlush, h.flush] at hqueue
    refine ⟨hwp, h.front.congr hframe.frontend hframe.encOutRing, ?_, ?_, hparams, hcommitted hne,
      hqueue, hframe.finalizingFlush.trans h.flush, fun hbp => ?_, fun hbp => ?_, hreach⟩
    · rw [hframe.frontend]
      exact h.emitted
    · unfold RunsRecorded
      rw [PumpSteps.encoderRuns hsteps, hframe.frontend]
      exact h.recorded
    · rcases hout.result with hok | hlimit | hbad
      · rw [hclear hok] at hbp
        exact absurd hbp (by decide)
      · obtain ⟨hpre, hpending, heos, -, -⟩ := hout.stalled hlimit
        exact ⟨hpre, hpending, heos⟩
      · exact absurd hbad hne
    · rcases hout.result with hok | hlimit | hbad
      · exact (hout.done hok).1
      · rw [(hout.stalled hlimit).2.2.2.1] at hbp
        exact absurd hbp (by decide)
      · exact absurd hbad hne
  · rcases h.reach with hlate | hreach
    · exact Or.inl hlate
    refine Or.inr ?_
    have hne : status ≠ .backendError := by rw [hok]; decide
    obtain ⟨hnone, hdone, -⟩ := hout.done hok
    have hc := hout.committed hne
    have hsame : committable s = committable p := by
      unfold committable
      rw [hframe.frontend]
      rcases hreach.throttle with heos | hle
      · rw [PumpSteps.floor_of_eos hsteps h.within heos]
      · simp only [downsampleFactor, aembRingCap]
        omega
    refine ⟨hnone, hc.trans hsame, ?_, fun hpre heos => ?_⟩
    · rw [hout.prefillDone hne, hc]
      refine ⟨fun hor => ?_, Or.inr⟩
      rcases hor with hpre | hle
      · have hstarted := h.within.started hpre
        have hfl := h.within.floor
        unfold consumedFloor at hfl
        rw [if_pos hpre] at hfl
        exact hstarted.trans (hfl.trans h.committed)
      · exact hle
    · exact caughtUp_of_not_mayStep hwp hparams hpre heos (hdone hpre).1

/-- A slice absorbed by a stream that works off audio. -/
theorem Working.absorb (h : Working eng late s) (hpadded : s.frontend.leftPadInjected = true)
    {slice : List α} (hslice : slice.length ≤ audioDrainSlice)
    (hkeep : late ∨ (s.events.decoderBackpressured = false ∧ Synced s) ∨
      (s.decoder.adapterGroupsCommitted ≤ consumedFloor s + 128 ∧
        emittedAt eng.schedule.logical (s.frontend.realSamples.length + slice.length) ≤
          4 * s.decoder.adapterGroupsCommitted + encOutRingCap))
    (hs' : absorbSlice eng s slice = some (s', true)) :
    Working eng late s' ∧ s'.frontend.leftPadInjected = true ∧ s'.decoder = s.decoder ∧
      s'.events = s.events ∧ s'.frontend.realSamples = s.frontend.realSamples ++ slice := by
  have hout := absorbSlice_outcome h.front hpadded hslice hs'
  have hchange := absorbSlice_frontendChange hs'
  obtain ⟨hfront, hdrained⟩ := hout.ready rfl
  have hemitted := hfront.emitted_of_drained hout.padded hdrained
  have hfloor : consumedFloor s' = consumedFloor s := by
    unfold consumedFloor
    rw [hchange.decoder]
  have hlen : s'.frontend.realSamples.length =
      s.frontend.realSamples.length + slice.length := by
    rw [hout.samples, List.length_append]
  have hslice' := emittedAt_slice eng.schedule (n := s.frontend.realSamples.length) hslice
  have hmono := emittedAt_mono eng.schedule.logical
    (Nat.le_add_right s.frontend.realSamples.length slice.length)
  have hgrow : s.frontend.enc.emitted ≤ s'.frontend.enc.emitted := by
    rw [h.emitted, hemitted, hlen]
    exact hmono
  have hcommit : committable s ≤ committable s' := by
    unfold committable
    rw [hfloor]
    have hdiv := Nat.div_le_div_right (c := downsampleFactor) hgrow
    omega
  refine ⟨⟨?_, hfront, hemitted, hout.recorded rfl h.recorded, hchange.params.trans h.params, ?_, ?_,
    ?_, ?_, ?_, ?_⟩, hout.padded,
    hchange.decoder, hchange.events, hout.samples⟩
  · refine ⟨?_, ?_, ?_, ?_⟩
    · rw [hfloor, hchange.decoder]
      exact h.within.floor
    all_goals rw [hchange.decoder]
    · exact h.within.started
    · exact h.within.fresh
    · exact h.within.stash
  · rw [hchange.decoder]
    exact h.committed.trans hcommit
  · rw [hchange.events]
    exact h.queue
  · rw [hchange.events]
    exact h.flush
  · rw [hchange.events, hchange.decoder]
    exact h.stall
  · rw [hchange.events, hchange.decoder]
    exact h.stash
  · rcases hkeep with hlate | ⟨-, hsync⟩ | ⟨hc, htolerated⟩
    · exact Or.inl hlate
    · refine Or.inr (hsync.withinReach_of_growth hchange.decoder ?_)
      rw [hemitted, h.emitted, hlen]
      exact hslice'.trans (Nat.add_le_add_left (by decide) _)
    · refine Or.inr ⟨Or.inl ?_, Or.inr ?_⟩
      · rw [hemitted, hlen, hchange.decoder]
        exact htolerated
      · rw [hemitted, hlen, hfloor]
        simp only [encOutRingCap] at htolerated
        omega

end Pace

/-! ## Feeds that keep up -/

/-- The frames of `more` samples absorbed behind a stall after `n` samples do not overwrite the first
row the adapter still has to read. -/
def Tolerated (logical n more : ℕ) : Prop :=
  emittedAt logical (n + more) ≤ 4 * (emittedAt logical n / 4) + encOutRingCap

/-- The slice loop of a feed does not go on too long once the decoder stalled on a full queue. -/
def StallsInTime (eng : Engine α φ ε γ κ) : Stream α φ ε γ κ → List (List α) → Prop
  | _, [] => True
  | s, slice :: rest => ∀ t, absorbSlice eng s slice = some (t, true) →
    ((pumpIncremental eng t).2 = .limitExceeded →
      Tolerated eng.schedule.logical t.frontend.realSamples.length rest.flatten.length) ∧
    ((pumpIncremental eng t).2 = .ok → StallsInTime eng (pumpIncremental eng t).1 rest)

end Voxtral
