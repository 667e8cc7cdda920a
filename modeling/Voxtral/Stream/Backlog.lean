import Voxtral.Stream.Acceptance
import Voxtral.Stream.FeedRoom

/-!
# The reported backlog

At the end of a feed that was accepted, `sample_stage_backlogs` counts the audio groups each stage has not
worked off.  It counts from the cursors: the position of the decoder, not the last position a step was made
at.  Behind a stashed token, and behind the end of the stream, the two differ, and the report counts groups
that no later pump works on.
-/

namespace Voxtral

open Relation

variable {α φ ε γ κ : Type*} {eng : Engine α φ ε γ κ} {s s' t : Stream α φ ε γ κ}

/-! ## The report -/

/-- The backlogs of one report, in audio groups of 80 ms. -/
structure StageBacklogs where
  encoder : ℕ
  adapter : ℕ
  decoder : ℕ
  deriving DecidableEq, Repr

/-- `decoder_done` of `sample_stage_backlogs`. -/
def decoderDone (s : Stream α φ ε γ κ) : ℕ :=
  if s.decoder.decoderPrefillDone then s.decoder.decoderPosition - (promptIds.length - 1) else 0

/-- `sample_stage_backlogs` of an inference stream, without the time series the counts are added to. -/
def sampleStageBacklogs (s : Stream α φ ε γ κ) : Option StageBacklogs :=
  if s.lifecycle.totalSamplesReceived = 0 then none
  else
    let stableMel := s.frontend.melFe.nextFrame
    let realizableFrames := if stableMel < 2 then 0 else (stableMel - 2) / 2 + 1
    let encoderReadyGroups := realizableFrames / downsampleFactor
    let encoderDoneGroups := s.frontend.enc.emitted / downsampleFactor
    let promptPrefix := promptIds.length - 1
    let committed := s.decoder.adapterGroupsCommitted
    let decoderReady := if promptPrefix < committed then committed - promptPrefix else 0
    some
      { encoder := encoderReadyGroups - encoderDoneGroups
        adapter := encoderDoneGroups - committed
        decoder := decoderReady - decoderDone s }

/-! ## Work still to be done -/

/-- Without new audio a stream is pumped and polled. -/
inductive LaterStep (eng : Engine α φ ε γ κ) : Stream α φ ε γ κ → Stream α φ ε γ κ → Prop
  | pump (s : Stream α φ ε γ κ) : LaterStep eng s (pumpIncremental eng s).1
  | poll (s : Stream α φ ε γ κ) : LaterStep eng s (streamPollEvent s).1

/-- The entry records the audio embedding of `group`. -/
def TraceEntry.commitsGroup (group : ℕ) : TraceEntry ε γ → Bool
  | .adapterGroup g _ => g = group
  | _ => false

/-- The entry records a decoder step at `position`. -/
def TraceEntry.stepsAt (position : ℕ) : TraceEntry ε γ → Bool
  | .decoderStep _ p _ _ => p = position
  | _ => false

/-- Pumps to come record something that `isWork` recognizes. -/
def StillRuns (eng : Engine α φ ε γ κ) (s : Stream α φ ε γ κ) (isWork : TraceEntry ε γ → Bool) : Prop :=
  ∃ s', ReflTransGen (LaterStep eng) s s' ∧ s.trace.countP isWork < s'.trace.countP isWork

/-- The report at the end of a feed of `count` samples with the answer `status` counts work still to be
done: an adapter commit or a decoder step for each of its groups, and nothing after a feed of at most a
second that did not stall. -/
structure BacklogIsWork (eng : Engine α φ ε γ κ) (s : Stream α φ ε γ κ) (backlogs : StageBacklogs)
    (count : ℕ) (status : PublicStatus) : Prop where
  adapter : ∀ group, s.decoder.adapterGroupsCommitted ≤ group →
    group < s.decoder.adapterGroupsCommitted + backlogs.adapter →
    StillRuns eng s (TraceEntry.commitsGroup group)
  decoder : ∀ position, promptIds.length - 1 + decoderDone s ≤ position →
    position < promptIds.length - 1 + decoderDone s + backlogs.decoder →
    StillRuns eng s (TraceEntry.stepsAt position)
  small : count ≤ 16000 → status = .ok → backlogs.adapter = 0 ∧ backlogs.decoder = 0

/-! ## What later pumps do -/

/-- The first position at which no decoder step was made. -/
def steppedTo (s : Stream α φ ε γ κ) : ℕ := deliveredTo s + s.decoder.pending.toList.length

/-- A step of the pump adds no decoder step at a position stepped over before. -/
lemma PumpStep.steppedTo (h : PumpStep eng s s') (hw : DecoderWithin s) :
    steppedTo s ≤ steppedTo s' ∧ ∀ position < steppedTo s,
      s'.trace.countP (TraceEntry.stepsAt position) = s.trace.countP (TraceEntry.stepsAt position) := by
  cases h with
  | bookkeep => exact ⟨le_rfl, fun _ _ => rfl⟩
  | advanceAdapter => exact ⟨le_rfl, fun _ _ => rfl⟩
  | commitGroup =>
    refine ⟨le_rfl, fun position _ => ?_⟩
    exact List.countP_append.trans (Nat.add_zero _)
  | prefill hfresh =>
    constructor
    · unfold Voxtral.steppedTo deliveredTo firstOpen
      rw [hfresh]
      exact le_rfl
    · intro position _
      exact List.countP_append.trans (Nat.add_zero _)
  | decoderStep hprefill hpending hmay =>
    -- the step is made at the first position that was not stepped over
    have hhere : Voxtral.steppedTo s = s.decoder.decoderPosition := by
      unfold Voxtral.steppedTo deliveredTo firstOpen
      rw [hpending, hmay.2.1, hprefill]
      rfl
    constructor
    · unfold Voxtral.steppedTo
      rw [hpending]
      exact Nat.le_add_right _ _
    · intro position hposition
      rw [hhere] at hposition
      have hother : (s.decoder.decoderPosition = position) = False := eq_false hposition.ne'
      rw [stepDecoder, List.countP_append, List.countP_singleton]
      simp only [TraceEntry.stepsAt, hother, decide_false, Bool.false_eq_true, if_false, Nat.add_zero]
  | deliver p hprefill hpending hroom =>
    obtain ⟨-, hmoved⟩ := deliverPending_token eng s p hprefill (hw.stash p hpending).2.2
    have hnone : (deliverPending eng s p).decoder.pending = none := by
      rw [deliverPending_decoder, decoderAfter]
      split_ifs <;> rfl
    constructor
    · unfold Voxtral.steppedTo
      rw [hmoved, hnone, hpending]
      exact le_rfl
    · intro position _
      obtain ⟨more, htrace, hquiet⟩ := deliverPending_quiet eng s p
      have hnone : more.countP (TraceEntry.stepsAt position) = 0 := by
        rw [List.countP_eq_zero]
        intro e he
        have hentry := hquiet e he
        cases e <;> first | exact absurd hentry id | exact Bool.false_ne_true
      rw [htrace, List.countP_append, hnone, Nat.add_zero]

/-- The steps of a pump add no decoder step at a position stepped over before. -/
lemma PumpSteps.steppedTo (h : PumpSteps eng s s') (hw : DecoderWithin s) :
    steppedTo s ≤ steppedTo s' ∧ ∀ position < steppedTo s,
      s'.trace.countP (TraceEntry.stepsAt position) = s.trace.countP (TraceEntry.stepsAt position) := by
  induction h with
  | refl => exact ⟨le_rfl, fun _ _ => rfl⟩
  | tail hsteps hstep ih =>
    obtain ⟨hle, hcount⟩ := hstep.steppedTo (PumpSteps.within hsteps hw)
    refine ⟨ih.1.trans hle, fun position hposition => ?_⟩
    exact (hcount position (hposition.trans_le ih.1)).trans (ih.2 position hposition)

/-- Nor does whatever follows. -/
lemma laterSteps_steppedTo (h : ReflTransGen (LaterStep eng) s s') (hw : DecoderWithin s) :
    DecoderWithin s' ∧ steppedTo s ≤ steppedTo s' ∧ ∀ position < steppedTo s,
      s'.trace.countP (TraceEntry.stepsAt position) = s.trace.countP (TraceEntry.stepsAt position) := by
  induction h with
  | refl => exact ⟨hw, le_rfl, fun _ _ => rfl⟩
  | @tail u _ _ hstep ih =>
    obtain ⟨hwithin, hle, hcount⟩ := ih
    cases hstep with
    | pump =>
      have hsteps : PumpSteps eng u (pumpIncremental eng u).1 := pumpIncremental_steps hwithin
      obtain ⟨hle', hcount'⟩ := hsteps.steppedTo hwithin
      refine ⟨PumpSteps.within hsteps hwithin, hle.trans hle', fun position hposition => ?_⟩
      exact (hcount' position (hposition.trans_le hle)).trans (hcount position hposition)
    | poll =>
      obtain ⟨_, heq, -⟩ := streamPollEvent_eq u
      rw [heq]
      exact ⟨hwithin.of_decoder rfl rfl rfl rfl rfl rfl, hle, hcount⟩

/-- No later pump makes a decoder step at a position stepped over. -/
lemma not_stillRuns_stepsAt (hw : DecoderWithin s) {position : ℕ} (hposition : position < steppedTo s) :
    ¬ StillRuns eng s (TraceEntry.stepsAt position) := by
  rintro ⟨s', hlater, hmore⟩
  rw [(laterSteps_steppedTo hlater hw).2.2 position hposition] at hmore
  exact lt_irrefl _ hmore

/-! ## The end of the stream -/

/-- The position at which the decoder ended is a committed one. -/
def EndsBehind (s : Stream α φ ε γ κ) : Prop :=
  s.decoder.decoderEos = true → s.decoder.decoderPosition < s.decoder.adapterGroupsCommitted

/-- A step of the pump keeps the end of the text at a committed position. -/
lemma PumpStep.endsBehind (h : PumpStep eng s s') (hw : DecoderWithin s) (he : EndsBehind s) :
    EndsBehind s' := by
  cases h with
  | bookkeep => exact he
  | commitGroup => exact he
  | advanceAdapter committed hgrow => exact fun hend => (he hend).trans hgrow
  | prefill hfresh =>
    intro hend
    exact absurd ((hw.fresh hfresh).2.symm.trans hend) Bool.false_ne_true
  | decoderStep => exact he
  | deliver p hprefill hpending =>
    obtain ⟨-, hbehind, hlive⟩ := hw.stash p hpending
    intro hend
    rw [deliverPending_decoder, decoderAfter] at hend ⊢
    split_ifs at hend ⊢
    · exact hbehind
    · exact absurd (hlive.symm.trans hend) Bool.false_ne_true

/-- No transition moves the end of the stream past the committed groups. -/
lemma Transition.endsBehind {late : Prop} (h : Transition eng late s s') (hw : DecoderWithin s)
    (he : EndsBehind s) : EndsBehind s' := by
  cases h with
  | pump _ _ _ _ hstep => exact hstep.endsBehind hw he
  | absorb _ hchange _ =>
    unfold EndsBehind
    rw [hchange.decoder]
    exact he
  | account hchange =>
    unfold EndsBehind
    rw [hchange.decoder]
    exact he
  | complete =>
    obtain ⟨_, happ, -⟩ := completeStream_appends _
    unfold EndsBehind
    rw [happ.decoder]
    exact he
  | fail =>
    obtain ⟨_, happ, -⟩ := failStream_appends _ _
    unfold EndsBehind
    rw [happ.decoder]
    exact he
  | cancel =>
    obtain ⟨_, happ, -⟩ := cancelInternal_appends _
    unfold EndsBehind
    rw [happ.decoder]
    exact he

/-- Every moment of a run keeps the end of the stream behind the committed groups. -/
lemma Moves.endsBehind {late : Prop} (h : Moves eng late s s') (hw : DecoderWithin s)
    (he : EndsBehind s) : EndsBehind s' := by
  refine Moves.invariant (fun _ _ hstep => hstep.endsBehind) (fun u hu => ?_) hw he h
  obtain ⟨_, heq, -⟩ := streamPollEvent_eq u
  rw [heq]
  exact hu

/-! ## Reports of a stream -/

/-- The decoder stands behind every step it made. -/
def Current (s : Stream α φ ε γ κ) : Prop := s.decoder.pending = none ∧ s.decoder.decoderEos = false

/-- Unless it is current, the decoder stands at a committed position it has stepped over, and the report
counts this position. -/
lemma not_backlogIsWork {backlogs : StageBacklogs} {count : ℕ} {status : PublicStatus}
    (hw : DecoderWithin s) (he : EndsBehind s) (hreport : sampleStageBacklogs s = some backlogs)
    (hcurrent : ¬ Current s) : ¬ BacklogIsWork eng s backlogs count status := by
  intro hwork
  have hprefill : s.decoder.decoderPrefillDone = true := by
    by_contra hfresh
    exact hcurrent (hw.fresh (by simpa using hfresh))
  have hstarted : 38 ≤ s.decoder.decoderPosition := hw.started hprefill
  have hprompt : promptIds.length - 1 = 38 := rfl
  have hbehind : s.decoder.decoderPosition < s.decoder.adapterGroupsCommitted ∧
      s.decoder.decoderPosition < steppedTo s := by
    unfold steppedTo deliveredTo firstOpen
    rw [if_pos hprefill]
    cases hpending : s.decoder.pending with
    | some p =>
      obtain ⟨-, hlt, hlive⟩ := hw.stash p hpending
      rw [hlive]
      exact ⟨hlt, Nat.lt_succ_self _⟩
    | none =>
      have hend : s.decoder.decoderEos = true := by
        by_contra hlive
        exact hcurrent ⟨hpending, by simpa using hlive⟩
      rw [hend]
      exact ⟨he hend, Nat.lt_succ_self _⟩
  have hdone : decoderDone s = s.decoder.decoderPosition - 38 := by
    unfold decoderDone
    rw [if_pos hprefill, hprompt]
  have hcounted : backlogs.decoder = s.decoder.adapterGroupsCommitted - 38 - decoderDone s := by
    unfold sampleStageBacklogs at hreport
    split_ifs at hreport with hzero
    rw [← Option.some.inj hreport, hprompt]
    dsimp only
    rw [if_pos (by omega)]
  refine absurd (hwork.decoder s.decoder.decoderPosition ?_ ?_) (not_stillRuns_stepsAt hw hbehind.2)
  · omega
  · omega

variable [Zero α]

/-- Between two calls that kept up, a decoder that is current has nothing left to do. -/
lemma sampleStageBacklogs_current (hs : StreamReady eng False s) (hcurrent : Current s)
    {backlogs : StageBacklogs} (hreport : sampleStageBacklogs s = some backlogs) :
    backlogs.adapter = 0 ∧ backlogs.decoder = 0 := by
  obtain ⟨hpending, hlive⟩ := hcurrent
  have hidle : s.events.decoderBackpressured = false := by
    by_contra hbp
    exact (hs.stall (by simpa using hbp)).2.1 hpending
  have hsync : Synced s := (hs.synced hidle).resolve_left id
  have hreach : WithinReach s := hs.reach.resolve_left id
  have hthrottle : s.frontend.enc.emitted / 4 ≤ consumedFloor s + 192 := by
    refine hreach.throttle.resolve_left fun hend => ?_
    exact Bool.false_ne_true (hlive.symm.trans hend)
  have hcommitted : s.decoder.adapterGroupsCommitted = s.frontend.enc.emitted / 4 := by
    rw [hsync.committed, committable]
    simp only [downsampleFactor, aembRingCap]
    omega
  unfold sampleStageBacklogs at hreport
  split_ifs at hreport with hzero
  rw [← Option.some.inj hreport]
  have hprompt : promptIds.length - 1 = 38 := rfl
  simp only [hprompt, decoderDone, downsampleFactor]
  constructor
  · rw [hcommitted, Nat.sub_self]
  · by_cases hprefill : s.decoder.decoderPrefillDone = true
    · have hposition := hsync.position hprefill hlive
      rw [if_pos hprefill, hposition]
      split_ifs <;> omega
    · have hfew : ¬ 38 ≤ s.decoder.adapterGroupsCommitted := fun hle => hprefill (hsync.prefilled.mpr hle)
      rw [if_neg (by omega), Nat.zero_sub]

/-! ## Feeds that keep the decoder current -/

omit [Zero α] in
/-- No pump of the slice loop finds the queue full or meets the end of the stream. -/
def StaysCurrent (eng : Engine α φ ε γ κ) : Stream α φ ε γ κ → List (List α) → Prop
  | _, [] => True
  | s, slice :: rest => ∀ t, absorbSlice eng s slice = some (t, true) →
    (pumpIncremental eng t).2 ≠ .limitExceeded ∧
      (pumpIncremental eng t).1.decoder.decoderEos = false ∧
      ((pumpIncremental eng t).2 = .ok → StaysCurrent eng (pumpIncremental eng t).1 rest)

/-- A feed keeps the decoder current: if it is admitted, so does its slice loop. -/
def KeepsCurrent (eng : Engine α φ ε γ κ) (s : Stream α φ ε γ κ) : Op → Prop
  | .feed buf => s.Live → Resumes eng s → buf.samples.length ≤ maxFeedSamples →
      ∀ t, ensureLeftPad eng (feedStart (resumed eng s) buf.samples.length) = some t →
        StaysCurrent eng t (audioSlices (buf.samples.map eng.sampleOf))
  | _ => True

omit [Zero α] in
/-- Slices whose pumps never find the queue full stall in time. -/
lemma StaysCurrent.stallsInTime {slices : List (List α)} (h : StaysCurrent eng s slices) :
    StallsInTime eng s slices := by
  induction slices generalizing s with
  | nil => trivial
  | cons slice rest ih =>
    intro t habsorb
    obtain ⟨hroom, -, hrest⟩ := h t habsorb
    exact ⟨fun hlimit => absurd hlimit hroom, fun hok => ih (hrest hok)⟩

/-- Such a feed keeps up. -/
lemma KeepsCurrent.keepsUp {op : Op} (h : KeepsCurrent eng s op) : KeepsUp eng s op := by
  cases op with
  | feed buf => exact fun hlive hresumes hlen t hpad => (h hlive hresumes hlen t hpad).stallsInTime
  | poll => trivial
  | finish => trivial
  | cancel => trivial

omit [Zero α] in
/-- Behind a stall the decoder stands still. -/
lemma feedSlices_stalled_decoder (slices : List (List α)) {status : Status}
    (hrun : feedSlices eng s true slices = some (s', status)) : s'.decoder = s.decoder := by
  induction slices generalizing s with
  | nil =>
    obtain ⟨rfl, -⟩ := Prod.mk.inj (Option.some.inj hrun)
    rfl
  | cons slice rest ih =>
    rw [feedSlices] at hrun
    obtain ⟨⟨t, ok⟩, habsorb, hrun⟩ := Option.bind_eq_some_iff.mp hrun
    have hsame : t.decoder = s.decoder := (absorbSlice_frontendChange habsorb).decoder
    simp only [if_true] at hrun
    split_ifs at hrun
    · obtain ⟨rfl, -⟩ := Prod.mk.inj (Option.some.inj hrun)
      exact hsame
    · exact (ih hrun).trans hsame

/-- The slice loop leaves a decoder current exactly when it was, and no pump stalls or ends it. -/
lemma feedSlices_current_iff (slices : List (List α)) {status : Status} (h : Working eng True s)
    (hbp : s.events.decoderBackpressured = false) (hpadded : s.frontend.leftPadInjected = true)
    (hslices : ∀ slice ∈ slices, slice.length ≤ audioDrainSlice)
    (hrun : feedSlices eng s false slices = some (s', status)) (hran : status ≠ .backendError) :
    Current s' ↔ s.decoder.decoderEos = false ∧ StaysCurrent eng s slices := by
  induction slices generalizing s with
  | nil =>
    obtain ⟨rfl, -⟩ := Prod.mk.inj (Option.some.inj hrun)
    exact ⟨fun hcurrent => ⟨hcurrent.2, trivial⟩, fun hlive => ⟨h.stash hbp, hlive.1⟩⟩
  | cons slice rest ih =>
    rw [feedSlices] at hrun
    obtain ⟨⟨t, ok⟩, habsorb, hrun⟩ := Option.bind_eq_some_iff.mp hrun
    have hslice := hslices slice List.mem_cons_self
    have hrest : ∀ x ∈ rest, x.length ≤ audioDrainSlice :=
      fun x hx => hslices x (List.mem_cons_of_mem slice hx)
    cases ok with
    | false =>
      simp only [Bool.not_false, if_true] at hrun
      exact absurd (Prod.mk.inj (Option.some.inj hrun)).2.symm hran
    | true =>
      have hdecoder : t.decoder = s.decoder := (absorbSlice_frontendChange habsorb).decoder
      obtain ⟨ht, htpadded, -, -, -⟩ := h.absorb hpadded hslice (Or.inl trivial) habsorb
      have hsteps : PumpSteps eng t (pumpIncremental eng t).1 := pumpIncremental_steps ht.within
      have hout := pumpIncremental_outcome eng ht.within ht.committed
      obtain ⟨-, hworking, -⟩ := ht.pump
      have hfirst : StaysCurrent eng s (slice :: rest) ↔ (pumpIncremental eng t).2 ≠ .limitExceeded ∧
          (pumpIncremental eng t).1.decoder.decoderEos = false ∧
          ((pumpIncremental eng t).2 = .ok → StaysCurrent eng (pumpIncremental eng t).1 rest) := by
        constructor
        · exact fun hstays => hstays t habsorb
        · intro hstays u hu
          obtain rfl : t = u := (Prod.mk.inj (Option.some.inj (habsorb.symm.trans hu))).1
          exact hstays
      have hforward : (pumpIncremental eng t).1.decoder.decoderEos = false → s.decoder.decoderEos = false := by
        intro hlive
        by_contra hend
        rw [← hdecoder, Bool.not_eq_false] at hend
        exact Bool.false_ne_true (hlive.symm.trans ((PumpSteps.forward hsteps).2 hend))
      rw [hfirst]
      simp only [Bool.not_true, Bool.false_eq_true, if_false] at hrun
      split_ifs at hrun with hlimit hfail
      · -- the stash of the stall is there to the end
        have hstash := (hout.stalled hlimit).2.1
        constructor
        · intro hcurrent
          rw [Current, feedSlices_stalled_decoder rest hrun] at hcurrent
          exact absurd hcurrent.1 hstash
        · exact fun hstays => absurd hlimit hstays.2.1
      · rcases hout.result with hok | hbad | hbad
        · exact absurd hok hfail
        · exact absurd hbad hlimit
        · exact absurd ((congrArg Prod.snd (Option.some.inj hrun)).symm.trans hbad) hran
      · have hok := not_not.mp hfail
        have hp := hworking (by rw [hok]; decide)
        have hppadded : (pumpIncremental eng t).1.frontend.leftPadInjected = true := by
          rw [(PumpSteps.frame hsteps).frontend]
          exact htpadded
        have hpbp : (pumpIncremental eng t).1.events.decoderBackpressured = false := by
          by_contra hstall
          exact (hp.stall (by simpa using hstall)).2.1 (hout.done hok).1
        rw [ih hp hpbp hppadded hrest hrun]
        constructor
        · exact fun hcurrent => ⟨hforward hcurrent.1, hlimit, hcurrent.1, fun _ => hcurrent.2⟩
        · exact fun hstays => ⟨hstays.2.2.1, hstays.2.2.2 hok⟩

/-! ## Sampled feeds -/

omit [Zero α] in
/-- With a slice to pump for, a loop that stays current starts before the end of the stream. -/
lemma StaysCurrent.live {slice : List α} {rest : List (List α)} (h : StaysCurrent eng s (slice :: rest))
    (hw : DecoderWithin s) (habsorb : absorbSlice eng s slice = some (t, true)) :
    s.decoder.decoderEos = false := by
  have hsame : t.decoder = s.decoder := (absorbSlice_frontendChange habsorb).decoder
  have hwithin : DecoderWithin t := hw.of_decoder hsame rfl rfl rfl rfl rfl
  have hsteps : PumpSteps eng t (pumpIncremental eng t).1 := pumpIncremental_steps hwithin
  by_contra hend
  rw [← hsame, Bool.not_eq_false] at hend
  exact Bool.false_ne_true ((h t habsorb).2.1.symm.trans ((PumpSteps.forward hsteps).2 hend))

/-- The audio path of a feed leaves the decoder current exactly when it keeps it current. -/
lemma feedAudio_current_iff {samples : List ℤ} {status : Status} (hs : StreamReady eng True s)
    (hbp : s.events.decoderBackpressured = false) (hne : samples ≠ [])
    (hran : status ≠ .backendError) (haudio : feedAudio eng s samples = some (s', status)) :
    Current s' ↔ ∀ t, ensureLeftPad eng (feedStart s samples.length) = some t →
      StaysCurrent eng t (audioSlices (samples.map eng.sampleOf)) := by
  rw [feedAudio_eq] at haudio
  obtain ⟨t, hpad, haudio⟩ := Option.bind_eq_some_iff.mp haudio
  obtain ⟨⟨u, st⟩, hloop, hend⟩ := Option.map_eq_some_iff.mp haudio
  have hstatus : st = status := (feedEnd_status _ _ (u, st)).symm.trans (congrArg Prod.snd hend)
  have hdecoder : s'.decoder = u.decoder := by
    have hs' : (feedEnd s.events.aggressivePartialCoalescing samples.length (u, st)).1 = s' :=
      congrArg Prod.fst hend
    rw [← hs']
    unfold feedEnd
    dsimp only
    split_ifs <;> rfl
  have hstart : FrontReady eng (feedStart s samples.length) := hs.front.congr rfl rfl
  obtain ⟨hpace, hfront, hpadded⟩ := ensureLeftPad_samePace hstart hpad
  have hpace' : SamePace s t := (feedStart_samePace s samples.length).trans hpace
  have ht : Working eng True t := hpace'.working hs.toWorking hfront
  have hslices : ∀ slice ∈ audioSlices (samples.map eng.sampleOf), slice.length ≤ audioDrainSlice :=
    fun slice hslice => length_of_mem_audioSlices hslice
  have hloop' := feedSlices_current_iff _ ht (hpace'.backpressured.trans hbp) hpadded hslices hloop
    (by rw [hstatus]; exact hran)
  rw [Current, hdecoder]
  refine Iff.trans hloop' ⟨fun hstays v hv => ?_, fun hstays => ?_⟩
  · obtain rfl : t = v := Option.some.inj (hpad.symm.trans hv)
    exact hstays.2
  · have hcurrent := hstays t hpad
    refine ⟨?_, hcurrent⟩
    -- a feed of samples has a first slice
    cases hall : audioSlices (samples.map eng.sampleOf) with
    | nil =>
      have hflat := flatten_audioSlices (samples.map eng.sampleOf)
      rw [hall, List.flatten_nil] at hflat
      exact absurd (List.map_eq_nil_iff.mp hflat.symm) hne
    | cons slice rest =>
      rw [hall] at hcurrent hloop
      rw [feedSlices] at hloop
      obtain ⟨⟨v, ok⟩, habsorb, hrest⟩ := Option.bind_eq_some_iff.mp hloop
      cases ok with
      | true => exact hcurrent.live ht.within habsorb
      | false =>
        simp only [Bool.not_false, if_true] at hrest
        refine absurd ?_ hran
        rw [← hstatus]
        exact (Prod.mk.inj (Option.some.inj hrest)).2.symm

/-- What a feed that accepted samples leaves for the report. -/
structure SampledFeed (eng : Engine α φ ε γ κ) (late : Prop) (s s' : Stream α φ ε γ κ) (op : Op) : Prop where
  ready : StreamReady eng late s'
  received : s'.lifecycle.totalSamplesReceived ≠ 0
  current : Current s' ↔ KeepsCurrent eng s op

/-- A public feed that took samples is one that `SampledFeed` describes. -/
lemma streamFeedPcm16_sampled {late : Prop} {buf : FeedBuffer} {status : PublicStatus} {consumed : ℕ}
    (hr : OpReady eng late s) (htrue : OpReady eng True s) (hkeep : late ∨ KeepsUp eng s (.feed buf))
    (hfeed : streamFeedPcm16 eng s buf = some (s', .feed status consumed)) (hsampled : consumed ≠ 0) :
    SampledFeed eng late s s' (.feed buf) := by
  obtain ⟨⟨t, st⟩, hcommon, hout⟩ := Option.map_eq_some_iff.mp hfeed
  obtain ⟨hs', hresponse⟩ := Prod.mk.inj hout
  obtain ⟨-, hconsumed⟩ := Response.feed.inj hresponse
  dsimp only at hs' hconsumed
  have hpump : PumpFrame s (pumpIncremental eng s).1 := (pumpIncremental_steps hr.within).frame
  have hframe := resumed_frame eng hr.within
  cases feedCommon_call hcommon with
  | closed => exact absurd ((Nat.sub_self _).symm.trans hconsumed) hsampled.symm
  | stalled =>
    rw [hpump.totalReceived, Nat.sub_self] at hconsumed
    exact absurd hconsumed hsampled.symm
  | pumpFailed =>
    rw [hpump.totalReceived, Nat.sub_self] at hconsumed
    exact absurd hconsumed hsampled.symm
  | refused _ _ _ _ _ _ htotal =>
    dsimp only at hconsumed
    rw [htotal, hframe.totalReceived, Nat.sub_self] at hconsumed
    exact absurd hconsumed hsampled.symm
  | admitted hadmitted haudio =>
    obtain ⟨hopen, hresumes, hfits⟩ := hadmitted
    obtain ⟨hready, hopen', hbp⟩ := resumed_ready htrue hopen hresumes
    have hfed := feedCommon_outcome hr hopen hkeep hcommon
    have hran : st ≠ .backendError := by
      intro hfail
      rw [hfed.failed hfail, Nat.sub_self] at hconsumed
      exact hsampled hconsumed.symm
    have hnot : ¬ (st = .backendError ∨ st = .outOfMemory ∨ st = .internalError) := by
      rintro (hfail | hfail | hfail)
      · exact hran hfail
      · exact hfed.result.1 hfail
      · exact hfed.result.2 hfail
    rw [if_neg hnot] at hs'
    rw [← hs']
    have hsamples : buf.samples ≠ [] ∧ buf.samples.length ≤ maxFeedSamples := by
      cases buf with
      | null => exact absurd hfits id
      | data samples => exact ⟨hfits.1, hfits.2.1⟩
    refine ⟨(hfed.ready hran).live hfed.live, by omega, ?_⟩
    rw [feedAudio_current_iff (hready.live (live_of_open hopen')) hbp hsamples.1 hran haudio]
    constructor
    · exact fun hstays _ _ _ => hstays
    · exact fun hkeeps => hkeeps (live_of_open hopen) hresumes hsamples.2

/-! ## Runs -/

/-- **The report counts work still to be done as long as the decoder stays current.**  After any run of
calls on a new stream, a feed that accepted samples is reported on.  Where a pump of it stalled on the full
queue, or the decoder has ended, the report counts a position that no later pump steps over.  In a run in
which no feed up to it did either, adapter and decoder have nothing left to do, and so they are reported. -/
theorem reported_backlog_is_work (eng : Engine α φ ε γ κ) (maxEvents : ℕ) (device : Device ε γ κ)
    (ops : List Op) (s : Stream α φ ε γ κ) (os : List Response)
    (hrun : runSteps (streamStep eng) (Stream.create maxEvents device) ops = some (s, os))
    (buf : FeedBuffer) (s' : Stream α φ ε γ κ) (status : PublicStatus) (consumed : ℕ)
    (hfeed : streamFeedPcm16 eng s buf = some (s', .feed status consumed)) (haccepted : consumed ≠ 0) :
    ∃ backlogs, sampleStageBacklogs s' = some backlogs ∧
      (BacklogIsWork eng s' backlogs buf.count status → KeepsCurrent eng s (.feed buf)) ∧
      (RunMeets (streamStep eng) (KeepsCurrent eng) (Stream.create maxEvents device) ops →
        KeepsCurrent eng s (.feed buf) → backlogs.adapter = 0 ∧ backlogs.decoder = 0 ∧
          BacklogIsWork eng s' backlogs buf.count status) := by
  have hnew := opReady_create eng True maxEvents device
  obtain ⟨hmoves, hr⟩ := runSteps_moves hnew (Or.inl trivial) hrun
  have hsampled := streamFeedPcm16_sampled hr hr (Or.inl trivial) hfeed haccepted
  have hreport : ∃ backlogs, sampleStageBacklogs s' = some backlogs := by
    unfold sampleStageBacklogs
    rw [if_neg hsampled.received]
    exact ⟨_, rfl⟩
  obtain ⟨backlogs, hbacklogs⟩ := hreport
  have hstep : streamStep eng s (.feed buf) = some (s', .feed status consumed) := hfeed
  have hmoves' := (streamStep_moves hr (Or.inl trivial) hstep).1
  have hends : EndsBehind s' := by
    refine Moves.endsBehind (hmoves.trans hmoves') hnew.within fun hend => ?_
    exact absurd hend Bool.false_ne_true
  refine ⟨backlogs, hbacklogs, fun hwork => ?_, fun hmeets hkeeps => ?_⟩
  · by_contra hnot
    exact not_backlogIsWork hsampled.ready.within hends hbacklogs (mt hsampled.current.mp hnot) hwork
  · have hkeep : RunMeets (streamStep eng) (KeepsUp eng) (Stream.create maxEvents device) ops :=
      RunMeets.mono (fun _ _ h => h.keepsUp) hmeets
    obtain ⟨-, hrfalse⟩ := runSteps_moves (opReady_create eng False maxEvents device) (Or.inr hkeep) hrun
    have hpaced := streamFeedPcm16_sampled hrfalse hr (Or.inr hkeeps.keepsUp) hfeed haccepted
    obtain ⟨hadapter, hdecoder⟩ :=
      sampleStageBacklogs_current hpaced.ready (hpaced.current.mpr hkeeps) hbacklogs
    refine ⟨hadapter, hdecoder, fun group hle hlt => ?_, fun position hle hlt => ?_, fun _ _ => ⟨hadapter, hdecoder⟩⟩
    · exact absurd hlt (by omega)
    · exact absurd hlt (by omega)

omit [Zero α] in
/-- What a report counts for the adapter and for a decoder that was prefilled. -/
lemma sampleStageBacklogs_prefilled {backlogs : StageBacklogs}
    (hprefill : s.decoder.decoderPrefillDone = true) (hcommitted : 38 < s.decoder.adapterGroupsCommitted)
    (hreport : sampleStageBacklogs s = some backlogs) :
    backlogs.adapter = s.frontend.enc.emitted / 4 - s.decoder.adapterGroupsCommitted ∧
      backlogs.decoder = s.decoder.adapterGroupsCommitted - 38 - (s.decoder.decoderPosition - 38) := by
  have hprompt : promptIds.length - 1 = 38 := rfl
  unfold sampleStageBacklogs at hreport
  split_ifs at hreport
  rw [← Option.some.inj hreport]
  simp only [decoderDone, hprompt, if_pos hprefill, if_pos hcommitted, downsampleFactor, and_self]

/-- A second of audio into a queue with room for its events. -/
theorem reported_backlog_is_work_second : ∃ s' backlogs,
    streamFeedPcm16 (plainEngine defaultSchedule) (Stream.create 64 plainDevice)
        (.data (List.replicate 16000 0)) = some (s', .feed .ok 16000) ∧
      s'.decoder.decoderPosition = 44 ∧ sampleStageBacklogs s' = some backlogs ∧
      backlogs.adapter = 0 ∧ backlogs.decoder = 0 := by
  obtain ⟨s', os, hrun, hanswers, halike⟩ :=
    exists_pacedRun (plainEngine_runs defaultSchedule) 64 [feedZeros 16000] (by simp [TotalFits])
  simp only [List.map_cons, List.map_nil, feedZeros_paced] at hanswers halike
  have hmodel : let m := pacedRun (plainEngine defaultSchedule) 64 plainDevice [.feed false 16000]
      m.2 = [.feed .ok 16000] ∧ m.1.decoder.pending = none ∧ m.1.decoder.decoderEos = false ∧
        m.1.decoder.decoderPosition = 44 := by
    decide +kernel
  simp only [hanswers, halike.decoder] at hmodel
  obtain ⟨rfl, hpending, hlive, hposition⟩ := hmodel
  obtain ⟨r, hstep, hr⟩ := runSteps_singleton.mp hrun
  obtain rfl : Response.feed .ok 16000 = r := List.head_eq_of_cons_eq hr
  unfold feedZeros at hstep
  generalize List.replicate 16000 (0 : ℤ) = zeros at hstep ⊢
  have hready := opReady_create (plainEngine defaultSchedule) True 64 plainDevice
  have haccepted : 16000 ≠ 0 := by decide
  have hsampled := streamFeedPcm16_sampled hready hready (Or.inl trivial) hstep haccepted
  have hkeeps := hsampled.current.mp ⟨hpending, hlive⟩
  obtain ⟨backlogs, hreport, -, hwork⟩ := reported_backlog_is_work (plainEngine defaultSchedule) 64
    plainDevice [] _ [] rfl _ s' .ok 16000 hstep haccepted
  obtain ⟨hadapter, hdecoder, -⟩ := hwork trivial hkeeps
  exact ⟨s', backlogs, hstep, hposition, hreport, hadapter, hdecoder⟩

/-- A decoder that ended in the first second of audio: after the second one, a feed that returned OK, 18
groups are reported for it, and no later pump makes a step at the first of them. -/
theorem reported_backlog_behind_the_end : ∃ s s' os backlogs,
    runSteps (streamStep endingEngine) (Stream.create 64 plainDevice) [feedZeros 16000] = some (s, os) ∧
      streamFeedPcm16 endingEngine s (.data (List.replicate 16000 0)) = some (s', .feed .ok 16000) ∧
      sampleStageBacklogs s' = some backlogs ∧ backlogs.adapter = 0 ∧ backlogs.decoder = 18 ∧
      ¬ StillRuns endingEngine s' (TraceEntry.stepsAt 38) ∧
      ¬ BacklogIsWork endingEngine s' backlogs 16000 .ok := by
  obtain ⟨s', os, hrun, hanswers, halike⟩ :=
    exists_pacedRun endingEngine_runs 64 [feedZeros 16000, feedZeros 16000] (by simp [TotalFits])
  simp only [List.map_cons, List.map_nil, feedZeros_paced] at hanswers halike
  have hmodel : let m := pacedRun endingEngine 64 plainDevice [.feed false 16000, .feed false 16000]
      m.2 = [.feed .ok 16000, .feed .ok 16000] ∧ m.1.decoder.decoderEos = true ∧
        m.1.decoder.decoderPrefillDone = true ∧ m.1.decoder.decoderPosition = 38 ∧
        m.1.decoder.adapterGroupsCommitted = 56 ∧ m.1.frontend.enc.emitted = 224 ∧
        m.1.lifecycle.totalSamplesReceived = 32000 := by
    decide +kernel
  simp only [hanswers, halike.decoder, halike.emitted, halike.lifecycle] at hmodel
  obtain ⟨rfl, hend, hprefill, hposition, hcommitted, hemitted, htotal⟩ := hmodel
  obtain ⟨s, r, os', hfirst, hrest, hr⟩ := runSteps_cons_eq_some.mp hrun
  obtain ⟨r', hstep, rfl⟩ := runSteps_singleton.mp hrest
  obtain ⟨rfl, hr'⟩ := List.cons.inj hr
  obtain rfl : Response.feed .ok 16000 = r' := List.head_eq_of_cons_eq hr'
  have hready := opReady_create endingEngine True 64 plainDevice
  have hw : DecoderWithin s' := (runSteps_moves hready (Or.inl trivial) hrun).2.within
  have hreport : ∃ backlogs, sampleStageBacklogs s' = some backlogs := by
    unfold sampleStageBacklogs
    rw [if_neg (by rw [htotal]; decide)]
    exact ⟨_, rfl⟩
  obtain ⟨backlogs, hreport⟩ := hreport
  obtain ⟨hadapter, hdecoder⟩ := sampleStageBacklogs_prefilled hprefill (by rw [hcommitted]; decide) hreport
  rw [hcommitted, hemitted] at hadapter
  rw [hcommitted, hposition] at hdecoder
  have hbehind : 38 < steppedTo s' := by
    unfold steppedTo deliveredTo firstOpen
    rw [if_pos hprefill, hposition, hend]
    exact Nat.lt_add_right _ (Nat.lt_succ_self 38)
  refine ⟨s, s', _, backlogs, runSteps_singleton.mpr ⟨_, hfirst, rfl⟩, hstep, hreport, hadapter, hdecoder,
    not_stillRuns_stepsAt hw hbehind, fun hwork => ?_⟩
  have hzero := (hwork.small le_rfl rfl).2
  omega

end Voxtral
