import Voxtral.Stream.Acceptance
import Voxtral.Stream.FeedRoom
import Voxtral.Stream.TerminalEvents

/-!
# Draining a stalled stream

A stream that stalled on a full queue resumes when its caller polls the queue empty and makes a feed of no
samples.  The pump of that feed delivers the stashed token first, so each such round appends a TOKEN event
and moves the decoder; the groups the encoder has completed bound the rounds.
-/

namespace Voxtral

open Relation

variable {α φ ε γ κ : Type*} {eng : Engine α φ ε γ κ} {b s s' : Stream α φ ε γ κ}

/-! ## What a pump delivers -/

/-- From `b` to `s` the TOKEN events `new` were delivered; before the first of them the queue and the
stashed token stay. -/
structure DeliveredOn (b s : Stream α φ ε γ κ) (new : List StreamEvent) : Prop where
  tokens : s.events.queue.filter StreamEvent.isToken = b.events.queue.filter StreamEvent.isToken ++ new
  cursor : deliveredTo s = deliveredTo b + new.length
  idle : new = [] → s.events.queue = b.events.queue ∧ s.decoder.pending = b.decoder.pending

/-- Nothing delivered yet. -/
lemma DeliveredOn.refl (s : Stream α φ ε γ κ) : DeliveredOn s s [] :=
  ⟨(List.append_nil _).symm, rfl, fun _ => ⟨rfl, rfl⟩⟩

/-- Every atomic change of a pump that starts with a stashed token delivers or leaves it. -/
lemma PumpStep.deliveredOn (hstep : PumpStep eng s s') (hw : DecoderWithin s)
    (hstash : b.decoder.pending ≠ none) {new : List StreamEvent} (h : DeliveredOn b s new) :
    ∃ new', DeliveredOn b s' new' := by
  cases hstep with
  | bookkeep => exact ⟨new, h.tokens, h.cursor, h.idle⟩
  | commitGroup => exact ⟨new, h.tokens, h.cursor, h.idle⟩
  | advanceAdapter => exact ⟨new, h.tokens, h.cursor, h.idle⟩
  | prefill hfresh =>
    refine ⟨new, h.tokens, ?_, h.idle⟩
    rw [← h.cursor]
    unfold deliveredTo firstOpen
    rw [hfresh]
    rfl
  | decoderStep hprefill hpending hmay =>
    -- the decoder steps on only when the token stashed at the start was delivered
    refine ⟨new, h.tokens, h.cursor, fun hnew => ?_⟩
    exact absurd ((h.idle hnew).2.symm.trans hpending) hstash
  | deliver p hprefill hpending hroom =>
    obtain ⟨htokens, hmoved⟩ := deliverPending_token eng s p hprefill (hw.stash p hpending).2.2
    refine ⟨new ++ [tokenEvent eng p (s.decoder.tokenSequence + 1)], ?_, ?_, ?_⟩
    · rw [htokens, h.tokens, List.append_assoc]
    · rw [hmoved, h.cursor, List.length_append]
      rfl
    · intro hnil
      simp at hnil

/-- Whatever a pump does on a stream with a stashed token is described by its deliveries. -/
lemma PumpSteps.deliveredOn (hsteps : PumpSteps eng b s) (hw : DecoderWithin b)
    (hstash : b.decoder.pending ≠ none) : ∃ new, DeliveredOn b s new := by
  induction hsteps with
  | refl => exact ⟨[], .refl b⟩
  | tail hsteps hstep ih =>
    obtain ⟨new, h⟩ := ih
    exact hstep.deliveredOn (PumpSteps.within hsteps hw) hstash h

/-- A pump that starts with a stashed token and an empty queue delivers. -/
lemma pumpIncremental_delivers (hw : DecoderWithin s)
    (hle : s.decoder.adapterGroupsCommitted ≤ committable s) (hruns : ∀ n, eng.submitFails n = false)
    (hstash : s.decoder.pending ≠ none) (hempty : s.events.queue = []) (hbound : 0 < s.events.bound) :
    deliveredTo s < deliveredTo (pumpIncremental eng s).1 ∧
      (pumpIncremental eng s).1.events.queue.filter StreamEvent.isToken ≠ [] := by
  have hsteps : PumpSteps eng s (pumpIncremental eng s).1 := pumpIncremental_steps hw
  have hout := pumpIncremental_outcome eng hw hle
  obtain ⟨new, hnew⟩ := PumpSteps.deliveredOn hsteps hw hstash
  have hsome : new ≠ [] := by
    intro hnil
    obtain ⟨hqueue, hpending⟩ := hnew.idle hnil
    rcases hout.result with hok | hlimit | hfail
    · exact hstash (hpending.symm.trans (hout.done hok).1)
    · obtain ⟨-, -, -, -, hfull⟩ := hout.stalled hlimit
      rw [(PumpSteps.frame hsteps).bound, hqueue, hempty] at hfull
      exact absurd (hbound.trans_le hfull) (lt_irrefl 0)
    · exact hout.runs hruns hfail
  constructor
  · rw [hnew.cursor]
    exact Nat.lt_add_of_pos_right (List.length_pos_of_ne_nil hsome)
  · rw [hnew.tokens, hempty]
    exact hsome

/-! ## The status of a stalled pump -/

/-- A token that is not delivered found the queue full. -/
lemma commitPending_lastStatus (hrefused : (commitPending eng s).2 ≠ true) :
    (commitPending eng s).1.lifecycle.lastStatus = .limitExceeded := by
  cases hpending : s.decoder.pending with
  | none =>
    rw [commitPending_of_none eng hpending] at hrefused
    exact absurd rfl hrefused
  | some p =>
    rw [commitPending_of_some eng hpending] at hrefused ⊢
    split_ifs at hrefused ⊢
    · exact absurd rfl hrefused
    · rfl

/-- A loop that stalls leaves the stall in the status of the stream. -/
lemma pumpStepLoop_lastStatus (fuel : ℕ) (hlimit : (pumpStepLoop eng fuel s).2 = .limitExceeded) :
    (pumpStepLoop eng fuel s).1.lifecycle.lastStatus = .limitExceeded := by
  induction fuel generalizing s with
  | zero => exact absurd hlimit nofun
  | succ fuel ih =>
    rw [pumpStepLoop_succ] at hlimit ⊢
    split_ifs at hlimit ⊢ with hmay hran
    · dsimp only at hlimit ⊢
      split_ifs at hlimit ⊢ with hok
      · exact ih hlimit
      · exact commitPending_lastStatus hok

/-- A pump that stalls reports the full queue. -/
lemma pumpIncremental_lastStatus (hlimit : (pumpIncremental eng s).2 = .limitExceeded) :
    (pumpIncremental eng s).1.lifecycle.lastStatus = .limitExceeded := by
  have hadapter : (pumpAdapter eng s).2 ≠ .limitExceeded := by
    unfold pumpAdapter
    dsimp only
    split_ifs <;> exact nofun
  have hprefill : (pumpPrefill eng (pumpAdapter eng s).1).2 ≠ .limitExceeded := by
    unfold pumpPrefill
    dsimp only
    split_ifs <;> exact nofun
  unfold pumpIncremental at hlimit ⊢
  dsimp only at hlimit ⊢
  split_ifs at hlimit ⊢
  · exact absurd hlimit hadapter
  · exact absurd hlimit hprefill
  · unfold pumpDecoder at hlimit ⊢
    dsimp only at hlimit ⊢
    split_ifs at hlimit ⊢ with hfresh hdelivered
    · exact commitPending_lastStatus (by simpa using hdelivered)
    · exact pumpStepLoop_lastStatus _ hlimit

/-- So does a feed whose slice loop stalls. -/
lemma feedSlices_lastStatus [Zero α] (slices : List (List α)) {stalled : Bool} (h : Working eng True s)
    (hpadded : s.frontend.leftPadInjected = true)
    (hslices : ∀ slice ∈ slices, slice.length ≤ audioDrainSlice)
    (hstalled : stalled = true → s.lifecycle.lastStatus = .limitExceeded)
    (hrun : feedSlices eng s stalled slices = some (s', .limitExceeded)) :
    s'.lifecycle.lastStatus = .limitExceeded := by
  induction slices generalizing s stalled with
  | nil =>
    obtain ⟨rfl, hstatus⟩ := Prod.mk.inj (Option.some.inj hrun)
    cases stalled with
    | true => exact hstalled rfl
    | false => exact absurd hstatus (by decide)
  | cons slice rest ih =>
    rw [feedSlices] at hrun
    obtain ⟨⟨t, ok⟩, habsorb, hrun⟩ := Option.bind_eq_some_iff.mp hrun
    have hrest : ∀ x ∈ rest, x.length ≤ audioDrainSlice :=
      fun x hx => hslices x (List.mem_cons_of_mem slice hx)
    cases ok with
    | false =>
      simp only [Bool.not_false, if_true] at hrun
      exact absurd (Prod.mk.inj (Option.some.inj hrun)).2 (by decide)
    | true =>
      have hslice := hslices slice List.mem_cons_self
      have hlifecycle := (absorbSlice_outcome h.front hpadded hslice habsorb).lifecycle rfl
      obtain ⟨ht, htpadded, -, -, -⟩ := h.absorb hpadded hslice (Or.inl trivial) habsorb
      simp only [Bool.not_true, Bool.false_eq_true, if_false] at hrun
      cases stalled with
      | true =>
        refine ih ht htpadded hrest (fun _ => ?_) hrun
        rw [hlifecycle]
        exact hstalled rfl
      | false =>
        have hsteps : PumpSteps eng t (pumpIncremental eng t).1 := pumpIncremental_steps ht.within
        obtain ⟨-, hworking, -⟩ := ht.pump
        have hpadded' : (pumpIncremental eng t).1.frontend.leftPadInjected = true := by
          rw [(PumpSteps.frame hsteps).frontend]
          exact htpadded
        simp only [Bool.false_eq_true, if_false] at hrun
        split_ifs at hrun with hlimit hfail
        · exact ih (hworking (by rw [hlimit]; decide)) hpadded' hrest
            (fun _ => pumpIncremental_lastStatus hlimit) hrun
        · exact absurd ((congrArg Prod.snd (Option.some.inj hrun))) hlimit
        · exact ih (hworking (by rw [not_not.mp hfail]; decide)) hpadded' hrest
            (fun hfalse => absurd hfalse (by decide)) hrun

/-! ## Open streams between two calls -/

/-- An open stream between two calls, with events of an open stream in its queue. -/
structure BetweenCalls [Zero α] (eng : Engine α φ ε γ κ) (s : Stream α φ ε γ κ) : Prop where
  ready : OpReady eng True s
  isOpen : s.Open
  queue : ∀ e ∈ s.events.queue, e.IsMidStream
  capacity : 0 < s.events.maxEvents

variable [Zero α]

/-- A stream between calls is live. -/
lemma BetweenCalls.live (h : BetweenCalls eng s) : s.Live := live_of_open h.isOpen

/-- It is ready for the next call. -/
lemma BetweenCalls.streamReady (h : BetweenCalls eng s) : StreamReady eng True s := h.ready.live h.live

variable (eng) in
/-- A new stream is between calls. -/
lemma betweenCalls_create {maxEvents : ℕ} (hcapacity : 0 < maxEvents) (device : Device ε γ κ) :
    BetweenCalls eng (Stream.create maxEvents device : Stream α φ ε γ κ) where
  ready := opReady_create eng True maxEvents device
  isOpen := Or.inl rfl
  queue := fun _ he => absurd he List.not_mem_nil
  capacity := hcapacity

omit [Zero α] in
/-- The capacity of the queue is fixed. -/
lemma Moves.maxEvents {late : Prop} (hmoves : Moves eng late s s') (hw : DecoderWithin s) :
    s'.events.maxEvents = s.events.maxEvents := by
  refine Moves.invariant (I := fun u => u.events.maxEvents = s.events.maxEvents)
    (fun u v hstep _ hu => hstep.maxEvents.trans hu) (fun u hu => ?_) hw rfl hmoves
  unfold streamPollEvent
  split <;> exact hu

/-- No call changes the capacity of the queue. -/
lemma BetweenCalls.maxEvents (h : BetweenCalls eng s) {op : Op} {r : Response}
    (hstep : streamStep eng s op = some (s', r)) : s'.events.maxEvents = s.events.maxEvents :=
  (streamStep_moves h.ready (Or.inl trivial) hstep).1.maxEvents h.ready.within

/-- Every open stream that calls and resets lead to is one between two calls. -/
lemma betweenCalls_run {clearKv : κ → κ} {maxEvents : ℕ} (hcapacity : 0 < maxEvents)
    {device : Device ε γ κ} {calls : List Call} {os : List CallResponse}
    (hrun : runSteps (callStep eng clearKv) (Stream.create maxEvents device) calls = some (s, os))
    (hopen : s.Open) : BetweenCalls eng s := by
  obtain ⟨device', hsince⟩ := exists_sinceReset hrun
  have hnew := opReady_create eng True maxEvents device'
  obtain ⟨hmoves, hready⟩ := runSteps_moves hnew (Or.inl trivial) hsince
  have hqueue : QueueOpen s := stream_invariant True (fun _ _ hstep _ h => hstep.queueOpen h)
    (fun _ h => h.poll) (fun _ _ he => absurd he List.not_mem_nil) (Or.inl trivial) hsince
  have hcap : s.events.maxEvents = maxEvents := hmoves.maxEvents hnew.within
  exact ⟨hready, hopen, hqueue (live_of_open hopen), by rw [hcap]; exact hcapacity⟩

/-- A call that leaves the stream open leaves it between two calls. -/
lemma BetweenCalls.step (h : BetweenCalls eng s) {op : Op} {r : Response}
    (hstep : streamStep eng s op = some (s', r)) (hopen : s'.Open) : BetweenCalls eng s' := by
  obtain ⟨hmoves, hready⟩ := streamStep_moves h.ready (Or.inl trivial) hstep
  have hqueue : QueueOpen s' := Moves.invariant (fun _ _ hstep _ h => hstep.queueOpen h)
    (fun _ h => h.poll) h.ready.within (fun _ => h.queue) hmoves
  have hcap : s'.events.maxEvents = s.events.maxEvents := hmoves.maxEvents h.ready.within
  exact ⟨hready, hopen, hqueue (live_of_open hopen), by rw [hcap]; exact h.capacity⟩

/-- The groups of the encoder lie within the audio received. -/
lemma BetweenCalls.groups_le (h : BetweenCalls eng s) :
    s.frontend.enc.emitted / 4 ≤ 32 + s.frontend.realSamples.length := by
  have hs := h.streamReady
  have hle := encEmitted_le eng.schedule.logical
    (encFramesRealizable (stableFrameCount (streamLeftPad + s.frontend.realSamples.length)))
  change emittedAt eng.schedule.logical _ ≤ _ at hle
  rw [← hs.emitted, encFramesRealizable_eq, show streamLeftPad = 40960 from rfl] at hle
  unfold stableFrameCount at hle
  split_ifs at hle <;> omega

/-- A stalled decoder has a committed group to work on. -/
lemma BetweenCalls.stalled (h : BetweenCalls eng s) (hbp : s.events.decoderBackpressured = true) :
    s.decoder.pending ≠ none ∧ deliveredTo s < 32 + s.frontend.realSamples.length := by
  have hs := h.streamReady
  obtain ⟨hprefill, hpending, hlive⟩ := hs.stall hbp
  refine ⟨hpending, ?_⟩
  obtain ⟨p, hp⟩ := Option.ne_none_iff_exists'.mp hpending
  have hbehind := (hs.within.stash p hp).2.1
  have hcommitted := hs.committed
  have hgroups := h.groups_le
  unfold deliveredTo firstOpen
  rw [if_pos hprefill, hlive, if_neg Bool.false_ne_true]
  unfold committable at hcommitted
  simp only [downsampleFactor] at hcommitted
  omega

/-! ## Calls on an open stream -/

/-- The audio path of a feed stalls with its decoder, or not at all. -/
lemma feedAudio_backpressure {samples : List ℤ} {status : Status} (hs : StreamReady eng True s)
    (hlive : s.Live) (hbp : s.events.decoderBackpressured = false)
    (haudio : feedAudio eng s samples = some (s', status)) :
    (status = .ok → s'.events.decoderBackpressured = false) ∧
      (status = .limitExceeded → s'.events.decoderBackpressured = true ∧
        s'.lifecycle.lastStatus = .limitExceeded) := by
  rw [feedAudio_eq] at haudio
  obtain ⟨t, hpad, haudio⟩ := Option.bind_eq_some_iff.mp haudio
  obtain ⟨⟨u, st⟩, hloop, hend⟩ := Option.map_eq_some_iff.mp haudio
  have hstart : FrontReady eng (feedStart s samples.length) := hs.front.congr rfl rfl
  obtain ⟨hpace, hfront, hpadded⟩ := ensureLeftPad_samePace hstart hpad
  have hpace' : SamePace s t := (feedStart_samePace s samples.length).trans hpace
  have ht : Working eng True t := hpace'.working hs.toWorking hfront
  have htlive : t.Live := by
    unfold Stream.Live
    rw [(ensureLeftPad_frontendChange hpad).state]
    exact hlive
  have hslices : ∀ slice ∈ audioSlices (samples.map eng.sampleOf), slice.length ≤ audioDrainSlice :=
    fun slice hslice => length_of_mem_audioSlices hslice
  have hout := feedSlices_outcome _ ht htlive hpadded (hpace'.backpressured.trans hbp) (Or.inl trivial)
    hslices (Or.inl trivial) hloop
  have hstatus : st = status := (feedEnd_status _ _ (u, st)).symm.trans (congrArg Prod.snd hend)
  have hs' : (feedEnd s.events.aggressivePartialCoalescing samples.length (u, st)).1 = s' :=
    congrArg Prod.fst hend
  rw [← hs', ← hstatus]
  constructor
  · rintro rfl
    exact (hout.synced rfl).1
  · rintro rfl
    have hlast : u.lifecycle.lastStatus = .limitExceeded :=
      feedSlices_lastStatus _ ht hpadded hslices (fun hfalse => absurd hfalse Bool.false_ne_true) hloop
    exact ⟨hout.stalled rfl, hlast⟩

/-- What a call on an open stream is answered with: it went through, or the queue is full and the decoder
stalled. -/
def Answered (s' : Stream α φ ε γ κ) (status : PublicStatus) : Prop :=
  (status = .ok ∧ s'.events.decoderBackpressured = false) ∨
    (status = .queueFull ∧ s'.events.decoderBackpressured = true)

/-- A feed of samples that finds no backpressure takes them all. -/
lemma BetweenCalls.feed (h : BetweenCalls eng s) (hruns : ∀ n, eng.submitFails n = false)
    (hbp : s.events.decoderBackpressured = false) {samples : List ℤ} (hne : samples ≠ [])
    (hlen : samples.length ≤ maxFeedSamples) {status : PublicStatus} {consumed : ℕ}
    (hfeed : streamFeedPcm16 eng s (.data samples) = some (s', .feed status consumed)) :
    BetweenCalls eng s' ∧ Answered s' status ∧ consumed = samples.length ∧
      s'.frontend.realSamples = s.frontend.realSamples ++ samples.map eng.sampleOf := by
  have hstep : streamStep eng s (.feed (.data samples)) = some (s', .feed status consumed) := hfeed
  obtain ⟨⟨t, st⟩, hcommon, hout⟩ := Option.map_eq_some_iff.mp hfeed
  obtain ⟨hs', hresponse⟩ := Prod.mk.inj hout
  obtain ⟨hstatus, hconsumed⟩ := Response.feed.inj hresponse
  have hs := h.streamReady
  have hresumed : resumed eng s = s := by
    unfold resumed
    rw [if_neg (by simp [hbp])]
  have hfits : (FeedBuffer.data samples).Fits (resumed eng s) := by
    have hbound := hs.front.bound
    have hreceived : s.lifecycle.totalSamplesReceived = s.frontend.realSamples.length := hs.total
    have hle : s.frontend.realSamples.length ≤ (paddedSignal s.frontend).length := by
      rw [paddedSignal, List.length_append]
      exact Nat.le_add_left _ _
    rw [hresumed]
    simp only [FeedBuffer.Fits, hs.params, maxFeedSamples, uint64Max, int64Max] at hlen ⊢
    refine ⟨hne, hlen, ?_, ?_, ?_⟩ <;> omega
  have haudio : feedAudio eng s samples = some (t, st) := by
    cases feedCommon_call hcommon with
    | closed hclosed => exact absurd h.isOpen hclosed
    | stalled _ hstall => exact absurd (hbp.symm.trans hstall) Bool.false_ne_true
    | pumpFailed _ hstall => exact absurd (hbp.symm.trans hstall) Bool.false_ne_true
    | refused _ _ hrefused => exact absurd hfits hrefused
    | admitted _ haudio =>
      rw [hresumed] at haudio
      exact haudio
  have hout := feedAudio_outcome h.ready h.isOpen hbp hne (Or.inl trivial) haudio
  have hran : st ≠ .backendError := fun hfail => absurd ((hruns _).symm.trans (hout.blame hfail)) (by decide)
  have hnot : ¬ (st = .backendError ∨ st = .outOfMemory ∨ st = .internalError) := by
    rintro (hfail | hfail | hfail)
    · exact hran hfail
    · exact hout.result.1 hfail
    · exact hout.result.2 hfail
  dsimp only at hs' hstatus hconsumed
  rw [if_neg hnot] at hs' hstatus
  obtain ⟨hok, hfull⟩ := feedAudio_backpressure hs h.live hbp haudio
  have hcount := (feedAudio_melFed h.ready.within haudio).2 hran
  have htaken := (hout.accepted hran).resolve_right fun hnone => by
    have hsame := hnone.2.2
    have hpos := List.length_pos_of_ne_nil hne
    omega
  obtain ⟨-, hkind, -, hsamples, -⟩ := htaken
  have hopen : s'.Open := by
    rw [← hs']
    exact (hout.ready hran).isOpen hout.live
  refine ⟨h.step hstep hopen, ?_, by omega, ?_⟩
  · rw [← hs', ← hstatus]
    rcases hkind with rfl | rfl
    · exact Or.inl ⟨rfl, hok rfl⟩
    · obtain ⟨hstalled, hlast⟩ := hfull rfl
      refine Or.inr ⟨?_, hstalled⟩
      unfold mapFeedStatus
      rw [if_neg (by decide), if_pos ⟨hlast, hstalled⟩]
  · rw [← hs', hsamples]

/-- A feed of no samples resumes a stalled stream whose queue was polled empty: it delivers a token, and
stalls again or has worked off everything. -/
lemma BetweenCalls.resume (h : BetweenCalls eng s) (hruns : ∀ n, eng.submitFails n = false)
    (hbp : s.events.decoderBackpressured = true) (hempty : s.events.queue = []) :
    ∃ s' status, streamFeedPcm16 eng s (.null 0) = some (s', .feed status 0) ∧ BetweenCalls eng s' ∧
      Answered s' status ∧ s'.frontend = s.frontend ∧ deliveredTo s < deliveredTo s' ∧
      s'.events.queue.filter StreamEvent.isToken ≠ [] := by
  have hs := h.streamReady
  have hstash := (h.stalled hbp).1
  have hsteps : PumpSteps eng s (pumpIncremental eng s).1 := pumpIncremental_steps hs.within
  have hframe : PumpFrame s (pumpIncremental eng s).1 := PumpSteps.frame hsteps
  have hout := pumpIncremental_outcome eng hs.within hs.committed
  have hbound : 0 < s.events.bound := Nat.add_pos_left h.capacity _
  obtain ⟨hmoved, htokens⟩ := pumpIncremental_delivers hs.within hs.committed hruns hstash hempty hbound
  have hprefill : (pumpIncremental eng s).1.decoder.decoderPrefillDone = true :=
    PumpSteps.prefillDone hsteps (hs.stall hbp).1
  have hopen : (pumpIncremental eng s).1.Open := by
    unfold Stream.Open
    rw [hframe.state]
    exact h.isOpen
  have hnotClosed : ¬ (s.lifecycle.state ≠ .created ∧ s.lifecycle.state ≠ .running) :=
    fun hne => h.isOpen.elim hne.1 hne.2
  have hcommon : feedCommon eng s (.null 0) =
      let p := pumpIncremental eng s
      if p.2 = .limitExceeded then
        some ({ p.1 with lifecycle := { p.1.lifecycle with
          feedCalls := p.1.lifecycle.feedCalls + 1 } }, .limitExceeded)
      else if p.2 ≠ .ok then some p
      else feedAdmit eng p.1 (.null 0) := by
    unfold feedCommon
    rw [if_neg hnotClosed, if_pos hbp]
  -- what the call leaves differs from the pump's stream in its counters and its error state
  have hleaves : ∀ lifecycle : Lifecycle, ∀ st status,
      feedCommon eng s (.null 0) = some ({ (pumpIncremental eng s).1 with lifecycle := lifecycle }, st) →
      lifecycle.state = (pumpIncremental eng s).1.lifecycle.state →
      lifecycle.totalSamplesReceived = (pumpIncremental eng s).1.lifecycle.totalSamplesReceived →
      (st = .ok ∨ st = .limitExceeded) →
      mapFeedStatus { (pumpIncremental eng s).1 with lifecycle := lifecycle } st = status →
      Answered (pumpIncremental eng s).1 status →
      ∃ s' status, streamFeedPcm16 eng s (.null 0) = some (s', .feed status 0) ∧ BetweenCalls eng s' ∧
        Answered s' status ∧ s'.frontend = s.frontend ∧ deliveredTo s < deliveredTo s' ∧
        s'.events.queue.filter StreamEvent.isToken ≠ [] := by
    intro lifecycle st status hfeed hstate htotal hst hstatus hanswered
    have hcall : streamFeedPcm16 eng s (.null 0) =
        some ({ (pumpIncremental eng s).1 with lifecycle := lifecycle }, .feed status 0) := by
      have hnot : ¬ (st = .backendError ∨ st = .outOfMemory ∨ st = .internalError) := by
        rcases hst with rfl | rfl <;> decide
      unfold streamFeedPcm16
      rw [hfeed]
      dsimp only [Option.map_some]
      rw [if_neg hnot, hstatus, htotal, hframe.totalReceived, Nat.sub_self]
    have hopen' : ({ (pumpIncremental eng s).1 with lifecycle := lifecycle } : Stream α φ ε γ κ).Open := by
      unfold Stream.Open
      dsimp only
      rw [hstate]
      exact hopen
    have hstep : streamStep eng s (.feed (.null 0)) =
        some ({ (pumpIncremental eng s).1 with lifecycle := lifecycle }, .feed status 0) := hcall
    exact ⟨_, status, hcall, h.step hstep hopen', hanswered, hframe.frontend, hmoved, htokens⟩
  rcases hout.result with hok | hlimit | hfail
  · dsimp only at hcommon
    rw [if_neg (by rw [hok]; decide), if_neg (not_not.mpr hok)] at hcommon
    have hfree := ((hout.done hok).2.1 hprefill).2
    exact hleaves _ .ok .ok hcommon rfl rfl (Or.inl rfl) rfl (Or.inl ⟨rfl, hfree⟩)
  · dsimp only at hcommon
    rw [if_pos hlimit] at hcommon
    have hstalled := (hout.stalled hlimit).2.2.2.1
    refine hleaves _ .limitExceeded .queueFull hcommon rfl rfl (Or.inr rfl) ?_ (Or.inr ⟨rfl, hstalled⟩)
    unfold mapFeedStatus
    rw [if_neg (by decide), if_pos ⟨pumpIncremental_lastStatus hlimit, hstalled⟩]
  · exact absurd hfail (hout.runs hruns)

/-- Whatever a finish does to a stream that does not stall, it is not refused for backpressure, and it has
no result unless the padded samples fit the 32-bit range. -/
lemma BetweenCalls.finish (h : BetweenCalls eng s) (hbp : s.events.decoderBackpressured = false)
    {status : PublicStatus} (hfinish : streamStep eng s .finish = some (s', .finish status)) :
    status ≠ .queueFull ∧ s'.frontend.realSamples = s.frontend.realSamples ∧
      PaddedFits s.frontend.realSamples.length ∧
      (status = .ok → s'.events.queue.length ≤ s.events.maxEvents + terminalEventHeadroom + 2) := by
  have hs := h.streamReady
  obtain ⟨⟨t, st⟩, hinternal, hout⟩ := Option.map_eq_some_iff.mp hfinish
  obtain ⟨hs', hresponse⟩ := Prod.mk.inj hout
  dsimp only at hs'
  subst hs'
  have hstatus : mapStatus st = status := Response.finish.inj hresponse
  rw [← hstatus]
  have hresumed : resumed eng s = s := by
    unfold resumed
    rw [if_neg (by simp [hbp])]
  have hpath : FinishPath eng s t st := by
    cases finishInternal_call hinternal with
    | ended hended =>
      rcases hended with hended | hended <;>
        exact absurd h.isOpen (by unfold Stream.Open; rw [hended]; decide)
    | failed hfailed => exact absurd h.isOpen (by unfold Stream.Open; rw [hfailed]; decide)
    | finishing hfinishing => exact absurd h.isOpen (by unfold Stream.Open; rw [hfinishing]; decide)
    | stalled _ hstall => exact absurd (hbp.symm.trans hstall) Bool.false_ne_true
    | pumpFailed _ hstall => exact absurd (hbp.symm.trans hstall) Bool.false_ne_true
    | live _ _ hpath =>
      rw [hresumed] at hpath
      exact hpath
  have hfront : ∀ {u out}, s.lifecycle.totalSamplesReceived ≠ 0 →
      finishFrontend eng (flushStart s) = some (u, out) →
      u.frontend.realSamples = s.frontend.realSamples ∧ PaddedFits s.frontend.realSamples.length := by
    intro u out hzero hflush
    have hready : FrontReady eng (flushStart s) := hs.front.congr rfl rfl
    have hpadded : (flushStart s).frontend.leftPadInjected = true := (hs.received hzero).2
    have htotal : (flushStart s).lifecycle.totalSamplesReceived =
        (flushStart s).frontend.realSamples.length := hs.total
    have hfits := finishFrontend_fits hready hpadded htotal hflush
    exact ⟨(finishFrontend_outcome hready hpadded htotal hflush).samples, hfits⟩
  have hpump : ∀ {u out}, finishFrontend eng (flushStart s) = some (u, out) →
      (pumpIncremental eng (tailStart u)).1.frontend = u.frontend ∧
      (pumpIncremental eng (tailStart u)).1.events.queue.length ≤
        s.events.maxEvents + terminalEventHeadroom := by
    intro u out hflush
    have hchange := (finishFrontend_frontendChange hflush).1
    have hu : DecoderWithin u := hs.within.of_decoder hchange.decoder rfl rfl rfl rfl rfl
    have hwithin : DecoderWithin (tailStart u) := hu.of_decoder rfl rfl rfl rfl rfl rfl
    have hsteps : PumpSteps eng (tailStart u) (pumpIncremental eng (tailStart u)).1 :=
      pumpIncremental_steps hwithin
    have hframe : PumpFrame (tailStart u) (pumpIncremental eng (tailStart u)).1 := PumpSteps.frame hsteps
    have hevents : (tailStart u).events = (flushStart s).events := hchange.events
    have hbound : (tailStart u).events.bound = s.events.maxEvents + terminalEventHeadroom := by
      rw [hevents]
      rfl
    have hqueue : (tailStart u).events.queue.length ≤ (tailStart u).events.bound := by
      rw [hbound, hevents]
      exact hs.queue.trans (Nat.le_add_right _ _)
    refine ⟨hframe.frontend, ?_⟩
    rw [← hbound, ← hframe.bound]
    exact PumpSteps.queue_le hsteps hqueue
  have hthrown : ∀ (u : Stream α φ ε γ κ) what, (finishThrew u what).1.frontend = u.frontend := by
    intro u what
    obtain ⟨_, happ, -⟩ := failStream_appends (setError u .backendError ("inference threw: " ++ what))
      .backendError
    exact happ.frontend
  have hcompleted : ∀ u : Stream α φ ε γ κ,
      (completeStream u).frontend = u.frontend ∧
      (completeStream u).events.queue.length ≤ u.events.queue.length + 2 := by
    intro u
    obtain ⟨es, happ, hes⟩ := completeStream_appends u
    refine ⟨happ.frontend, ?_⟩
    rw [happ.queue, List.length_append]
    exact Nat.add_le_add_left hes.length_le _
  cases hpath with
  | empty hzero =>
    obtain ⟨hfrontend, hlen⟩ := hcompleted (emptyEnd s)
    have hnone : s.frontend.realSamples.length = 0 := hs.total.symm.trans hzero
    refine ⟨by decide, congrArg Frontend.realSamples hfrontend, ?_, fun _ => hlen.trans ?_⟩
    · rw [hnone]
      change 40960 + 0 + finishRightPad 0 < 2 ^ 31
      decide
    · exact Nat.add_le_add_right (hs.queue.trans (Nat.le_add_right _ _)) 2
  | frontendFailed hzero hflush =>
    obtain ⟨hsame, hfits⟩ := hfront hzero hflush
    refine ⟨by decide, ?_, hfits, fun hok => absurd hok (by decide)⟩
    rw [hthrown]
    exact hsame
  | pumpFailed hzero hflush =>
    obtain ⟨hsame, hfits⟩ := hfront hzero hflush
    refine ⟨by decide, ?_, hfits, fun hok => absurd hok (by decide)⟩
    rw [hthrown, (hpump hflush).1]
    exact hsame
  | completed hzero hflush =>
    obtain ⟨hsame, hfits⟩ := hfront hzero hflush
    obtain ⟨hfrontend, hlen⟩ := hcompleted (tailEnd (pumpIncremental eng (tailStart _)).1)
    refine ⟨by decide, ?_, hfits, fun _ => hlen.trans (Nat.add_le_add_right (hpump hflush).2 2)⟩
    rw [← hsame, ← (hpump hflush).1]
    exact congrArg Frontend.realSamples hfrontend

/-! ## The drained stream -/

/-- The stream after its caller polled until there was no event left. -/
def drained (s : Stream α φ ε γ κ) : Stream α φ ε γ κ :=
  { s with events := { s.events with
      queue := []
      polled := s.events.polled ++ s.events.queue
      publicPollSequence := s.events.publicPollSequence + s.events.queue.length } }

omit [Zero α] in
/-- An empty queue is drained already. -/
lemma drained_of_nil (hempty : s.events.queue = []) : drained s = s := by
  unfold drained
  rw [hempty, List.append_nil, List.length_nil, Nat.add_zero, ← hempty]

omit [Zero α] in
/-- A poll leaves a stream that drains to the same. -/
lemma streamPollEvent_drained {e : StreamEvent} {rest : List StreamEvent}
    (hqueue : s.events.queue = e :: rest) :
    (streamPollEvent s).1.events.queue = rest ∧ drained (streamPollEvent s).1 = drained s ∧
      (streamPollEvent s).2 = .poll (some (e, publicEvent e (s.events.publicPollSequence + 1))) := by
  unfold streamPollEvent drained
  rw [hqueue]
  refine ⟨rfl, ?_, rfl⟩
  dsimp only
  rw [List.append_assoc, List.singleton_append, List.length_cons, Nat.add_assoc,
    Nat.add_comm 1 rest.length]

/-- Draining an open stream leaves one between two calls. -/
lemma BetweenCalls.drained (h : BetweenCalls eng s) : BetweenCalls eng (drained s) := by
  generalize hqueue : s.events.queue = queue
  induction queue generalizing s with
  | nil =>
    rw [drained_of_nil hqueue]
    exact h
  | cons e rest ih =>
    obtain ⟨hrest, hsame, -⟩ := streamPollEvent_drained hqueue
    have hstep : streamStep eng s .poll = some (streamPollEvent s) := rfl
    have hopen : (streamPollEvent s).1.Open := by
      unfold streamPollEvent
      rw [hqueue]
      exact h.isOpen
    rw [← hsame]
    exact ih (h.step hstep hopen) hrest

end Voxtral
