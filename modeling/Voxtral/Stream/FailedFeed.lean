import Voxtral.Stream.EncoderGraphs
import Voxtral.Stream.LifecycleRuns
import Voxtral.Stream.PacedModel

/-!
# A feed that fails behind a stall

A feed of several slices stalls the decoder in one of them and goes on to encode the others.  If a graph of
the encoder fails then, the feed of a new stream returns `backend_error` and leaves the state `created`, but
with a stalled decoder; and a finish that resumes it may fail.  This is the only step that leaves the
transition table (`lifecycle_follows_table`).
-/

namespace Voxtral

variable {α φ ε γ κ : Type*} {eng : Engine α φ ε γ κ} {s s' : Stream α φ ε γ κ}

/-! ## A device on which every graph fails -/

/-- Every graph from now on fails. -/
def Dead (eng : Engine α φ ε γ κ) (s : Stream α φ ε γ κ) : Prop :=
  ∀ k, s.device.submits ≤ k → eng.submitFails k = true

/-- Every graph of a dead engine fails. -/
lemma Dead.submitGraph (h : Dead eng s) : (submitGraph eng s).2 = false := by
  unfold Voxtral.submitGraph
  rw [h _ le_rfl]
  rfl

/-- The adapter stage fails if it has a group to commit. -/
lemma pumpAdapter_dead (h : Dead eng s) :
    (pumpAdapter eng s).2 = .backendError ∨ pumpAdapter eng s = (s, .ok) := by
  rw [pumpAdapter_eq]
  by_cases hmore : s.decoder.adapterGroupsCommitted < committable s
  · obtain ⟨n, hn⟩ := Nat.exists_eq_succ_of_ne_zero (Nat.sub_ne_zero_of_lt hmore)
    left
    simp only [if_pos hmore, hn, adapterCommitLoop, Nat.succ_ne_zero, if_false, h.submitGraph, Bool.not_false,
      if_true, Bool.false_eq_true]
  · right
    rw [if_neg hmore]

/-- A pump that has a stashed token to deliver and a position to decode behind it fails. -/
lemma pumpIncremental_dead (h : Dead eng s) {p : PendingToken}
    (hprefill : s.decoder.decoderPrefillDone = true) (hpending : s.decoder.pending = some p)
    (hroom : s.events.queue.length < s.events.bound) (htoken : p.token ≠ tokenEos)
    (hlive : s.decoder.decoderEos = false)
    (hmore : s.decoder.decoderPosition + 1 < s.decoder.adapterGroupsCommitted)
    (hparams : s.params.maxTokens ≤ 0) : (pumpIncremental eng s).2 = .backendError := by
  unfold pumpIncremental
  rcases pumpAdapter_dead h with hfailed | hidle
  · simp only [hfailed, ne_eq, reduceCtorEq, not_false_eq_true, if_true]
  have hprefilled : ¬ (s.decoder.decoderPrefillDone = false ∧
      promptLength - 1 ≤ s.decoder.adapterGroupsCommitted) := by
    rw [hprefill]
    exact fun hfalse => absurd hfalse.1 (by decide)
  simp only [hidle, ne_eq, not_true_eq_false, if_false, pumpPrefill, if_neg hprefilled]
  have hnot : ¬ s.decoder.decoderPrefillDone = false := by
    rw [hprefill]
    decide
  unfold pumpDecoder
  rw [if_neg hnot, commitPending_of_some eng hpending, if_pos hroom]
  simp only [Bool.not_true, Bool.false_eq_true, if_false]
  -- behind the delivery the step loop submits the graph of the next position
  have hdecoder : (deliverPending eng s p).decoder = decoderAfter eng s.decoder p :=
    deliverPending_decoder eng s p
  obtain ⟨-, -, -, hsame⟩ := deliverPending_events eng s p
  have hposition : (deliverPending eng s p).decoder.decoderPosition = s.decoder.decoderPosition + 1 ∧
      (deliverPending eng s p).decoder.adapterGroupsCommitted = s.decoder.adapterGroupsCommitted ∧
      (deliverPending eng s p).decoder.decoderEos = false := by
    rw [hdecoder]
    unfold decoderAfter appendTokenToPartial
    rw [if_neg htoken]
    exact ⟨rfl, rfl, hlive⟩
  obtain ⟨hnext, hcommitted, hlive'⟩ := hposition
  obtain ⟨n, hn⟩ := Nat.exists_eq_succ_of_ne_zero (Nat.sub_ne_zero_of_lt hmore)
  rw [hnext, hcommitted, hn]
  have hdead : Dead eng { deliverPending eng s p with
      events := { (deliverPending eng s p).events with decoderBackpressured := false } } := by
    unfold Dead
    dsimp only
    rw [deliverPending_device]
    exact h
  have hmay : decoderMayStep { deliverPending eng s p with
      events := { (deliverPending eng s p).events with decoderBackpressured := false } } := by
    refine ⟨?_, hlive', Or.inl ?_⟩
    · rw [hnext, hcommitted]
      exact hmore
    · rw [hsame]
      exact hparams
  rw [pumpStepLoop_succ, if_pos hmay, hdead.submitGraph]
  rfl

/-- A poll of the only event empties the queue. -/
lemma streamPollEvent_single {e : StreamEvent} (h : s.events.queue = [e]) :
    ∃ ev r, streamPollEvent s = ({ s with events := ev }, r) ∧ ev.queue = [] ∧
      ev.bound = s.events.bound ∧ ev.decoderBackpressured = s.events.decoderBackpressured := by
  unfold streamPollEvent
  rw [h]
  exact ⟨_, _, rfl, rfl, rfl, rfl⟩

section Slices

variable [Zero α]

/-- A slice that completes a batch of the encoder fails. -/
lemma absorbSlice_dead (h : Dead eng s) (hw : Working eng True s)
    (hpadded : s.frontend.leftPadInjected = true) {slice : List α} (hslice : slice.length ≤ audioDrainSlice)
    (hmore : emittedAt eng.schedule.logical (s.frontend.realSamples.length + slice.length) ≠
      emittedAt eng.schedule.logical s.frontend.realSamples.length) {ok : Bool}
    (habsorb : absorbSlice eng s slice = some (s', ok)) : ok = false := by
  obtain ⟨_, -, hsubmitted⟩ := absorbSlice_submitted eng.submitFails habsorb
  have hruns : encoderRuns s'.trace = encoderRuns s.trace := hsubmitted.dead h
  have hadvanced := absorbSlice_advanced habsorb
  unfold EncoderAdvanced encodedFrames at hadvanced
  rw [hruns] at hadvanced
  cases ok with
  | false => rfl
  | true =>
    obtain ⟨hw', -, -, -, hsamples⟩ := hw.absorb hpadded hslice (Or.inl trivial) habsorb
    have hemitted := hw'.emitted
    rw [hsamples, List.length_append, Nat.add_right_cancel hadvanced, hw.emitted] at hemitted
    exact absurd hemitted.symm hmore

/-- A finish that cannot resume the decoder fails. -/
lemma finishHooked_fails (hook : GuardedStream α φ ε γ κ → Option (GuardedStream α φ ε γ κ))
    (hcreated : s.lifecycle.state = .created) (hstalled : s.events.decoderBackpressured = true)
    (hfail : (pumpIncremental eng s).2 = .backendError) :
    ∃ t, finishHooked eng hook s = some (t, .backendError) ∧ t.lifecycle.state = .failed := by
  refine ⟨failStream { (pumpIncremental eng s).1 with
    events := { (pumpIncremental eng s).1.events with finalizingFlush := true } } .backendError, ?_, rfl⟩
  unfold finishHooked
  simp only [hcreated, hstalled, hfail, if_true, reduceCtorEq, if_false, ne_eq, not_false_eq_true]

end Slices

/-! ## Whole runs -/

/-- The call is no finish of a stream that is in state `created` with a stalled decoder. -/
def FinishesUnstalled (s : Stream α φ ε γ κ) : LifecycleCall → Prop
  | .finish => s.lifecycle.state = .created → s.events.decoderBackpressured = false
  | _ => True

/-- **The lifecycle follows the transition table.**  Whatever feeds, finishes, cancels, resets and polls a
caller makes, and whatever a finishing hook calls, the stream is safe behind every call, a call from within
another one returns `busy` and changes nothing, and the next call moves the stream along the table, if it is
no finish of a stream that a failed feed left in state `created` with a stalled decoder. -/
theorem lifecycle_follows_table [Zero α] (eng : Engine α φ ε γ κ) (clearKv : κ → κ)
    (hook : GuardedStream α φ ε γ κ → Option (GuardedStream α φ ε γ κ))
    (hhook : ActsByCalls eng clearKv hook) (maxEvents : ℕ) (device : Device ε γ κ)
    (calls : List GuardedCall) (g : GuardedStream α φ ε γ κ) (os : List GuardedResponse)
    (hrun : runSteps (guardedStep eng clearKv hook)
      { stream := Stream.create maxEvents device } calls = some (g, os)) :
    LifecycleSafe eng clearKv hook (calls.zip os) g ∧
      (∀ call, guardedStep eng clearKv hook { g with inOperation := true } (.call call) =
        some ({ g with inOperation := true }, .status .busy)) ∧
      ∀ call g' status, FinishesUnstalled g.stream call →
        guardedStep eng clearKv hook g (.call call) = some (g', .status status) →
          (status, g'.stream.lifecycle.state) ∈ transitionTable call g.stream.lifecycle.state := by
  have hsafe := lifecycle_of_calls eng clearKv hook hhook maxEvents device calls g os hrun
  refine ⟨hsafe, fun call => by cases call <;> rfl, fun call g' status hunstalled hstep => ?_⟩
  rcases hsafe.moves call g' status hstep with hcell | ⟨rfl, hcreated, rfl, hfailed, -⟩
  · exact hcell
  -- a finish in state `created` fails behind a stall only
  obtain ⟨hreleased, hkept⟩ := lifecycleKept_run hhook hrun
  obtain ⟨s, released⟩ := g
  obtain rfl : released = false := hreleased
  have hbehind : LifecycleKept (s.events.decoderBackpressured = true) s :=
    { hkept with stalled := fun _ hstalled => hstalled }
  obtain ⟨status', hfinish, -, ho⟩ := GuardedStream.operate_released hstep
  rcases (finishHooked_kept hhook hbehind hfinish).2 with hcell | ⟨-, -, -, hstalled⟩
  · obtain rfl : Status.backendError = status' := by injection ho
    exact hcell
  · exact absurd ((hunstalled hcreated).symm.trans hstalled) Bool.false_ne_true

/-- A cancelled stream that is reset and finished again, with a hook that calls back. -/
theorem lifecycle_follows_table_reentry : ∃ g os g',
    runSteps (guardedStep (plainEngine defaultSchedule) id reentryHook)
      { stream := Stream.create 1 plainDevice }
      [.call .finish, .poll, .call .cancel, .call .reset] = some (g, os) ∧
    guardedStep (plainEngine defaultSchedule) id reentryHook g (.call .finish) = some (g', .status .ok) ∧
    (.ok, g'.stream.lifecycle.state) ∈ transitionTable .finish g.stream.lifecycle.state := by
  refine ⟨_, _, _, rfl, rfl, ?_⟩
  exact (lifecycle_follows_table (plainEngine defaultSchedule) id reentryHook (reentryHook_acts _ _) 1
    plainDevice [.call .finish, .poll, .call .cancel, .call .reset] _ _ rfl).2.2 .finish _ _ (fun _ => rfl) rfl

/-! ## A run -/

/-- The plain engine on a device whose graphs fail from the 31st on: that is the first graph of the second
second of audio in a queue of one event. -/
def dyingEngine : Engine ℤ Unit Unit Unit Unit :=
  (plainEngine defaultSchedule).failing fun k => decide (30 ≤ k)

/-- A new stream of one event that absorbed the first second of two, before the decoder is pumped. -/
def dyingStart : Stream ℤ Unit Unit Unit Unit :=
  { emitUpTo (feedStart (Stream.create 1 plainDevice) 32000) (emittedAt 4 16000) with
    device := { plainDevice with submits := 14 } }

/-- Where the pump of the first second leaves the decoder and the queue. -/
lemma dyingStart_pump : let p := pumpIncremental dyingEngine dyingStart
    p.2 = .limitExceeded ∧ p.1.device.submits = 30 ∧ p.1.decoder.decoderPrefillDone = true ∧
      p.1.decoder.decoderEos = false ∧
      p.1.decoder.pending = some ⟨0, 39, false⟩ ∧ p.1.decoder.decoderPosition = 39 ∧
      p.1.decoder.adapterGroupsCommitted = 44 ∧ p.1.events.queue.length = 1 ∧ p.1.events.maxEvents = 1 ∧
      p.1.events.finalizingFlush = false ∧ p.1.events.decoderBackpressured = true := by
  decide +kernel

/-- A new stream with the left padding. -/
lemma padded_working (eng : Engine ℤ Unit Unit Unit Unit) {u : Stream ℤ Unit Unit Unit Unit}
    (hpad : ensureLeftPad eng (feedStart (Stream.create 1 plainDevice) 32000) = some u) :
    Working eng True u ∧ u.frontend.leftPadInjected = true ∧ u.frontend.realSamples = [] := by
  have hs := (opReady_create eng True 1 plainDevice).live (Or.inl rfl)
  have hstarted : FrontReady eng (feedStart (Stream.create 1 plainDevice) 32000) := hs.front.congr rfl rfl
  obtain ⟨hpace, hfront, hpadded⟩ := ensureLeftPad_samePace hstarted hpad
  have hpace' : SamePace (Stream.create 1 plainDevice) u := (feedStart_samePace _ 32000).trans hpace
  exact ⟨hpace'.working hs.toWorking hfront, hpadded, hpace'.samples⟩

/-- The first second is absorbed as on an engine that never fails, and takes 14 graphs. -/
lemma absorbSlice_dying {u : Stream ℤ Unit Unit Unit Unit} {a : List ℤ} (hlength : a.length = 16000)
    (hpad : ensureLeftPad dyingEngine (feedStart (Stream.create 1 plainDevice) 32000) = some u) :
    ∃ v, absorbSlice dyingEngine u a = some (v, true) ∧ Alike dyingEngine 0 v dyingStart := by
  have hpad' : ensureLeftPad (plainEngine defaultSchedule)
      (feedStart (Stream.create 1 plainDevice) 32000) = some u := hpad
  obtain ⟨hu, hpadded, hsamples⟩ := padded_working (plainEngine defaultSchedule) hpad'
  have hslice : a.length ≤ audioDrainSlice := hlength.le
  obtain ⟨⟨v, ok⟩, habsorb⟩ := Option.isSome_iff_exists.mp (absorbSlice_isSome hu.front (by
    rw [List.length_append, length_paddedSignal hpadded, hsamples, hlength]
    decide : (paddedSignal u.frontend ++ a).length < 2 ^ 31))
  have hout := absorbSlice_outcome hu.front hpadded hslice habsorb
  obtain rfl := hout.runs (plainEngine_runs defaultSchedule)
  obtain ⟨hv, -, hdecoder, hevents, hreal⟩ := hu.absorb hpadded hslice (Or.inl trivial) habsorb
  have hemitted : v.frontend.enc.emitted = emittedAt 4 16000 := by
    rw [hv.emitted, hreal, hsamples, List.nil_append, hlength]
    rfl
  obtain ⟨r, hdying, hsubmitted⟩ := absorbSlice_submitted (fun k => decide (30 ≤ k)) habsorb
  -- the runs on record tell how many graphs were submitted
  obtain ⟨padded, fe, rfl⟩ := ensureLeftPad_eq hpad
  have hgraphs : encoderGraphs v.trace = 14 := by
    have hrecorded : encoderRuns v.trace = liveRuns defaultSchedule (emittedAt 4 16000) :=
      hemitted ▸ hv.recorded
    unfold encoderGraphs
    rw [hrecorded]
    decide
  have hcounted : v.device.submits + 0 = 0 + encoderGraphs v.trace := hsubmitted.counted rfl
  rw [hgraphs] at hcounted
  obtain rfl := hsubmitted.same rfl fun k _ hk => decide_eq_false (not_le.mpr (by
    have hk' : k < v.device.submits := hk
    omega))
  refine ⟨v, hdying, hv.params.symm, (hout.lifecycle rfl).symm, hdecoder.symm, hevents.symm, hemitted.symm,
    Or.inr ?_, fun _ => rfl, fun _ _ => rfl, fun _ _ => rfl⟩
  exact hcounted.symm

/-- The pump behind the first second stalls, and from then on every graph fails. -/
lemma pump_dying {v : Stream ℤ Unit Unit Unit Unit} (halike : Alike dyingEngine 0 v dyingStart) :
    (pumpIncremental dyingEngine v).2 = .limitExceeded ∧ Dead dyingEngine (pumpIncremental dyingEngine v).1 ∧
      Alike dyingEngine 0 (pumpIncremental dyingEngine v).1 (pumpIncremental dyingEngine dyingStart).1 := by
  obtain ⟨hanswer, hpump⟩ := halike.pump
  obtain ⟨hstalls, hsubmits, -⟩ := dyingStart_pump
  refine ⟨hanswer.symm.trans hstalls, ?_, hpump⟩
  rcases hpump.submits with hruns | hsame
  · exact absurd (hruns 30) (by decide)
  · intro k hk
    rw [← hsame, hsubmits] at hk
    exact decide_eq_true hk

/-- Two seconds of audio are two slices. -/
lemma audioSlices_two {pcm : List α} (hlength : pcm.length = 32000) :
    ∃ a b, audioSlices pcm = [a, b] ∧ a.length = 16000 ∧ b.length = 16000 := by
  have hsizes := map_length_audioSlices pcm
  have htwo : sliceSizes 32000 = [16000, 16000] := by decide
  rw [hlength, htwo] at hsizes
  obtain ⟨a, rest, hslices, ha, hrest⟩ := List.map_eq_cons_iff.mp hsizes
  obtain ⟨b, more, rfl, hb, hnil⟩ := List.map_eq_cons_iff.mp hrest
  obtain rfl := List.map_eq_nil_iff.mp hnil
  exact ⟨a, b, hslices, ha, hb⟩

/-- The feed of two seconds fails in the second one, and leaves a new stream whose decoder is stalled. -/
lemma feedCommon_dying {samples : List ℤ} (hlength : samples.length = 32000) :
    ∃ s, feedCommon dyingEngine (Stream.create 1 plainDevice) (.data samples) = some (s, .backendError) ∧
      Dead dyingEngine s ∧ s.lifecycle.state = .created ∧ s.params = {} ∧
      s.decoder = (pumpIncremental dyingEngine dyingStart).1.decoder ∧
      s.events = { (pumpIncremental dyingEngine dyingStart).1.events with
        aggressivePartialCoalescing := false } := by
  have hs := (opReady_create dyingEngine True 1 plainDevice).live (Or.inl rfl)
  have hfits : FeedBuffer.Fits (.data samples) (Stream.create 1 plainDevice : Stream ℤ Unit Unit Unit Unit) := by
    refine ⟨List.ne_nil_of_length_pos (by omega), ?_, ?_, ?_, ?_⟩
    all_goals
      rw [hlength]
      decide
  have hsome : (feedAudio dyingEngine (Stream.create 1 plainDevice) samples).isSome = true :=
    feedAudio_isSome hs (by
      rw [hlength]
      decide)
  obtain ⟨⟨s, status⟩, hfeed⟩ := Option.isSome_iff_exists.mp hsome
  have hcommon : feedCommon dyingEngine (Stream.create 1 plainDevice) (.data samples) = some (s, status) :=
    (feedAdmit_of_fits hfits).trans hfeed
  rw [feedAudio_eq, hlength] at hfeed
  obtain ⟨u, hpad, hrun⟩ := Option.bind_eq_some_iff.mp hfeed
  obtain ⟨⟨w, st⟩, hloop, hend⟩ := Option.map_eq_some_iff.mp hrun
  obtain ⟨a, b, hslices, ha, hb⟩ := audioSlices_two ((List.length_map dyingEngine.sampleOf).trans hlength)
  rw [hslices] at hloop
  -- the first second stalls the decoder
  obtain ⟨v, habsorb, halike⟩ := absorbSlice_dying ha hpad
  obtain ⟨hu, hpadded, hsamples⟩ := padded_working dyingEngine hpad
  obtain ⟨hv, hvpadded, -, -, hreal⟩ := hu.absorb hpadded ha.le (Or.inl trivial) habsorb
  obtain ⟨hstall, hdead, hpump⟩ := pump_dying halike
  obtain ⟨-, hworking, -⟩ := hv.pump
  have hp := hworking (by
    rw [hstall]
    decide)
  have hframe : PumpFrame v (pumpIncremental dyingEngine v).1 := (pumpIncremental_steps hv.within).frame
  -- the second one fails
  simp only [feedSlices, habsorb, Option.bind_some, Bool.not_true, Bool.false_eq_true, if_false, hstall,
    if_true] at hloop
  obtain ⟨⟨x, ok⟩, hsecond, hloop⟩ := Option.bind_eq_some_iff.mp hloop
  have hppadded : (pumpIncremental dyingEngine v).1.frontend.leftPadInjected = true := by
    rw [hframe.frontend]
    exact hvpadded
  obtain rfl := absorbSlice_dead hdead hp hppadded hb.le (by
    rw [hframe.frontend, hreal, hsamples, List.nil_append, ha, hb]
    decide) hsecond
  obtain ⟨rfl, rfl⟩ := Prod.mk.inj (Option.some.inj hloop)
  have hchange := absorbSlice_frontendChange hsecond
  obtain ⟨_, -, hsubmitted⟩ := absorbSlice_submitted (fun _ => true) hsecond
  obtain ⟨rfl, rfl⟩ := Prod.mk.inj hend
  refine ⟨_, hcommon, fun k hk => hdead k (hsubmitted.grows.trans hk), ?_, ?_, ?_, ?_⟩
  · exact hchange.state.trans (hframe.state.trans ((congrArg Lifecycle.state halike.lifecycle).symm))
  · exact hchange.params.trans hp.params
  · exact hchange.decoder.trans hpump.decoder.symm
  · change { x.events with aggressivePartialCoalescing := false } = _
    rw [hchange.events, hpump.events]

/-- **A finish of a new stream fails.**  Two seconds of audio in a queue of one event: the first one stalls
the decoder, a graph of the second one fails, and the feed leaves the stream in state `created`.  A finish
behind a poll resumes the decoder, fails and leaves the state `failed`, where the table has `completed`. -/
theorem finish_leaves_table : ∃ g os g',
    runSteps (guardedStep dyingEngine id some) { stream := Stream.create 1 plainDevice }
        [.call (.feed (.data (List.replicate 32000 0))), .poll] = some (g, os) ∧
      ActsByCalls dyingEngine id some ∧ g.stream.lifecycle.state = .created ∧
      guardedStep dyingEngine id some g (.call .finish) = some (g', .status .backendError) ∧
      g'.stream.lifecycle.state = .failed ∧
      (.backendError, .failed) ∉ transitionTable .finish .created := by
  have hacts : ActsByCalls dyingEngine id some := by
    rintro g g' hhook
    obtain rfl := Option.some.inj hhook
    exact ⟨[], [], rfl⟩
  have hlength : (List.replicate 32000 (0 : ℤ)).length = 32000 := List.length_replicate
  generalize List.replicate 32000 (0 : ℤ) = samples at hlength ⊢
  obtain ⟨s, hfeed, hdead, hcreated, hparams, hdecoder, hevents⟩ := feedCommon_dying hlength
  obtain ⟨-, -, hprefill, hlive, hpending, hposition, hcommitted, hqueue, hmax, hflush, hbp⟩ :=
    dyingStart_pump
  rw [← hdecoder] at hprefill hlive hpending hposition hcommitted
  obtain ⟨e, hone⟩ := List.length_eq_one_iff.mp hqueue
  -- the poll makes room for the stashed token
  have hsqueue : s.events.queue = [e] := by
    rw [hevents]
    exact hone
  obtain ⟨ev, r, hpolled, hempty, hsame, hstalled⟩ := streamPollEvent_single hsqueue
  have hbound : ev.bound = 1 := by
    rw [hsame, hevents]
    unfold Events.bound
    dsimp only
    rw [hmax, hflush]
    rfl
  have hresumes : ev.decoderBackpressured = true := by
    rw [hstalled, hevents]
    exact hbp
  have hfail : (pumpIncremental dyingEngine { s with events := ev }).2 = .backendError := by
    refine pumpIncremental_dead hdead hprefill hpending ?_ (by decide) hlive ?_ ?_
    · change ev.queue.length < ev.bound
      rw [hempty, hbound]
      exact Nat.one_pos
    · change s.decoder.decoderPosition + 1 < s.decoder.adapterGroupsCommitted
      rw [hposition, hcommitted]
      decide
    · change s.params.maxTokens ≤ 0
      rw [hparams]
  have hfirst : guardedStep dyingEngine id some { stream := Stream.create 1 plainDevice }
      (.call (.feed (.data samples))) = some ({ stream := s }, .status .backendError) := by
    change (feedCommon dyingEngine (Stream.create 1 plainDevice) (.data samples)).map _ = _
    rw [hfeed]
    rfl
  have hsecond : guardedStep dyingEngine id some { stream := s } .poll =
      some ({ stream := { s with events := ev } }, .polled r) := by
    change some (_, _) = _
    rw [hpolled]
  obtain ⟨t, hfinish, hfailed⟩ :=
    finishHooked_fails (s := { s with events := ev }) some hcreated hresumes hfail
  have hthird : guardedStep dyingEngine id some { stream := { s with events := ev } } (.call .finish) =
      some ({ stream := t }, .status .backendError) := by
    change (finishHooked dyingEngine some { s with events := ev }).map _ = _
    rw [hfinish]
    rfl
  exact ⟨_, _, _, runSteps_cons_eq_some.mpr ⟨_, _, _, hfirst, runSteps_singleton.mpr ⟨_, hsecond, rfl⟩, rfl⟩,
    hacts, hcreated, hthird, hfailed, by decide⟩

end Voxtral
