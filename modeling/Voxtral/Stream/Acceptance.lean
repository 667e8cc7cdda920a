import Voxtral.Stream.PacedModel
import Voxtral.Stream.Reset

/-!
# What a feed accepts

A feed through `voxtral_stream_feed_pcm16` accepts its buffer or nothing of it, and reports which.
Accepted samples were handed to the Mel frontend in that call; a feed that accepted nothing and did not
fail the stream left the frontend as it was.  So what a caller handed in for good since the last reset
is, behind the left padding, what the Mel frontend received.
-/

namespace Voxtral

variable {α φ ε γ κ : Type*} {eng : Engine α φ ε γ κ} {s s' : Stream α φ ε γ κ}

/-! ## One feed -/

/-- The samples `diagnostics.pcm_sha` was updated with, after a feed: `feed_common` updates the hash
with the whole buffer once it is admitted. -/
def feedPcmSha (eng : Engine α φ ε γ κ) (s : Stream α φ ε γ κ) (buf : FeedBuffer) (sha : List α) :
    List α :=
  if Admitted eng s buf then sha ++ buf.samples.map eng.sampleOf else sha

/-- A feed that took the stream from `s` to `s'` accounts for its buffer. -/
structure FeedAccounted [Zero α] (eng : Engine α φ ε γ κ) (s s' : Stream α φ ε γ κ)
    (buf : FeedBuffer) (status : PublicStatus) (consumed : ℕ) : Prop where
  /-- All or nothing. -/
  count : consumed = 0 ∨ consumed = buf.count
  total : s'.lifecycle.totalSamplesReceived = s.lifecycle.totalSamplesReceived + consumed
  /-- Accepted samples reached the Mel frontend in this call, behind the left padding. -/
  received : consumed ≠ 0 →
    MelFed eng.melFrame s.frontend.melFe s'.frontend.melFe
        ((if s.frontend.leftPadInjected then [] else List.replicate streamLeftPad 0) ++
          buf.samples.map eng.sampleOf) ∧
      s'.frontend.leftPadInjected = true ∧
      s'.frontend.realSamples = s.frontend.realSamples ++ buf.samples.map eng.sampleOf
  /-- A buffer that was not accepted is not acknowledged. -/
  refused : status = .ok → buf.count ≠ 0 → consumed = buf.count
  /-- A feed that accepted nothing touched neither frontend nor hash. -/
  unchanged : consumed = 0 → s'.Open → s'.frontend = s.frontend ∧
    s'.device.encOutRing = s.device.encOutRing ∧ ∀ sha, feedPcmSha eng s buf sha = sha

/-- Only an internal success is reported as one. -/
lemma mapStatus_eq_ok {status : Status} (h : mapStatus status = .ok) : status = .ok := by
  cases status <;> first | rfl | exact absurd h (by decide)

/-- Only OK is mapped to OK. -/
lemma mapFeedStatus_eq_ok {status : Status} (h : mapFeedStatus s status = .ok) : status = .ok := by
  unfold mapFeedStatus at h
  cases status <;> simp [mapStatus] at h ⊢
  split_ifs at h

section Feed

variable [Zero α]

variable (eng) in
omit [Zero α] in
/-- The resume pump leaves the frontend and the ring of the encoder alone. -/
lemma resumed_frame (hw : DecoderWithin s) : PumpFrame s (resumed eng s) := by
  unfold resumed
  split_ifs
  · exact PumpSteps.frame (pumpIncremental_steps hw)
  · exact PumpFrame.refl s

/-- A stream that resumed is ready for its next call. -/
lemma resumed_ready (hr : OpReady eng True s) (hopen : s.Open) (hresumes : Resumes eng s) :
    OpReady eng True (resumed eng s) ∧ (resumed eng s).Open ∧
      (resumed eng s).events.decoderBackpressured = false := by
  have hlive := live_of_open hopen
  have hstate := (resumed_frame eng hr.within).state
  have hopen' : (resumed eng s).Open := by
    unfold Stream.Open
    rw [hstate]
    exact hopen
  by_cases hbp : s.events.decoderBackpressured = true
  · have hok := hresumes hbp
    rw [resumed, if_pos hbp] at hopen' ⊢
    exact ⟨hr.pump hlive hbp (by rw [hok]; decide), hopen',
      ((hr.live hlive).toWorking.pump.2.2 hok).1⟩
  · rw [resumed, if_neg hbp] at hopen' ⊢
    exact ⟨hr, hopen', by simpa using hbp⟩

/-- A feed that accepted nothing, and left the frontend alone. -/
lemma FeedAccounted.of_refused {buf : FeedBuffer} {status : PublicStatus} {consumed : ℕ}
    (hconsumed : consumed =
      s'.lifecycle.totalSamplesReceived - s.lifecycle.totalSamplesReceived)
    (htotal : s'.lifecycle.totalSamplesReceived = s.lifecycle.totalSamplesReceived)
    (hok : status = .ok → buf.count = 0)
    (hopen : s'.Open → s'.frontend = s.frontend ∧
      s'.device.encOutRing = s.device.encOutRing ∧ ¬ Admitted eng s buf) :
    FeedAccounted eng s s' buf status consumed := by
  have hzero : consumed = 0 := by omega
  refine ⟨Or.inl hzero, by omega, fun h => absurd hzero h, fun hs hne => absurd (hok hs) hne, ?_⟩
  intro _ ho
  obtain ⟨hfrontend, hring, hadmitted⟩ := hopen ho
  exact ⟨hfrontend, hring, fun sha => if_neg hadmitted⟩

/-- A feed through the public interface accounts for its buffer. -/
theorem streamFeedPcm16_accounted {buf : FeedBuffer} {status : PublicStatus} {consumed : ℕ}
    (hr : OpReady eng True s)
    (h : streamFeedPcm16 eng s buf = some (s', .feed status consumed)) :
    FeedAccounted eng s s' buf status consumed := by
  obtain ⟨⟨t, st⟩, hfeed, hr'⟩ := Option.map_eq_some_iff.mp h
  obtain ⟨hs', hresponse⟩ := Prod.mk.inj hr'
  obtain ⟨hstatus, hconsumed⟩ := Response.feed.inj hresponse
  dsimp only at hs' hstatus hconsumed
  have hw := hr.within
  have hpump : PumpFrame s (pumpIncremental eng s).1 := (pumpIncremental_steps hw).frame
  have hframe := resumed_frame eng hw
  -- a failed feed closes the stream and changes no counter
  have hfailed : st = .backendError →
      t.lifecycle.totalSamplesReceived = s.lifecycle.totalSamplesReceived →
        FeedAccounted eng s s' buf status consumed := by
    intro hst htotal
    rw [if_pos (Or.inl hst)] at hs' hstatus
    have hclosed : s'.lifecycle.state = .failed := by
      rw [← hs']
      rfl
    have htotal' : s'.lifecycle.totalSamplesReceived = s.lifecycle.totalSamplesReceived := by
      obtain ⟨_, happ, -⟩ := failStream_appends (setError
        { t with events := { t.events with finalizingFlush := true } } st t.lifecycle.lastError) st
      rw [← hs', failStreamNoexcept, happ.totalReceived]
      exact htotal
    refine .of_refused (by omega) htotal' (fun hok => ?_) fun hopen => ?_
    · rw [← hstatus, hst] at hok
      exact absurd (mapFeedStatus_eq_ok hok) (by decide)
    · rcases hopen with hopen | hopen <;> exact absurd (hclosed.symm.trans hopen) (by decide)
  have hother : (st = .ok ∨ st = .invalidArgument ∨ st = .limitExceeded ∨ st = .invalidState) →
      s' = t ∧ (status = .ok → st = .ok) := by
    intro hst
    have hnot : ¬ (st = .backendError ∨ st = .outOfMemory ∨ st = .internalError) := by
      rcases hst with rfl | rfl | rfl | rfl <;> decide
    rw [if_neg hnot] at hs' hstatus
    exact ⟨hs'.symm, fun hok => mapFeedStatus_eq_ok (hstatus.trans hok)⟩
  cases feedCommon_call hfeed with
  | closed hclosed =>
    obtain ⟨rfl, hok⟩ := hother (by simp)
    exact .of_refused hconsumed.symm rfl (fun h => absurd (hok h) (by decide))
      fun hopen => absurd hopen hclosed
  | stalled hopen hbp hlimit =>
    obtain ⟨rfl, hok⟩ := hother (by simp)
    refine .of_refused hconsumed.symm hpump.totalReceived (fun h => absurd (hok h) (by decide)) ?_
    intro _
    refine ⟨hpump.frontend, hpump.encOutRing, fun hadmitted => ?_⟩
    exact absurd (hlimit.symm.trans (hadmitted.2.1 hbp)) (by decide)
  | pumpFailed => exact hfailed rfl hpump.totalReceived
  | refused hopen hresumes hfits lifecycle _ hstate htotal hok hkind =>
    obtain ⟨rfl, hok'⟩ := hother (by rcases hkind with h | h | h <;> simp [h])
    refine .of_refused hconsumed.symm (htotal.trans hframe.totalReceived)
      (fun h => hok.mp (hok' h)) ?_
    intro _
    exact ⟨hframe.frontend, hframe.encOutRing, fun hadmitted => hfits hadmitted.2.2⟩
  | admitted hadmitted haudio =>
    obtain ⟨hopen, hresumes, hfits⟩ := hadmitted
    obtain ⟨hready, hopen', hbp⟩ := resumed_ready hr hopen hresumes
    cases buf with
    | null => exact absurd hfits id
    | data samples =>
      have hne : samples ≠ [] := hfits.1
      have hout := feedAudio_outcome hready hopen' hbp hne (Or.inl trivial) haudio
      by_cases hst : st = .backendError
      · exact hfailed hst ((hout.failed hst).trans hframe.totalReceived)
      · obtain ⟨⟨fed, hfed, hall⟩, htotal⟩ := feedAudio_melFed hready.within haudio
        have hsum := (htotal hst).trans (congrArg (· + _) hframe.totalReceived)
        have hpos : samples.length ≠ 0 := fun hzero => hne (List.length_eq_zero_iff.mp hzero)
        have htaken := (hout.accepted hst).resolve_right fun hnone => by
          have hsame := hnone.2.2
          have hcount := htotal hst
          simp only [FeedBuffer.samples] at hcount
          omega
        obtain ⟨-, hkind, hpadded, hsamples, -⟩ := htaken
        obtain ⟨rfl, -⟩ := hother (by rcases hkind with h | h <;> simp [h])
        simp only [FeedBuffer.samples] at hsum hfed hall hsamples ⊢
        have hcount : consumed = samples.length := by omega
        rw [hall hst, hframe.frontend] at hfed
        rw [hframe.frontend] at hsamples
        exact ⟨Or.inr hcount, by omega, fun _ => ⟨hfed, hpadded, hsamples⟩, fun _ _ => hcount,
          fun hzero => absurd (hcount.symm.trans hzero) hpos⟩

end Feed

/-! ## Runs -/

/-- The samples a call hands in for good: a caller advances by `samples_consumed`. -/
def acceptedBy : Op → Response → List ℤ
  | .feed buf, .feed _ consumed => buf.samples.take consumed
  | _, _ => []

/-- The samples a list of calls handed in for good, in order. -/
def acceptedPcm (history : List (Op × Response)) : List ℤ :=
  history.flatMap fun entry => acceptedBy entry.1 entry.2

/-- The samples of one more call come last. -/
lemma acceptedPcm_concat (history : List (Op × Response)) (op : Op) (r : Response) :
    acceptedPcm (history ++ [(op, r)]) = acceptedPcm history ++ acceptedBy op r := by
  rw [acceptedPcm, List.flatMap_append, List.flatMap_singleton]
  rfl

/-- A stream that did not fail and was not cancelled. -/
def Stream.Intact (s : Stream α φ ε γ κ) : Prop :=
  s.Live ∨ s.lifecycle.state = .completed

/-- A call that took the stream from `s` to `s'` handed in `accepted`. -/
structure StepAccounted [Zero α] (eng : Engine α φ ε γ κ) (s s' : Stream α φ ε γ κ)
    (accepted : List ℤ) : Prop where
  intact : s.Intact
  samples : s'.frontend.realSamples = s.frontend.realSamples ++ accepted.map eng.sampleOf
  live : s'.Live → s.Live ∧ ((accepted = [] ∧ s'.frontend = s.frontend) ∨
    (accepted ≠ [] ∧ s'.frontend.leftPadInjected = true ∧
      MelFed eng.melFrame s.frontend.melFe s'.frontend.melFe
        ((if s.frontend.leftPadInjected then [] else List.replicate streamLeftPad 0) ++
          accepted.map eng.sampleOf)))

section Runs

variable [Zero α]

/-- A call that left the frontend alone. -/
lemma StepAccounted.of_same (hintact : s.Intact) (hlive : s'.Live → s.Live)
    (hfrontend : s'.frontend = s.frontend) : StepAccounted eng s s' [] :=
  ⟨hintact, by rw [hfrontend, List.map_nil, List.append_nil],
    fun h => ⟨hlive h, Or.inl ⟨rfl, hfrontend⟩⟩⟩

/-- A live stream between two calls is open. -/
lemma OpReady.isOpen {late : Prop} (hr : OpReady eng late s) (hlive : s.Live) : s.Open :=
  hr.open hlive

/-- A feed. -/
lemma streamFeedPcm16_step {buf : FeedBuffer} {r : Response} (hr : OpReady eng True s)
    (h : streamFeedPcm16 eng s buf = some (s', r)) (hintact : s'.Intact) :
    StepAccounted eng s s' (acceptedBy (.feed buf) r) := by
  obtain ⟨status, consumed, rfl⟩ : ∃ status consumed, r = .feed status consumed := by
    obtain ⟨r', -, hr'⟩ := Option.map_eq_some_iff.mp h
    exact ⟨_, _, (Prod.mk.inj hr').2.symm⟩
  have hready := (streamFeedPcm16_transitions hr (Or.inl trivial) h).2
  have haccount := streamFeedPcm16_accounted hr h
  by_cases hopen : s.Open
  · have hlive := live_of_open hopen
    -- a feed completes no stream
    have hlive' : s'.Live := by
      obtain ⟨⟨t, st⟩, hfeed, hr'⟩ := Option.map_eq_some_iff.mp h
      have hs' := (Prod.mk.inj hr').1
      have hout := feedCommon_outcome hr hopen (Or.inl trivial) hfeed
      dsimp only at hs'
      split_ifs at hs' with hfail
      · rcases hintact with hl | hcompleted
        · exact hl
        · rw [← hs'] at hcompleted
          exact absurd hcompleted (by simp [failStreamNoexcept, failStream])
      · rw [← hs']
        exact hout.live
    by_cases hzero : consumed = 0
    · obtain ⟨hfrontend, -, -⟩ := haccount.unchanged hzero (hready.isOpen hlive')
      have hnone : acceptedBy (.feed buf) (.feed status consumed) = [] := by
        rw [acceptedBy, hzero, List.take_zero]
      rw [hnone]
      exact .of_same (Or.inl hlive) (fun _ => hlive) hfrontend
    · obtain ⟨hfed, hpadded, hsamples⟩ := haccount.received hzero
      have hcount := haccount.count.resolve_left hzero
      have hall : acceptedBy (.feed buf) (.feed status consumed) = buf.samples := by
        cases buf with
        | null => exact List.take_nil
        | data samples => exact List.take_of_length_le (le_of_eq hcount.symm)
      have hne : buf.samples ≠ [] ∨ ∃ count, buf = .null count := by
        cases buf with
        | null count => exact Or.inr ⟨count, rfl⟩
        | data samples =>
          refine Or.inl fun hempty => hzero ?_
          rw [hcount, FeedBuffer.count, show samples = [] from hempty, List.length_nil]
      rcases hne with hne | ⟨count, rfl⟩
      · rw [hall]
        exact ⟨Or.inl hlive, hsamples, fun _ => ⟨hlive, Or.inr ⟨hne, hpadded, hfed⟩⟩⟩
      · -- a null buffer is never accepted
        obtain ⟨⟨t, st⟩, hfeed, hr'⟩ := Option.map_eq_some_iff.mp h
        have hout := feedCommon_outcome hr hopen (Or.inl trivial) hfeed
        have hs' := (Prod.mk.inj hr').1
        dsimp only at hs'
        split_ifs at hs' with hfail
        · rw [← hs'] at hlive'
          exact absurd hlive' (by simp [Stream.Live, failStreamNoexcept, failStream])
        · have hst : st ≠ .backendError := fun hst => hfail (Or.inl hst)
          rcases hout.accepted hst with ⟨hne, -⟩ | ⟨-, -, hsame⟩
          · exact absurd rfl hne
          · rw [hs'] at hsame
            have htotal := haccount.total
            omega
  · have hclosed : feedCommon eng s buf = some (setError s .invalidState
        ("feed not allowed in state " ++ stateName s.lifecycle.state), .invalidState) := by
      unfold feedCommon
      rw [if_pos (not_or.mp hopen)]
    rw [streamFeedPcm16, hclosed] at h
    obtain ⟨rfl, hresponse⟩ := Prod.mk.inj (Option.some.inj h)
    obtain ⟨-, rfl⟩ := Response.feed.inj hresponse
    have hnone : acceptedBy (.feed buf) (.feed status (s.lifecycle.totalSamplesReceived -
        s.lifecycle.totalSamplesReceived)) = [] := by
      rw [acceptedBy, Nat.sub_self, List.take_zero]
    exact hnone ▸ .of_same hintact (fun hl => hl) rfl

/-- A finish hands nothing in. -/
lemma finishInternal_step {status : Status} (hr : OpReady eng True s)
    (h : finishInternal eng s = some (s', status)) (hintact : s'.Intact) :
    StepAccounted eng s s' [] := by
  have hframe := resumed_frame eng hr.within
  cases finishInternal_call h with
  | ended => exact .of_same hintact (fun hl => hl) rfl
  | failed => exact .of_same hintact (fun hl => hl) rfl
  | finishing => exact .of_same hintact (fun hl => hl) rfl
  | stalled hopen =>
    have hlive := live_of_open hopen
    exact .of_same (Or.inl hlive) (fun _ => hlive) (pumpIncremental_frontend eng hr.within)
  | pumpFailed =>
    rcases hintact with hl | hl
    · exact absurd hl (by simp [Stream.Live, failStream])
    · exact absurd hl (by simp [failStream])
  | live hopen hresumes hpath =>
    have hlive := live_of_open hopen
    obtain ⟨hready, hopen', hbp⟩ := resumed_ready hr hopen hresumes
    have hlive' := live_of_open hopen'
    have hdead : ∀ {t : Stream α φ ε γ κ} {what : String}, ¬ (finishThrew t what).1.Intact := by
      intro t what hl
      rcases hl with hl | hl
      · exact absurd hl (by simp [Stream.Live, finishThrew, failStream])
      · exact absurd hl (by simp [finishThrew, failStream])
    have hended : ∀ t : Stream α φ ε γ κ, ¬ (completeStream t).Live := by
      intro t
      simp [Stream.Live, completeStream, clearError]
    have hcomplete : ∀ t : Stream α φ ε γ κ, (completeStream t).frontend = t.frontend := by
      intro t
      obtain ⟨_, happ, -⟩ := completeStream_appends t
      exact happ.frontend
    cases hpath with
    | empty =>
      refine .of_same (Or.inl hlive) (fun hl => absurd hl (hended _)) ?_
      rw [hcomplete]
      exact hframe.frontend
    | frontendFailed => exact absurd hintact hdead
    | pumpFailed => exact absurd hintact hdead
    | completed hzero hfront _ =>
      have htail := finishFrontend_tailReady (hready.live hlive') hlive' hbp hzero hfront
      refine ⟨Or.inl hlive, ?_, fun hl => absurd hl (hended _)⟩
      rw [hcomplete, tailEnd, pumpIncremental_frontend eng htail.pump.2.2.1, tailStart, htail.samples,
        hframe.frontend, List.map_nil, List.append_nil]

/-- Every call on a stream that stays intact accounts for its samples. -/
theorem streamStep_accounted {op : Op} {r : Response} (hr : OpReady eng True s)
    (h : streamStep eng s op = some (s', r)) (hintact : s'.Intact) :
    StepAccounted eng s s' (acceptedBy op r) := by
  cases op with
  | feed buf => exact streamFeedPcm16_step hr h hintact
  | finish =>
    obtain ⟨⟨t, status⟩, hfinish, ht⟩ := Option.map_eq_some_iff.mp h
    obtain ⟨rfl, rfl⟩ := Prod.mk.inj ht
    exact finishInternal_step hr hfinish hintact
  | poll =>
    obtain ⟨_, heq, -⟩ := streamPollEvent_eq s
    have hs' : (streamPollEvent s).1 = s' := congrArg Prod.fst (Option.some.inj h)
    rw [← hs', heq] at hintact ⊢
    exact .of_same hintact (fun hl => hl) rfl
  | cancel =>
    obtain ⟨_, happ, -⟩ := cancelInternal_appends s
    obtain ⟨rfl, rfl⟩ := Prod.mk.inj (Option.some.inj h)
    have hstate : (cancelInternal s).1.lifecycle.state = .cancelled ∨
        (cancelInternal s).1.lifecycle.state = s.lifecycle.state := by
      unfold cancelInternal
      cases hstate : s.lifecycle.state <;> simp [hstate, clearError, setError]
    have hback : (cancelInternal s).1.lifecycle.state = s.lifecycle.state := by
      rcases hstate with hcancelled | hsame
      · rcases hintact with (hl | hl | hl) | hl <;>
          exact absurd (hcancelled.symm.trans hl) (by decide)
      · exact hsame
    have hlive : (cancelInternal s).1.Live → s.Live := by
      unfold Stream.Live
      rw [hback]
      exact id
    refine .of_same ?_ hlive happ.frontend
    rcases hintact with hl | hl
    · exact Or.inl (hlive hl)
    · exact Or.inr (hback.symm.trans hl)

/-- What a stream received is what its caller handed in for good. -/
structure HandedIn (eng : Engine α φ ε γ κ) (s : Stream α φ ε γ κ) (pcm : List ℤ) : Prop where
  samples : s.Intact → s.frontend.realSamples = pcm.map eng.sampleOf
  padded : s.Live → (s.frontend.leftPadInjected = true ↔ pcm ≠ [])
  /-- The Mel frontend was handed the left padding once, in front of the samples. -/
  fed : s.Live → MelFed eng.melFrame { retainHistory := false } s.frontend.melFe
    (if pcm = [] then [] else List.replicate streamLeftPad 0 ++ pcm.map eng.sampleOf)

/-- A new stream was handed nothing. -/
lemma handedIn_create (maxEvents : ℕ) (device : Device ε γ κ) :
    HandedIn eng (Stream.create maxEvents device) [] :=
  ⟨fun _ => rfl, fun _ => by simp [Stream.create], fun _ => MelFed.refl _ _⟩

/-- A call adds what it handed in. -/
lemma HandedIn.step {op : Op} {r : Response} {pcm : List ℤ} (h : HandedIn eng s pcm)
    (hr : OpReady eng True s) (hstep : streamStep eng s op = some (s', r)) :
    HandedIn eng s' (pcm ++ acceptedBy op r) := by
  refine ⟨fun hintact => ?_, fun hlive => ?_, fun hlive => ?_⟩
  · have hcall := streamStep_accounted hr hstep hintact
    rw [hcall.samples, h.samples hcall.intact, List.map_append]
  · obtain ⟨hs, hcall⟩ := (streamStep_accounted hr hstep (Or.inl hlive)).live hlive
    rcases hcall with ⟨hnone, hsame⟩ | ⟨hsome, hpadded, -⟩
    · rw [hsame, hnone, List.append_nil]
      exact h.padded hs
    · exact iff_of_true hpadded (List.append_ne_nil_of_right_ne_nil _ hsome)
  · obtain ⟨hs, hcall⟩ := (streamStep_accounted hr hstep (Or.inl hlive)).live hlive
    rcases hcall with ⟨hnone, hsame⟩ | ⟨hsome, -, hfed⟩
    · rw [hsame, hnone, List.append_nil]
      exact h.fed hs
    · have hall := (h.fed hs).trans hfed
      rw [if_neg (List.append_ne_nil_of_right_ne_nil _ hsome), List.map_append]
      by_cases hpcm : pcm = []
      · have hunpadded : s.frontend.leftPadInjected = false := by
          simpa [hpcm] using (h.padded hs).not
        rw [if_pos hpcm, hunpadded, if_neg Bool.false_ne_true, List.nil_append] at hall
        rwa [hpcm, List.map_nil, List.nil_append]
      · rwa [if_neg hpcm, if_pos ((h.padded hs).mpr hpcm), List.append_assoc,
          List.nil_append] at hall

/-- After every run of calls on a new stream, what it received is what was handed in for good. -/
theorem handedIn_run {maxEvents : ℕ} {device : Device ε γ κ} {ops : List Op} {os : List Response}
    (hrun : runSteps (streamStep eng) (Stream.create maxEvents device) ops = some (s, os)) :
    HandedIn eng s (acceptedPcm (ops.zip os)) := by
  have hinv := runSteps_induction (P := fun s ops os => os.length = ops.length ∧
      OpReady eng True s ∧ HandedIn eng s (acceptedPcm (ops.zip os))) ?_
    ⟨rfl, opReady_create eng True maxEvents device, handedIn_create maxEvents device⟩ hrun
  · exact hinv.2.2
  rintro s ops os op s' r ⟨hlength, hr, h⟩ hstep
  have hzip : (ops ++ [op]).zip (os ++ [r]) = ops.zip os ++ [(op, r)] :=
    List.zip_append hlength.symm
  refine ⟨by rw [List.length_append, List.length_append, hlength]; rfl,
    (streamStep_moves hr (Or.inl trivial) hstep).2, ?_⟩
  rw [hzip, acceptedPcm_concat]
  exact h.step hr hstep

end Runs

/-- **Feed acceptance is exact and atomic.**  In every state that calls and resets lead to, every feed
through the public interface accepts its buffer or nothing, counts what it accepted, and hands
precisely that to the Mel frontend; a feed that accepted nothing and left the stream open left the
frontend and the hash as they were.  So the Mel frontend of a live stream received, since the last
reset, the left padding once and then the samples its caller handed in for good, in order. -/
theorem feed_acceptance_exact [Zero α] (eng : Engine α φ ε γ κ) (clearKv : κ → κ) (maxEvents : ℕ)
    (device : Device ε γ κ) (calls : List Call) (s : Stream α φ ε γ κ) (os : List CallResponse)
    (hrun : runSteps (callStep eng clearKv) (Stream.create maxEvents device) calls = some (s, os)) :
    HandedIn eng s (acceptedPcm (sinceReset (calls.zip os))) ∧
      ∀ buf s' status consumed, streamFeedPcm16 eng s buf = some (s', .feed status consumed) →
        FeedAccounted eng s s' buf status consumed := by
  obtain ⟨device', hsince⟩ := exists_sinceReset hrun
  have hr := (runSteps_moves (opReady_create eng True maxEvents device') (Or.inl trivial) hsince).2
  have hhanded := handedIn_run hsince
  have hzip : ((sinceReset (calls.zip os)).map Prod.fst).zip
      ((sinceReset (calls.zip os)).map Prod.snd) = sinceReset (calls.zip os) := by
    rw [← List.unzip_fst, ← List.unzip_snd, List.zip_unzip]
  rw [hzip] at hhanded
  exact ⟨hhanded, fun buf s' status consumed h => streamFeedPcm16_accounted hr h⟩

/-- A second of audio in a queue of one event is accepted although the decoder stalls; the next second
is refused. -/
theorem feed_acceptance_exact_stalled : ∃ s s' os,
    runSteps (callStep (plainEngine defaultSchedule) id) (Stream.create 1 plainDevice)
      [.op (feedZeros 16000)] = some (s, os) ∧
    HandedIn (plainEngine defaultSchedule) s (List.replicate 16000 0) ∧
    FeedAccounted (plainEngine defaultSchedule) s s' (.data (List.replicate 16000 0)) .queueFull 0 := by
  obtain ⟨s', os, hrun, hos, -⟩ := exists_pacedRun (plainEngine_runs defaultSchedule) 1
    [feedZeros 16000, feedZeros 16000] (by simp [TotalFits])
  simp only [List.map_cons, feedZeros_paced, List.map_nil] at hos
  have hmodel : (pacedRun (plainEngine defaultSchedule) 1 plainDevice
      [.feed false 16000, .feed false 16000]).2 = [.feed .queueFull 16000, .feed .queueFull 0] := by
    decide +kernel
  obtain ⟨s, r, os', hfirst, hrest, hcons⟩ := runSteps_cons_eq_some.mp hrun
  obtain ⟨r', hsecond, hlast⟩ := runSteps_singleton.mp hrest
  rw [← hos, hmodel, hlast] at hcons
  obtain ⟨rfl, hr'⟩ := List.cons.inj hcons
  obtain rfl := List.singleton_injective hr'
  have hcalls : runSteps (callStep (plainEngine defaultSchedule) id) (Stream.create 1 plainDevice)
      [.op (feedZeros 16000)] = some (s, [.op (.feed .queueFull 16000)]) :=
    runSteps_singleton.mpr ⟨_, by rw [callStep, hfirst]; rfl, rfl⟩
  obtain ⟨hhanded, hfeed⟩ := feed_acceptance_exact (plainEngine defaultSchedule) id 1 plainDevice
    [.op (feedZeros 16000)] s [.op (.feed .queueFull 16000)] hcalls
  refine ⟨s, s', _, hcalls, ?_, hfeed _ s' _ _ hsecond⟩
  have hall : ∀ n : ℕ, acceptedPcm (sinceReset ([.op (feedZeros n)].zip
      [.op (.feed .queueFull n)])) = List.replicate n 0 := by
    intro n
    have htake : (List.replicate n (0 : ℤ)).take n = List.replicate n 0 :=
      List.take_of_length_le (le_of_eq List.length_replicate)
    exact (List.append_nil _).trans htake
  rwa [hall] at hhanded

end Voxtral
