import Voxtral.Api.VersionedStructs
import Voxtral.Stream.Acceptance
import Voxtral.Stream.Drain
import Voxtral.Stream.EventCounts
import Voxtral.Stream.ResetLaw

/-!
# What the metrics of a stream count

`voxtral_stream_get_metrics` copies counters that the stages of the pipeline keep for themselves.  After any
calls and resets, they describe the calls since the last reset: the samples the caller handed in, the events
it polled or that still wait for it, and the progress of the three stages, of which none is ahead of the one
it reads from.
-/

namespace Voxtral

variable {α φ ε γ κ : Type*}

/-! ## The accessors -/

/-- What `voxtral_stream_get_metrics` reads besides the stream: the counters of the context, and three
doubles as their bits. -/
structure ContextMetrics where
  decoderKvWraps : ℤ
  decoderKvEvictions : ℤ
  decoderKvBytesMoved : ℤ
  pipelineRtf : ℕ
  backlogFinalMs : ℕ
  backlogSlopeMsPerS : ℕ

/-- What the accessors of a stream return for `voxtral_stream_get_metrics`. -/
def metricsSource (s : Stream α φ ε γ κ) (context : ContextMetrics) : StreamMetricsSource where
  samplesReceived := s.lifecycle.totalSamplesReceived
  audioDurationMs := s.lifecycle.totalSamplesReceived * 1000 / sampleRate
  encoderFrames := s.frontend.enc.emitted
  adapterGroups := s.decoder.adapterGroupsCommitted
  decoderSteps := s.decoder.decoderSteps
  tokenEvents := s.events.tokenEvents
  partialEvents := s.events.partialEvents
  decoderKvWraps := context.decoderKvWraps
  decoderKvEvictions := context.decoderKvEvictions
  decoderKvBytesMoved := context.decoderKvBytesMoved
  pipelineRtf := context.pipelineRtf
  backlogFinalMs := context.backlogFinalMs
  backlogSlopeMsPerS := context.backlogSlopeMsPerS

/-- The counters a caller finds in its structure are those of `streamGetMetrics`, if the context counts the
moves of the decoder's K/V ring. -/
lemma metricsSource_value {χ : Type*} (s : Stream α φ ε γ (DecoderKv χ)) (rtf final slope : ℕ) :
    let m := streamGetMetrics s
    (metricsSource s ⟨m.decoderKvWraps, m.decoderKvEvictions, m.decoderKvBytesMoved, rtf, final, slope⟩).value =
      ⟨[m.audioSamplesAccepted, m.audioDurationMs, m.encoderFrames, m.adapterGroups, m.decoderSteps,
        m.tokenEvents, m.partialEvents, m.decoderKvWraps, m.decoderKvEvictions, m.decoderKvBytesMoved, rtf,
        final, slope].flatMap (leBytes 8)⟩ := by
  simp only [StreamMetricsSource.value, metricsSource, streamGetMetrics, Int.toNat_natCast]

/-! ## The samples -/

section Samples

variable [Zero α] {eng : Engine α φ ε γ κ} {s s' : Stream α φ ε γ κ}

/-- A finish receives no samples. -/
lemma finishInternal_totalReceived {status : Status} (h : Counted s)
    (hfinish : finishInternal eng s = some (s', status)) :
    s'.lifecycle.totalSamplesReceived = s.lifecycle.totalSamplesReceived := by
  have hpump : ∀ {t : Stream α φ ε γ κ}, Counted t →
      (pumpIncremental eng t).1.lifecycle.totalSamplesReceived = t.lifecycle.totalSamplesReceived :=
    fun ht => (pumpIncremental_steps ht.within).frame.totalReceived
  have hfail : ∀ (t : Stream α φ ε γ κ) (st : Status),
      (failStream t st).lifecycle.totalSamplesReceived = t.lifecycle.totalSamplesReceived := by
    intro t st
    obtain ⟨_, happ, -⟩ := failStream_appends t st
    exact happ.totalReceived
  have hcomplete : ∀ t : Stream α φ ε γ κ,
      (completeStream t).lifecycle.totalSamplesReceived = t.lifecycle.totalSamplesReceived := by
    intro t
    obtain ⟨_, happ, -⟩ := completeStream_appends t
    exact happ.totalReceived
  cases finishInternal_call hfinish with
  | ended | finishing => rfl
  | failed => rfl
  | stalled => exact hpump h
  | pumpFailed => exact (hfail _ _).trans (hpump h)
  | live _ _ hpath =>
    have hresumed := (resumed_frame eng h.within).totalReceived
    have hcounted := h.resumed eng
    rw [← hresumed]
    cases hpath with
    | empty => exact hcomplete _
    | @frontendFailed _ t _ hflush =>
      exact (hfail _ _).trans (finishFrontend_frontendChange hflush).1.totalReceived
    | @pumpFailed _ t hflush =>
      have ht := (hcounted.flushed hflush).tailStart
      exact (hfail _ _).trans ((hpump ht).trans (finishFrontend_frontendChange hflush).1.totalReceived)
    | @completed _ t hflush =>
      have ht := (hcounted.flushed hflush).tailStart
      exact (hcomplete _).trans
        ((hpump ht).trans (finishFrontend_frontendChange hflush).1.totalReceived)

/-- A null buffer is never received. -/
lemma feedNull_totalReceived {count : ℕ} {status : Status} (h : Counted s)
    (hfeed : feedCommon eng s (.null count) = some (s', status)) :
    s'.lifecycle.totalSamplesReceived = s.lifecycle.totalSamplesReceived := by
  have hpump : (pumpIncremental eng s).1.lifecycle.totalSamplesReceived =
      s.lifecycle.totalSamplesReceived := (pumpIncremental_steps h.within).frame.totalReceived
  cases feedCommon_call hfeed with
  | closed => rfl
  | stalled => exact hpump
  | pumpFailed => exact hpump
  | refused _ _ _ lifecycle _ _ htotal => exact htotal.trans (resumed_frame eng h.within).totalReceived
  | admitted hadmitted => exact absurd hadmitted.2.2 id

/-- A call receives what its caller hands in for good. -/
lemma streamStep_totalReceived {op : Op} {r : Response} (hr : OpReady eng True s) (h : Counted s)
    (hstep : streamStep eng s op = some (s', r)) :
    s'.lifecycle.totalSamplesReceived =
      s.lifecycle.totalSamplesReceived + (acceptedBy op r).length := by
  cases op with
  | feed buf =>
    obtain ⟨⟨t, status⟩, hfeed, ht⟩ := Option.map_eq_some_iff.mp hstep
    obtain ⟨-, hr'⟩ := Prod.mk.inj ht
    obtain ⟨status', consumed, rfl⟩ : ∃ status' consumed, r = .feed status' consumed := ⟨_, _, hr'.symm⟩
    have haccount := streamFeedPcm16_accounted hr hstep
    rw [haccount.total, acceptedBy, List.length_take]
    congr 1
    cases buf with
    | data samples =>
      have hcount : consumed = 0 ∨ consumed = samples.length := haccount.count
      change consumed = min consumed samples.length
      omega
    | null count =>
      have hsame := feedNull_totalReceived h hfeed
      have hconsumed := (Response.feed.inj hr').2
      rw [hsame, Nat.sub_self] at hconsumed
      rw [← hconsumed]
      rfl
  | poll =>
    obtain ⟨_, heq, -⟩ := streamPollEvent_eq s
    have hs' : (streamPollEvent s).1 = s' := congrArg Prod.fst (Option.some.inj hstep)
    rw [← hs', heq]
    rfl
  | cancel =>
    obtain ⟨_, happ, -⟩ := cancelInternal_appends s
    have hs' : (cancelInternal s).1 = s' := congrArg Prod.fst (Option.some.inj hstep)
    rw [← hs', happ.totalReceived]
    rfl
  | finish =>
    obtain ⟨⟨t, status⟩, hfinish, ht⟩ := Option.map_eq_some_iff.mp hstep
    obtain ⟨rfl, rfl⟩ := Prod.mk.inj ht
    exact finishInternal_totalReceived h hfinish

end Samples

/-! ## Runs -/

/-- The metrics describe the calls of a history that ended in a stream of `maxEvents` events. -/
structure MetricsCount (maxEvents : ℕ) (s : Stream α φ ε γ κ) (history : List (Op × Response))
    (m : StreamMetricsSource) : Prop where
  samples : m.samplesReceived = (acceptedPcm history).length
  duration : m.audioDurationMs = (acceptedPcm history).length * 1000 / sampleRate
  /-- Every event was polled or is queued. -/
  emitted : s.events.eventsEmitted =
    (polledEvents (history.map Prod.snd)).length + s.events.queue.length
  tokens : m.tokenEvents = (polledEvents (history.map Prod.snd)).countP (fun x => x.1.isToken) +
    s.events.queue.countP StreamEvent.isToken
  partials : m.partialEvents = (polledEvents (history.map Prod.snd)).countP (fun x => x.1.isPartial) +
    s.events.queue.countP StreamEvent.isPartial
  /-- A text revision is an event of its own, or was counted as coalesced: it replaced a queued snapshot, or was
  dropped at a full queue that held none. -/
  revisions : m.partialEvents + s.events.partialEventsCoalesced = s.decoder.partialRevision
  /-- Every decoder step has delivered its token, but for the one whose token is stashed. -/
  steps : m.decoderSteps = m.tokenEvents + s.decoder.pending.toList.length
  encoded : m.encoderFrames = encodedFrames s.trace
  adapted : downsampleFactor * m.adapterGroups ≤ m.encoderFrames
  decoded : m.decoderSteps ≠ 0 → promptLength - 1 + m.decoderSteps ≤ m.adapterGroups
  watermark : s.events.queue.length ≤ s.events.eventQueueHighWatermark
  bounded : s.events.eventQueueHighWatermark ≤ maxEvents + terminalEventHeadroom

section Runs

variable [Zero α] {eng : Engine α φ ε γ κ} {clearKv : κ → κ} {s : Stream α φ ε γ κ} {maxEvents : ℕ}

/-- After every run of calls on a new stream, its counters are counted and its samples are those handed
in. -/
lemma counted_run {device : Device ε γ κ} {ops : List Op} {os : List Response}
    (hrun : runSteps (streamStep eng) (Stream.create maxEvents device) ops = some (s, os)) :
    Counted s ∧ s.lifecycle.totalSamplesReceived = (acceptedPcm (ops.zip os)).length := by
  have hinv := runSteps_induction (P := fun s ops os => os.length = ops.length ∧
      OpReady eng True s ∧ Counted s ∧
        s.lifecycle.totalSamplesReceived = (acceptedPcm (ops.zip os)).length) ?_
    ⟨rfl, opReady_create eng True maxEvents device, counted_create maxEvents device, rfl⟩ hrun
  · exact hinv.2.2
  rintro s ops os op s' r ⟨hlength, hr, hcounted, htotal⟩ hstep
  have hzip : (ops ++ [op]).zip (os ++ [r]) = ops.zip os ++ [(op, r)] :=
    List.zip_append hlength.symm
  refine ⟨by rw [List.length_append, List.length_append, hlength]; rfl,
    (streamStep_moves hr (Or.inl trivial) hstep).2, hcounted.step hstep, ?_⟩
  rw [hzip, acceptedPcm_concat, List.length_append, ← htotal]
  exact streamStep_totalReceived hr hcounted hstep

/-- One public event for each event. -/
lemma length_publicEvents (n : ℕ) (es : List StreamEvent) : (publicEvents n es).length = es.length := by
  have hmap := congrArg List.length (map_fst_publicEvents n es)
  rwa [List.length_map] at hmap

/-- The public forms of events do not change what is counted about them. -/
lemma countP_publicEvents (p : StreamEvent → Bool) (n : ℕ) (es : List StreamEvent) :
    (publicEvents n es).countP (fun x => p x.1) = es.countP p := by
  have hmap := List.countP_map (p := p) (f := Prod.fst) (l := publicEvents n es)
  rw [map_fst_publicEvents] at hmap
  exact hmap.symm

end Runs

/-- **The metrics are true.**  After any calls and resets, `voxtral_stream_get_metrics` reports, for the calls
since the last reset: the samples handed in, the TOKEN events and snapshots that were polled or are queued,
one decoder step for each TOKEN event and for the stashed token, and an encoder, an adapter and a decoder none
of which is ahead of the stage before it.  The queue never held more events than its limit and the terminal
headroom. -/
theorem metrics_of_calls [Zero α] (eng : Engine α φ ε γ κ) (clearKv : κ → κ) (maxEvents : ℕ)
    (device : Device ε γ κ) (context : ContextMetrics) (calls : List Call) (s : Stream α φ ε γ κ)
    (os : List CallResponse)
    (hrun : runSteps (callStep eng clearKv) (Stream.create maxEvents device) calls = some (s, os)) :
    MetricsCount maxEvents s (sinceReset (calls.zip os)) (metricsSource s context) := by
  obtain ⟨device', hsince⟩ := exists_sinceReset hrun
  obtain ⟨hcounted, htotal⟩ := counted_run hsince
  have hpolled := polledEvents_create hsince
  have hzip : ((sinceReset (calls.zip os)).map Prod.fst).zip
      ((sinceReset (calls.zip os)).map Prod.snd) = sinceReset (calls.zip os) := by
    rw [← List.unzip_fst, ← List.unzip_snd, List.zip_unzip]
  rw [hzip] at htotal
  have htally := hcounted.tallied
  have hmoves := (runSteps_moves (opReady_create eng True maxEvents device') (Or.inl trivial) hsince).1
  have hcap : s.events.maxEvents = maxEvents :=
    Moves.maxEvents hmoves (opReady_create eng True maxEvents device').within
  refine ⟨htotal, ?_, ?_, ?_, ?_, hcounted.revisions, ?_, ?_, ?_, ?_, htally.watermark, ?_⟩
  · exact congrArg (fun n => n * 1000 / sampleRate) htotal
  · rw [hpolled, length_publicEvents, htally.emitted, List.length_append]
  · rw [hpolled, countP_publicEvents, ← List.countP_append]
    exact htally.tokens
  · rw [hpolled, countP_publicEvents, ← List.countP_append]
    exact htally.partials
  · exact congrArg Int.ofNat hcounted.steps
  · exact congrArg Int.ofNat hcounted.encoded
  · have hgroups : downsampleFactor * s.decoder.adapterGroupsCommitted ≤ s.frontend.enc.emitted :=
      (Nat.mul_le_mul_left _ hcounted.adapted).trans (Nat.mul_div_le _ _)
    change ((downsampleFactor : ℕ) : ℤ) * (s.decoder.adapterGroupsCommitted : ℤ) ≤
      (s.frontend.enc.emitted : ℤ)
    exact_mod_cast hgroups
  · intro hsome
    have hsteps : s.decoder.decoderSteps ≠ 0 := fun hzero => hsome (congrArg Int.ofNat hzero)
    have hprefill : s.decoder.decoderPrefillDone = true := by
      by_contra hfresh
      exact hsteps (hcounted.decoded.fresh (by simpa using hfresh))
    have hwithin := hcounted.decoded.within hprefill
    change ((promptLength - 1 + s.decoder.decoderSteps : ℕ) : ℤ) ≤ s.decoder.adapterGroupsCommitted
    exact_mod_cast hwithin
  · rw [← hcap]
    exact htally.bounded

/-- A second of audio into a queue of 64 events, and one poll. -/
theorem metrics_of_calls_poll : ∃ s os,
    runSteps (callStep (plainEngine defaultSchedule) id) (Stream.create 64 plainDevice)
      [.op (feedZeros 16000), .op .poll] = some (s, os) ∧
    (let m := metricsSource s ⟨0, 0, 0, 0, 0, 0⟩
    MetricsCount 64 s (sinceReset ([.op (feedZeros 16000), .op .poll].zip os)) m ∧
      (m.encoderFrames, m.adapterGroups, m.decoderSteps, m.tokenEvents, m.partialEvents) =
        (176, 44, 6, 6, 6)) := by
  obtain ⟨s, os, hrun, -, halike⟩ := exists_pacedRun (plainEngine_runs defaultSchedule) 64
    [feedZeros 16000, .poll] (by simp [TotalFits])
  simp only [List.map_cons, feedZeros_paced, poll_paced, List.map_nil] at halike
  have hmodel : let m := (pacedRun (plainEngine defaultSchedule) 64 plainDevice
      [.feed false 16000, .poll]).1
      (m.frontend.enc.emitted, m.decoder.adapterGroupsCommitted, m.decoder.decoderSteps,
        m.events.tokenEvents, m.events.partialEvents) = (176, 44, 6, 6, 6) := by
    decide +kernel
  simp only [halike.emitted, halike.decoder, halike.events, Prod.mk.injEq] at hmodel
  obtain ⟨hframes, hgroups, hsteps, htokens, hpartials⟩ := hmodel
  have hcalls := callStep_ops id hrun
  refine ⟨s, _, hcalls, metrics_of_calls (plainEngine defaultSchedule) id 64 plainDevice
    ⟨0, 0, 0, 0, 0, 0⟩ _ s _ hcalls, ?_⟩
  simp only [metricsSource, hframes, hgroups, hsteps, htokens, hpartials]
  rfl

end Voxtral
