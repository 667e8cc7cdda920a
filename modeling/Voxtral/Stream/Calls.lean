import Voxtral.Stream.FeedOutcome

/-!
# Calls as chains of transitions

Every call but a poll is a chain of transitions (`streamStep_transitions`), so an invariant of all
runs is shown for one transition, and for a poll (`stream_invariant`).  The events a caller polled are
the history variable `polled` of the stream (`polledEvents_eq`).
-/

namespace Voxtral

open Relation

variable {α φ ε γ κ : Type*} {eng : Engine α φ ε γ κ} {late : Prop} {s s' : Stream α φ ε γ κ}

/-! ## Finish -/

variable [Zero α]

variable (eng) (late) in
/-- A completed stream. -/
lemma completeStream_outcome (hw : DecoderWithin s) (hlive : s.Live) (transcript : Bytes)
    (tokens : List ℤ) (htranscript : transcript = s.decoder.partialText)
    (htokens : tokens = s.decoder.tokens)
    (htotal : s.lifecycle.totalSamplesReceived = s.frontend.realSamples.length)
    (hfinished : s.frontend.realSamples ≠ [] → Finished eng late s) :
    let t := completeStream
      { s with decoder := { s.decoder with transcript := transcript, tokens := tokens } }
    Transitions eng late s t ∧ OpReady eng late t := by
  intro t
  have hstep : Transition eng late s t := .complete s hlive transcript tokens htranscript htokens
    htotal
  have hstate : t.lifecycle.state = .completed := rfl
  have hdead : ¬ t.Live := by simp [Stream.Live, hstate]
  obtain ⟨es, happ, -⟩ := completeStream_appends
    { s with decoder := { s.decoder with transcript := transcript, tokens := tokens } }
  have hfrontend : t.frontend = s.frontend := happ.frontend
  have hdecoder : t.decoder = { s.decoder with transcript := transcript, tokens := tokens } :=
    happ.decoder
  refine ⟨.single hstep, hstep.within hw, fun h => absurd h hdead, ?_, fun h => absurd h hdead,
    fun _ hsamples => ?_⟩
  · rw [hstate]
    decide
  · rw [hfrontend] at hsamples
    refine (hfinished hsamples).congr hfrontend (congrArg Device.encOutRing happ.device) ?_ ?_ ?_ ?_
    all_goals rw [hdecoder]

/-- The frontend part of a finish finalizes the Mel frontend. -/
lemma finishFrontend_frontendChange {out : Option String}
    (h : finishFrontend eng s = some (s', out)) :
    FrontendChange s s' ∧ s'.frontend.melFe.finalized = true := by
  unfold finishFrontend at h
  obtain ⟨t, hpad, h⟩ := Option.bind_eq_some_iff.mp h
  obtain ⟨r, -, h⟩ := Option.bind_eq_some_iff.mp h
  obtain ⟨melFe, hfinish, h⟩ := Option.map_eq_some_iff.mp h
  have hfinal := melFrontendFinish_finalized hfinish
  have hmel := (ensureLeftPad_frontendChange hpad).trans (FrontendChange.of_quiet t
    { t.frontend with melFe := melFe } t.device.encOutRing t.device.submits
    t.lifecycle.lastStatus t.lifecycle.lastError List.prefix_rfl List.prefix_rfl fun _ => hfinal)
  have hdrain := drainMelToEncoder_frontendChange eng
    { t with frontend := { t.frontend with melFe := melFe } } true
  have hend := encoderStreamFinish_frontendChange eng (drainMelToEncoder eng
    { t with frontend := { t.frontend with melFe := melFe } } true).1
  simp only at h
  split_ifs at h
  · obtain ⟨rfl, -⟩ := Prod.mk.inj h
    exact ⟨hmel.trans hdrain, hdrain.finalized hfinal⟩
  all_goals
    obtain ⟨rfl, -⟩ := Prod.mk.inj h
    exact ⟨hmel.trans (hdrain.trans hend), hend.finalized (hdrain.finalized hfinal)⟩

variable (eng) (late) in
/-- The exception handler of a finish. -/
lemma finishThrew_outcome (what : String) (hw : DecoderWithin s) (hlive : s.Live) :
    Transitions eng late s (finishThrew s what).1 ∧ OpReady eng late (finishThrew s what).1 := by
  have herror : Continues eng late s (setError s .backendError ("inference threw: " ++ what)) :=
    setError_continues s _ _
  obtain ⟨hfail, hready⟩ := failStream_outcome eng late .backendError
    (Transitions.within herror.transitions hw) (herror.live.mpr hlive)
  exact ⟨herror.transitions.trans hfail, hready⟩

/-- The flushed encoder is within reach of an adapter that had caught up. -/
lemma Flushed.withinReach {t : Stream α φ ε γ κ} (hs : StreamReady eng late s) (hsync : Synced s)
    (hflushed : Flushed eng t) (hsamples : t.frontend.realSamples = s.frontend.realSamples)
    (hdecoder : t.decoder = s.decoder) : WithinReach t := by
  refine hsync.withinReach_of_growth hdecoder ?_
  rw [hflushed.emitted, hs.emitted, hsamples]
  exact finishGroups_le eng.schedule _

/-- After the flush the rows still to be read are in the encoder ring. -/
lemma Flushed.ringReady (h : Flushed eng s) : RingReady eng s := by
  refine ⟨?_, h.holds⟩
  rw [h.history, h.emitted, melRows, List.length_map, List.length_range, finalFrameCount,
    finishedSignal, List.length_append, List.length_append, List.length_replicate,
    List.length_replicate, show streamLeftPad = 40960 from rfl, length_finished]
  omega

/-- The terminal pump. -/
lemma terminalPump_finished {t : Stream α φ ε γ κ} (hw : DecoderWithin t) (hparams : t.params = {})
    (hflushed : Flushed eng t) (hle : t.decoder.adapterGroupsCommitted ≤ committable t)
    (hreach : late ∨ WithinReach t) (hsamples : t.frontend.realSamples ≠ [])
    (hok : (pumpIncremental eng t).2 = .ok) : Finished eng late (pumpIncremental eng t).1 := by
  have hout := pumpIncremental_outcome eng hw hle
  have hsteps : PumpSteps eng t (pumpIncremental eng t).1 := pumpIncremental_steps hw
  generalize pumpIncremental eng t = r at hok hout hsteps ⊢
  obtain ⟨p, status⟩ := r
  simp only at hok hout hsteps ⊢
  subst hok
  have hframe := hsteps.frame
  have hwp := PumpSteps.within hsteps hw
  obtain ⟨-, hend⟩ := PumpSteps.forward hsteps
  obtain ⟨hnone, hdone, -⟩ := hout.done rfl
  have hc := hout.committed (by decide)
  have hprefill := hout.prefillDone (by decide)
  refine ⟨⟨?_, ?_, ?_⟩, hnone, hreach.imp_right fun hreach => ?_⟩
  · rw [hframe.frontend]
    exact hflushed.history
  · rw [hframe.frontend]
    exact hflushed.emitted
  · rw [hframe.frontend, hframe.encOutRing]
    exact hflushed.holds
  · have hpos : 0 < t.frontend.realSamples.length := List.length_pos_of_ne_nil hsamples
    by_cases heos : p.decoder.decoderEos = true
    · refine ⟨?_, Or.inl heos⟩
      by_contra hfalse
      rw [(hwp.fresh (by simpa using hfalse)).2] at heos
      exact absurd heos (by decide)
    · simp only [Bool.not_eq_true] at heos
      have hlive : t.decoder.decoderEos ≠ true := by
        intro h
        rw [hend h] at heos
        exact absurd heos (by decide)
      have hthrottle := hreach.throttle.resolve_left hlive
      have hall : committable t = finishGroups t.frontend.realSamples.length := by
        unfold committable
        rw [hflushed.emitted] at hthrottle ⊢
        simp only [downsampleFactor, aembRingCap]
        omega
      have hpre : p.decoder.decoderPrefillDone = true := by
        refine hprefill.mpr (Or.inr ?_)
        rw [hall]
        simp only [promptLength, finishGroups]
        omega
      refine ⟨hpre, Or.inr ?_⟩
      rw [caughtUp_of_not_mayStep hwp (hframe.params.trans hparams) hpre heos (hdone hpre).1, hc, hall,
        hframe.frontend]

/-- A stream at the start of its terminal flush. -/
def flushStart (s : Stream α φ ε γ κ) : Stream α φ ε γ κ :=
  { s with
    lifecycle := { s.lifecycle with state := .finishing }
    events := { s.events with finalizingFlush := true } }

/-- The stream the terminal pump starts with. -/
def tailStart (s : Stream α φ ε γ κ) : Stream α φ ε γ κ :=
  { s with decoder := { s.decoder with tokensBeforeFinish := s.decoder.decoderTokensEmitted } }

/-- The stream after a terminal pump that worked off everything, before its last events. -/
def tailEnd (s : Stream α φ ε γ κ) : Stream α φ ε γ κ :=
  { s with
    decoder := { s.decoder with transcript := s.decoder.partialText }
    lifecycle := { s.lifecycle with
      inferenceRuns := s.lifecycle.inferenceRuns + 1
      totalSamplesConsumed := s.lifecycle.totalSamplesReceived } }

/-- The stream without audio, before its last events. -/
def emptyEnd (s : Stream α φ ε γ κ) : Stream α φ ε γ κ :=
  { flushStart s with
    decoder := { s.decoder with transcript := [], tokens := [] }
    lifecycle := { (flushStart s).lifecycle with totalSamplesConsumed := 0 } }

/-- The ways a finish ends a stream behind its backlog drain. -/
inductive FinishPath (eng : Engine α φ ε γ κ) (s : Stream α φ ε γ κ) :
    Stream α φ ε γ κ → Status → Prop
  | empty (hzero : s.lifecycle.totalSamplesReceived = 0) :
      FinishPath eng s (completeStream (emptyEnd s)) .ok
  | frontendFailed (hzero : s.lifecycle.totalSamplesReceived ≠ 0) {t : Stream α φ ε γ κ}
      {what : String} (hfront : finishFrontend eng (flushStart s) = some (t, some what)) :
      FinishPath eng s (finishThrew t what).1 .backendError
  | pumpFailed (hzero : s.lifecycle.totalSamplesReceived ≠ 0) {t : Stream α φ ε γ κ}
      (hfront : finishFrontend eng (flushStart s) = some (t, none))
      (hfail : (pumpIncremental eng (tailStart t)).2 ≠ .ok) :
      FinishPath eng s (finishThrew (pumpIncremental eng (tailStart t)).1
        (pumpIncremental eng (tailStart t)).1.lifecycle.lastError).1 .backendError
  | completed (hzero : s.lifecycle.totalSamplesReceived ≠ 0) {t : Stream α φ ε γ κ}
      (hfront : finishFrontend eng (flushStart s) = some (t, none))
      (hok : (pumpIncremental eng (tailStart t)).2 = .ok) :
      FinishPath eng s (completeStream (tailEnd (pumpIncremental eng (tailStart t)).1)) .ok

/-- A finish of a live stream takes one of the paths. -/
lemma finishLive_path {status : Status} (h : finishLive eng s = some (s', status)) :
    FinishPath eng s s' status := by
  unfold finishLive at h
  simp only at h
  by_cases hzero : s.lifecycle.totalSamplesReceived = 0
  · rw [if_pos hzero] at h
    obtain ⟨rfl, rfl⟩ := Prod.mk.inj (Option.some.inj h)
    exact .empty hzero
  · rw [if_neg hzero] at h
    obtain ⟨⟨t, out⟩, hfront, h⟩ := Option.map_eq_some_iff.mp h
    cases out with
    | some what =>
      obtain ⟨rfl, rfl⟩ := Prod.mk.inj h
      exact .frontendFailed hzero hfront
    | none =>
      simp only at h
      split_ifs at h with hfail
      · obtain ⟨rfl, rfl⟩ := Prod.mk.inj h
        exact .pumpFailed hzero hfront hfail
      · obtain ⟨rfl, rfl⟩ := Prod.mk.inj h
        exact .completed hzero hfront (not_not.mp hfail)

/-- The state of a stream that received samples. -/
lemma StreamReady.received (hs : StreamReady eng late s)
    (hzero : s.lifecycle.totalSamplesReceived ≠ 0) :
    s.frontend.realSamples ≠ [] ∧ s.frontend.leftPadInjected = true := by
  have hsamples : s.frontend.realSamples ≠ [] := by
    intro hnil
    have htotal := hs.total
    rw [hnil] at htotal
    exact hzero htotal
  refine ⟨hsamples, ?_⟩
  by_contra hfalse
  exact hsamples (hs.front.unpadded (by simpa using hfalse))

/-- What the terminal pump starts with. -/
structure TailReady (eng : Engine α φ ε γ κ) (late : Prop) (s t : Stream α φ ε γ κ) : Prop where
  transitions : Transitions eng late s t
  live : t.Live
  within : DecoderWithin t
  change : FrontendChange (flushStart s) t
  finalized : t.frontend.melFe.finalized = true
  flushed : Flushed eng t
  samples : t.frontend.realSamples = s.frontend.realSamples
  committed : t.decoder.adapterGroupsCommitted ≤ committable t
  reach : late ∨ WithinReach t

omit [Zero α] in
/-- The state change of a finish. -/
lemma flushStart_transitions (hlive : s.Live) : Transitions eng late s (flushStart s) :=
  .single (.account (.of_flags s { s.lifecycle with state := .finishing }
    s.events.aggressivePartialCoalescing true s.decoder.tokensBeforeFinish
    (Or.inr ⟨hlive, Or.inr (Or.inr rfl)⟩) (Or.inl rfl)))

/-- The frontend part of a finish as a chain of transitions. -/
lemma finishFrontend_continues (hs : StreamReady eng late s) (hlive : s.Live)
    (hzero : s.lifecycle.totalSamplesReceived ≠ 0) {t : Stream α φ ε γ κ} {out : Option String}
    (hfront : finishFrontend eng (flushStart s) = some (t, out)) :
    Transitions eng late s t ∧ t.Live ∧ FlushOutcome eng (flushStart s) t out := by
  have hflush := finishFrontend_outcome (s := flushStart s) (hs.front.congr rfl rfl)
    (hs.received hzero).2 hs.total hfront
  have hft : Continues eng late (flushStart s) t :=
    (finishFrontend_frontendChange hfront).1.continues (Or.inr (Or.inr rfl)) fun _ => hflush.samples
  exact ⟨(flushStart_transitions hlive).trans hft.transitions,
    hft.live.mpr (Or.inr (Or.inr rfl)), hflush⟩

/-- A frontend that was flushed leaves the decoder a tail to work off. -/
lemma finishFrontend_tailReady (hs : StreamReady eng late s) (hlive : s.Live)
    (hbp : s.events.decoderBackpressured = false)
    (hzero : s.lifecycle.totalSamplesReceived ≠ 0) {t : Stream α φ ε γ κ}
    (hfront : finishFrontend eng (flushStart s) = some (t, none)) : TailReady eng late s t := by
  obtain ⟨htrans, htlive, hflush⟩ := finishFrontend_continues hs hlive hzero hfront
  obtain ⟨hchange, hfinal⟩ := finishFrontend_frontendChange hfront
  have hflushed := hflush.flushed rfl
  have hdecoder : t.decoder = s.decoder := hchange.decoder
  have hsamples : t.frontend.realSamples = s.frontend.realSamples := hflush.samples
  refine ⟨htrans, htlive, Transitions.within htrans hs.within, hchange, hfinal, hflushed, hsamples,
    ?_, (hs.synced hbp).imp_right fun hsync => hflushed.withinReach hs hsync hsamples hdecoder⟩
  have hfloor : consumedFloor t = consumedFloor s := by
    unfold consumedFloor
    rw [hdecoder]
  have hgrow : s.frontend.enc.emitted ≤ t.frontend.enc.emitted := by
    rw [hflushed.emitted, hs.emitted, hsamples]
    exact emittedAt_le_finish _ _
  have hle := hs.committed
  have hdiv := Nat.div_le_div_right (c := downsampleFactor) hgrow
  rw [hdecoder]
  unfold committable at hle ⊢
  rw [hfloor]
  omega

/-- The terminal pump as a chain of transitions. -/
lemma TailReady.pump {t : Stream α φ ε γ κ} (h : TailReady eng late s t) :
    Transitions eng late s (pumpIncremental eng (tailStart t)).1 ∧
      (pumpIncremental eng (tailStart t)).1.Live ∧ DecoderWithin (tailStart t) ∧
      PumpOutcome eng (tailStart t) (pumpIncremental eng (tailStart t)).1
        (pumpIncremental eng (tailStart t)).2 := by
  have htu : Transitions eng late t (tailStart t) := .single (.account (.of_flags t t.lifecycle
    t.events.aggressivePartialCoalescing t.events.finalizingFlush t.decoder.decoderTokensEmitted
    (Or.inl rfl) (Or.inl rfl)))
  have hsu := h.transitions.trans htu
  have hwu : DecoderWithin (tailStart t) := Transitions.within htu h.within
  have hlive : (tailStart t).Live := h.live
  have hreach : late ∨ WithinReach (tailStart t) := h.reach.imp_right fun h => ⟨h.rows, h.throttle⟩
  have hflushed : Flushed eng (tailStart t) :=
    ⟨h.flushed.history, h.flushed.emitted, h.flushed.holds⟩
  have hpump : Continues eng late (tailStart t) (pumpIncremental eng (tailStart t)).1 :=
    pumpIncremental_continues hwu hlive (Or.inl h.finalized) (hreach.imp_right WithinReach.rows)
      hflushed.ringReady
  exact ⟨hsu.trans hpump.transitions, hpump.live.mpr hlive, hwu,
    pumpIncremental_outcome eng hwu h.committed⟩

/-- A finish behind its backlog drain ends the stream. -/
lemma finishLive_outcome {status : Status} (hr : OpReady eng late s)
    (hopen : s.lifecycle.state = .created ∨ s.lifecycle.state = .running)
    (hbp : s.events.decoderBackpressured = false)
    (h : finishLive eng s = some (s', status)) : Transitions eng late s s' ∧ OpReady eng late s' := by
  have hlive := live_of_open hopen
  have hs := hr.live hlive
  cases finishLive_path h with
  | empty hzero =>
    have hsf : Transitions eng late s (flushStart s) := flushStart_transitions hlive
    obtain ⟨htext, htokens, -⟩ := hr.fresh hlive hzero
    set g : Stream α φ ε γ κ := { flushStart s with
      lifecycle := { (flushStart s).lifecycle with totalSamplesConsumed := 0 } } with hg
    have hfg : Continues eng late (flushStart s) g := continues_of_lifecycle (flushStart s)
      { (flushStart s).lifecycle with totalSamplesConsumed := 0 } rfl rfl
    have hnil : g.frontend.realSamples = [] := by
      have htotal := hs.total
      rw [hzero] at htotal
      exact List.eq_nil_of_length_eq_zero htotal.symm
    obtain ⟨hdone, hready⟩ := completeStream_outcome eng late
      (Transitions.within (hsf.trans hfg.transitions) hr.within)
      (hfg.live.mpr (Or.inr (Or.inr rfl))) [] [] htext.symm htokens.symm hs.total
      (fun hne => absurd hnil hne)
    exact ⟨(hsf.trans hfg.transitions).trans hdone, hready⟩
  | @frontendFailed hzero t what hfront =>
    obtain ⟨htrans, htlive, -⟩ := finishFrontend_continues hs hlive hzero hfront
    obtain ⟨hthrew, hready⟩ := finishThrew_outcome eng late what
      (Transitions.within htrans hr.within) htlive
    exact ⟨htrans.trans hthrew, hready⟩
  | @pumpFailed hzero t hfront hfail =>
    obtain ⟨htrans, hplive, -, -⟩ := (finishFrontend_tailReady hs hlive hbp hzero hfront).pump
    obtain ⟨hthrew, hready⟩ := finishThrew_outcome eng late
      (pumpIncremental eng (tailStart t)).1.lifecycle.lastError
      (Transitions.within htrans hr.within) hplive
    exact ⟨htrans.trans hthrew, hready⟩
  | @completed hzero t hfront hok =>
    have htail := finishFrontend_tailReady hs hlive hbp hzero hfront
    obtain ⟨htrans, hplive, hwu, -⟩ := htail.pump
    have hdone := terminalPump_finished hwu (htail.change.params.trans hs.params)
      ⟨htail.flushed.history, htail.flushed.emitted, htail.flushed.holds⟩ htail.committed
      (htail.reach.imp_right fun h => ⟨h.rows, h.throttle⟩)
      (by rw [show (tailStart t).frontend.realSamples = _ from htail.samples]
          exact (hs.received hzero).1) hok
    have hframe : PumpFrame (tailStart t) (pumpIncremental eng (tailStart t)).1 :=
      (pumpIncremental_steps hwu).frame
    set p := (pumpIncremental eng (tailStart t)).1 with hp
    have htotal : p.lifecycle.totalSamplesReceived = p.frontend.realSamples.length := by
      rw [hframe.totalReceived, hframe.frontend]
      change t.lifecycle.totalSamplesReceived = t.frontend.realSamples.length
      rw [htail.change.totalReceived, htail.samples]
      exact hs.total
    set q : Stream α φ ε γ κ := { p with lifecycle := { p.lifecycle with
      inferenceRuns := p.lifecycle.inferenceRuns + 1
      totalSamplesConsumed := p.lifecycle.totalSamplesReceived } } with hq
    have hpq : Continues eng late p q := continues_of_lifecycle p
      { p.lifecycle with
        inferenceRuns := p.lifecycle.inferenceRuns + 1
        totalSamplesConsumed := p.lifecycle.totalSamplesReceived } rfl rfl
    have hsq := htrans.trans hpq.transitions
    obtain ⟨hend, hready⟩ := completeStream_outcome eng late (Transitions.within hsq hr.within)
      (hpq.live.mpr hplive) q.decoder.partialText q.decoder.tokens rfl rfl htotal
      (fun _ => hdone.congr rfl rfl rfl rfl rfl rfl)
    exact ⟨hsq.trans hend, hready⟩

/-- The finish. -/
lemma finishInternal_outcome {status : Status} (hr : OpReady eng late s)
    (h : finishInternal eng s = some (s', status)) :
    Transitions eng late s s' ∧ OpReady eng late s' := by
  unfold finishInternal at h
  have hopen : ∀ hopen : s.lifecycle.state = .created ∨ s.lifecycle.state = .running,
      (if s.events.decoderBackpressured = true then
        let p := pumpIncremental eng s
        if p.2 = .limitExceeded then some p
        else if p.2 ≠ .ok then
          some (failStream { p.1 with events := { p.1.events with finalizingFlush := true } } p.2,
            p.2)
        else finishLive eng p.1
      else finishLive eng s) = some (s', status) →
        Transitions eng late s s' ∧ OpReady eng late s' := by
    intro hopen h
    have hlive := live_of_open hopen
    by_cases hbp : s.events.decoderBackpressured = true
    · rw [if_pos hbp] at h
      have hpump : Continues eng late s (pumpIncremental eng s).1 :=
        (hr.live hlive).toWorking.pump_continues hlive
      obtain ⟨hout, -, hsynced⟩ := (hr.live hlive).toWorking.pump
      have hplive := hpump.live.mpr hlive
      simp only at h
      by_cases hlimit : (pumpIncremental eng s).2 = .limitExceeded
      · rw [if_pos hlimit] at h
        have hs' := congrArg Prod.fst (Option.some.inj h)
        simp only at hs'
        rw [← hs']
        exact ⟨hpump.transitions, hr.pump hlive hbp (by rw [hlimit]; decide)⟩
      · rw [if_neg hlimit] at h
        by_cases hok : (pumpIncremental eng s).2 = .ok
        · rw [if_neg (by simp [hok])] at h
          obtain ⟨hdone, hready'⟩ := finishLive_outcome (hr.pump hlive hbp (by rw [hok]; decide))
            (by rwa [hpump.state]) (hsynced hok).1 h
          exact ⟨hpump.transitions.trans hdone, hready'⟩
        · rw [if_pos hok] at h
          have hs' := congrArg Prod.fst (Option.some.inj h)
          simp only at hs'
          rw [← hs']
          set p := (pumpIncremental eng s).1 with hp
          have hflag : Transitions eng late p
              { p with events := { p.events with finalizingFlush := true } } :=
            .single (.account (.of_flags p p.lifecycle p.events.aggressivePartialCoalescing true
              p.decoder.tokensBeforeFinish (Or.inl rfl) (Or.inl rfl)))
          have hsp := hpump.transitions.trans hflag
          obtain ⟨hfail, hready'⟩ := failStream_outcome eng late (pumpIncremental eng s).2
            (Transitions.within hsp hr.within)
            (show ({ p with events := { p.events with finalizingFlush := true } } :
              Stream α φ ε γ κ).Live from hplive)
          exact ⟨hsp.trans hfail, hready'⟩
    · rw [if_neg hbp] at h
      exact finishLive_outcome hr hopen (by simpa using hbp) h
  cases hstate : s.lifecycle.state with
  | completed | cancelled =>
    rw [hstate] at h
    obtain ⟨rfl, -⟩ := Prod.mk.inj (Option.some.inj h)
    exact ⟨.refl, hr⟩
  | failed =>
    rw [hstate] at h
    obtain ⟨rfl, -⟩ := Prod.mk.inj (Option.some.inj h)
    exact ⟨(setError_continues s _ _).transitions, Unmoved.ready (.of_lifecycle s _ rfl rfl) hr⟩
  | finishing => exact absurd hstate hr.settled
  | created =>
    rw [hstate] at h
    exact hopen (Or.inl hstate) h
  | running =>
    rw [hstate] at h
    exact hopen (Or.inr hstate) h

/-! ## Cancel and poll -/

/-- The cancellation. -/
lemma cancelInternal_outcome (hr : OpReady eng late s) :
    Transitions eng late s (cancelInternal s).1 ∧ OpReady eng late (cancelInternal s).1 := by
  have hclosed : ∀ status msg, Transitions eng late s (setError s status msg) ∧
      OpReady eng late (setError s status msg) := fun status msg =>
    ⟨(setError_continues s status msg).transitions, Unmoved.ready (.of_lifecycle s _ rfl rfl) hr⟩
  have hopen : ∀ hopen : s.lifecycle.state = .created ∨ s.lifecycle.state = .running,
      (cancelInternal s).1.lifecycle.state = .cancelled →
      Transitions eng late s (cancelInternal s).1 ∧ OpReady eng late (cancelInternal s).1 := by
    intro hopen hcancelled
    have hstep : Transition eng late s (cancelInternal s).1 := .cancel s hopen
    exact ⟨.single hstep, .of_ended (hstep.within hr.within) (Or.inr hcancelled)⟩
  cases hstate : s.lifecycle.state with
  | created => exact hopen (Or.inl hstate) (by simp only [cancelInternal, hstate]; rfl)
  | running => exact hopen (Or.inr hstate) (by simp only [cancelInternal, hstate]; rfl)
  | finishing => exact absurd hstate hr.settled
  | completed =>
    simp only [cancelInternal, hstate]
    exact hclosed _ _
  | cancelled | failed =>
    simp only [cancelInternal, hstate]
    exact ⟨.refl, hr⟩

/-- A poll leaves everything but the queue alone. -/
lemma streamPollEvent_ready (hr : OpReady eng late s) : OpReady eng late (streamPollEvent s).1 := by
  refine Unmoved.ready ?_ hr
  unfold streamPollEvent
  cases hqueue : s.events.queue with
  | nil => exact ⟨⟨rfl, rfl, rfl, rfl, rfl, rfl, rfl, rfl, le_rfl⟩, rfl, rfl, rfl, rfl, rfl⟩
  | cons e rest =>
    refine ⟨⟨rfl, rfl, rfl, rfl, rfl, rfl, rfl, rfl, ?_⟩, rfl, rfl, rfl, rfl, rfl⟩
    rw [hqueue]
    exact Nat.le_succ _

/-! ## Runs -/

/-- Every call but a poll is a chain of transitions, and leaves the stream ready for the next one. -/
theorem streamStep_transitions {op : Op} {r : Response} (hr : OpReady eng late s)
    (hkeep : late ∨ KeepsUp eng s op) (hop : op ≠ .poll)
    (h : streamStep eng s op = some (s', r)) :
    Transitions eng late s s' ∧ OpReady eng late s' := by
  cases op with
  | feed buf => exact streamFeedPcm16_transitions hr hkeep h
  | poll => exact absurd rfl hop
  | finish =>
    obtain ⟨⟨t, status⟩, hfinish, ht⟩ := Option.map_eq_some_iff.mp h
    obtain ⟨rfl, -⟩ := Prod.mk.inj ht
    exact finishInternal_outcome hr hfinish
  | cancel =>
    obtain ⟨rfl, -⟩ := Prod.mk.inj (Option.some.inj h)
    exact cancelInternal_outcome hr

omit [Zero α] in
/-- Transitions are moves without polls. -/
lemma Transitions.moves (h : Transitions eng late s s') : Moves eng late s s' := by
  induction h with
  | refl => exact .refl
  | tail _ hstep ih => exact ih.tail (.call hstep)

/-- Every call leads through moments, and leaves the stream ready for the next one. -/
lemma streamStep_moves {op : Op} {r : Response} (hr : OpReady eng late s)
    (hkeep : late ∨ KeepsUp eng s op) (h : streamStep eng s op = some (s', r)) :
    Moves eng late s s' ∧ OpReady eng late s' := by
  by_cases hop : op = .poll
  · subst hop
    obtain ⟨rfl, -⟩ := Prod.mk.inj (Option.some.inj h)
    exact ⟨.single (.poll s), streamPollEvent_ready hr⟩
  · obtain ⟨htransitions, hready⟩ := streamStep_transitions hr hkeep hop h
    exact ⟨Transitions.moves htransitions, hready⟩

variable (eng) (late) in
/-- A new stream is ready for its first call. -/
lemma opReady_create (maxEvents : ℕ) (device : Device ε γ κ) :
    OpReady eng late (Stream.create maxEvents device) := by
  have hwithin : DecoderWithin (Stream.create maxEvents device : Stream α φ ε γ κ) :=
    { floor := Nat.zero_le _
      started := fun h => absurd h (by simp [Stream.create])
      fresh := fun _ => ⟨rfl, rfl⟩
      stash := fun p hp => absurd hp (by simp [Stream.create]) }
  refine ⟨hwithin, fun _ _ => ⟨rfl, rfl, rfl⟩, by simp [Stream.create], fun _ => ?_, fun h => ?_⟩
  · refine ⟨⟨hwithin, frontReady_create eng maxEvents device, (emittedAt_zero _).symm, rfl, rfl,
      Nat.zero_le _, Nat.zero_le _, rfl, fun h => ?_, fun _ => rfl, Or.inr ⟨?_, ?_⟩⟩, rfl, rfl,
      fun _ => Or.inr ⟨rfl, by simp [committable, Stream.create], ?_, fun h => ?_⟩⟩
    · exact absurd h (by simp [Stream.create])
    · exact Or.inl (Nat.zero_le _)
    · exact Or.inr (by simp [Stream.create])
    · simp [Stream.create]
    · exact absurd h (by simp [Stream.create])
  · exact absurd h (by simp [Stream.create])

/-- The condition on the steps of a run, for its first step and for the rest. -/
lemma keep_cons {op : Op} {ops : List Op} {t : Stream α φ ε γ κ} {r : Response}
    (hkeep : late ∨ RunMeets (streamStep eng) (KeepsUp eng) s (op :: ops))
    (hstep : streamStep eng s op = some (t, r)) :
    (late ∨ KeepsUp eng s op) ∧ (late ∨ RunMeets (streamStep eng) (KeepsUp eng) t ops) :=
  ⟨hkeep.imp_right And.left, hkeep.imp_right fun h => h.2 t r hstep⟩

/-- A run of calls leads through moments. -/
theorem runSteps_moves {ops : List Op} {os : List Response} (hr : OpReady eng late s)
    (hkeep : late ∨ RunMeets (streamStep eng) (KeepsUp eng) s ops)
    (hrun : runSteps (streamStep eng) s ops = some (s', os)) :
    Moves eng late s s' ∧ OpReady eng late s' := by
  induction ops generalizing s os with
  | nil =>
    obtain ⟨rfl, -⟩ := Prod.mk.inj (Option.some.inj hrun)
    exact ⟨.refl, hr⟩
  | cons op ops ih =>
    obtain ⟨t, r, os', hstep, hrest, -⟩ := runSteps_cons_eq_some.mp hrun
    obtain ⟨hfirst, hlater⟩ := keep_cons hkeep hstep
    obtain ⟨hmoves, hready⟩ := streamStep_moves hr hfirst hstep
    obtain ⟨hmoves', hready'⟩ := ih hready hlater hrest
    exact ⟨hmoves.trans hmoves', hready'⟩

omit [Zero α] in
/-- Every moment of a run keeps the bounds of the decoder cursors. -/
lemma Moves.within (h : Moves eng late s s') (hw : DecoderWithin s) : DecoderWithin s' := by
  induction h with
  | refl => exact hw
  | tail _ hmove ih =>
    cases hmove with
    | call hstep => exact hstep.within ih
    | poll =>
      obtain ⟨_, heq, -⟩ := streamPollEvent_eq _
      exact ih.of_decoder (congrArg Stream.decoder heq) rfl rfl rfl rfl rfl

omit [Zero α] in
/-- Invariant rule: what every transition within the decoder bounds and every poll keeps holds at
every moment. -/
theorem Moves.invariant {I : Stream α φ ε γ κ → Prop}
    (hstep : ∀ s s', Transition eng late s s' → DecoderWithin s → I s → I s')
    (hpoll : ∀ s, I s → I (streamPollEvent s).1) (hw : DecoderWithin s) (hs : I s)
    (h : Moves eng late s s') : I s' := by
  induction h with
  | refl => exact hs
  | tail hchain hmove ih =>
    cases hmove with
    | call hlast => exact hstep _ _ hlast (Moves.within hchain hw) ih
    | poll => exact hpoll _ ih

variable (late) in
/-- Invariant rule for the runs of a new stream. -/
theorem stream_invariant {I : Stream α φ ε γ κ → Prop} {maxEvents : ℕ} {device : Device ε γ κ}
    (hstep : ∀ s s', Transition eng late s s' → DecoderWithin s → I s → I s')
    (hpoll : ∀ s, I s → I (streamPollEvent s).1) (hinit : I (Stream.create maxEvents device))
    {ops : List Op} {os : List Response}
    (hkeep : late ∨ RunMeets (streamStep eng) (KeepsUp eng) (Stream.create maxEvents device) ops)
    (hrun : runSteps (streamStep eng) (Stream.create maxEvents device) ops = some (s, os)) :
    I s :=
  Moves.invariant hstep hpoll (opReady_create eng late maxEvents device).within hinit
    (runSteps_moves (opReady_create eng late maxEvents device) hkeep hrun).1

/-! ## Polled events -/

omit [Zero α] in
/-- A transition polls nothing. -/
lemma Transition.polls (h : Transition eng late s s') : s'.events.polled = s.events.polled ∧
    s'.events.publicPollSequence = s.events.publicPollSequence := by
  cases h with
  | pump _ _ _ _ hstep => exact ⟨hstep.frame.polled, hstep.frame.publicPollSequence⟩
  | absorb _ hchange _ => exact ⟨by rw [hchange.events], by rw [hchange.events]⟩
  | account hchange => exact ⟨hchange.polled, hchange.publicPollSequence⟩
  | complete =>
    obtain ⟨_, happ, -⟩ := completeStream_appends _
    exact ⟨happ.polled, happ.publicPollSequence⟩
  | fail =>
    obtain ⟨_, happ, -⟩ := failStream_appends _ _
    exact ⟨happ.polled, happ.publicPollSequence⟩
  | cancel =>
    obtain ⟨_, happ, -⟩ := cancelInternal_appends _
    exact ⟨happ.polled, happ.publicPollSequence⟩

omit [Zero α] in
/-- Transitions poll nothing. -/
lemma Transitions.polls (h : Transitions eng late s s') : s'.events.polled = s.events.polled ∧
    s'.events.publicPollSequence = s.events.publicPollSequence := by
  induction h with
  | refl => exact ⟨rfl, rfl⟩
  | tail _ hstep ih => exact ⟨hstep.polls.1.trans ih.1, hstep.polls.2.trans ih.2⟩

/-- The event a response hands out, with its public form. -/
def Response.polledEvent : Response → Option (StreamEvent × PublicEvent)
  | .poll event => event
  | _ => none

/-- The events the responses hand out, in order. -/
def polledEvents (os : List Response) : List (StreamEvent × PublicEvent) :=
  os.filterMap Response.polledEvent

/-- Events with their public forms, numbered from `n + 1`. -/
def publicEvents (n : ℕ) : List StreamEvent → List (StreamEvent × PublicEvent)
  | [] => []
  | e :: es => (e, publicEvent e (n + 1)) :: publicEvents (n + 1) es

/-- The public events of two lists, the second numbered from where the first ends. -/
lemma publicEvents_append (n : ℕ) (es es' : List StreamEvent) :
    publicEvents n (es ++ es') = publicEvents n es ++ publicEvents (n + es.length) es' := by
  induction es generalizing n with
  | nil => rfl
  | cons e es ih =>
    rw [List.cons_append, publicEvents, publicEvents, ih, List.length_cons, List.cons_append,
      show n + 1 + es.length = n + (es.length + 1) by omega]

/-- Behind the public events are the events. -/
lemma map_fst_publicEvents (n : ℕ) (es : List StreamEvent) :
    (publicEvents n es).map Prod.fst = es := by
  induction es generalizing n with
  | nil => rfl
  | cons e es ih => rw [publicEvents, List.map_cons, ih]

/-- A public event comes from an event of the list and has a sequence number. -/
lemma exists_of_mem_publicEvents {n : ℕ} {es : List StreamEvent} {x : StreamEvent × PublicEvent}
    (h : x ∈ publicEvents n es) : x.1 ∈ es ∧ ∃ sequence, x.2 = publicEvent x.1 sequence := by
  induction es generalizing n with
  | nil => exact absurd h List.not_mem_nil
  | cons e es ih =>
    rcases List.mem_cons.mp h with rfl | h
    · exact ⟨List.mem_cons_self, n + 1, rfl⟩
    · obtain ⟨hmem, hpublic⟩ := ih h
      exact ⟨List.mem_cons_of_mem e hmem, hpublic⟩

/-- A call other than a poll hands out nothing. -/
lemma streamStep_polledEvent {op : Op} {r : Response} (hop : op ≠ .poll)
    (h : streamStep eng s op = some (s', r)) : r.polledEvent = none := by
  cases op with
  | feed buf =>
    obtain ⟨_, -, hr⟩ := Option.map_eq_some_iff.mp h
    rw [← (Prod.mk.inj hr).2]
    rfl
  | poll => exact absurd rfl hop
  | finish =>
    obtain ⟨_, -, hr⟩ := Option.map_eq_some_iff.mp h
    rw [← (Prod.mk.inj hr).2]
    rfl
  | cancel =>
    rw [← (Prod.mk.inj (Option.some.inj h)).2]
    rfl

/-- What the responses hand out, event by event with its public form, are the events polled. -/
theorem polledEvents_eq {ops : List Op} {os : List Response} (hr : OpReady eng True s)
    (hsequence : s.events.publicPollSequence = s.events.polled.length)
    (hrun : runSteps (streamStep eng) s ops = some (s', os)) :
    publicEvents 0 s.events.polled ++ polledEvents os = publicEvents 0 s'.events.polled := by
  induction ops generalizing s os with
  | nil =>
    obtain ⟨rfl, rfl⟩ := Prod.mk.inj (Option.some.inj hrun)
    exact List.append_nil _
  | cons op ops ih =>
    obtain ⟨t, r, os', hstep, hrest, rfl⟩ := runSteps_cons_eq_some.mp hrun
    have hready := (streamStep_moves hr (Or.inl trivial) hstep).2
    by_cases hop : op = .poll
    · subst hop
      have hpolled : streamPollEvent s = (t, r) := Option.some.inj hstep
      cases hqueue : s.events.queue with
      | nil =>
        have hsame : streamPollEvent s = (s, .poll none) := by simp [streamPollEvent, hqueue]
        obtain ⟨rfl, rfl⟩ := Prod.mk.inj (hsame.symm.trans hpolled)
        have hnext := ih hready hsequence hrest
        exact hnext
      | cons e rest =>
        have hpoll : streamPollEvent s =
            ({ s with events := { s.events with
                queue := rest
                polled := s.events.polled ++ [e]
                publicPollSequence := s.events.publicPollSequence + 1 } },
              .poll (some (e, publicEvent e (s.events.publicPollSequence + 1)))) := by
          simp [streamPollEvent, hqueue]
        obtain ⟨rfl, rfl⟩ := Prod.mk.inj (hpoll.symm.trans hpolled)
        have hnext := ih hready (by simp [hsequence]) hrest
        rw [← hnext]
        simp [polledEvents, Response.polledEvent, publicEvents_append, publicEvents, hsequence]
    · have hnone : polledEvents (r :: os') = polledEvents os' := by
        rw [polledEvents, List.filterMap_cons, streamStep_polledEvent hop hstep]
        rfl
      obtain ⟨hpolled, hpublic⟩ := Transitions.polls (streamStep_transitions hr (Or.inl trivial) hop hstep).1
      rw [hnone, ← hpolled]
      exact ih hready (by rw [hpublic, hpolled, hsequence]) hrest

/-- The events a caller of a new stream polled, with their public forms. -/
lemma polledEvents_create {maxEvents : ℕ} {device : Device ε γ κ} {ops : List Op}
    {os : List Response}
    (hrun : runSteps (streamStep eng) (Stream.create maxEvents device) ops = some (s, os)) :
    polledEvents os = publicEvents 0 s.events.polled :=
  polledEvents_eq (opReady_create eng True maxEvents device) rfl hrun

end Voxtral
