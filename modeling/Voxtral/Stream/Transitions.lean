import Voxtral.Stream.PublicApi
import Voxtral.Stream.Pace

/-!
# What a call can do

`Transition` extends the atomic changes of a pump by those of the rest of a call: the frontend takes
samples, counters and flags change, a stream ends.  It records what is known when a pump runs: except
during the finish, the groups the encoder has completed lie within the audio received, and, unless a
feed went on too long behind a stall (`late`), the rows the adapter reads next are still in its ring.
-/

namespace Voxtral

open Relation

variable {α φ ε γ κ : Type*}

/-- The stream has not ended. -/
def Stream.Live (s : Stream α φ ε γ κ) : Prop :=
  s.lifecycle.state = .created ∨ s.lifecycle.state = .running ∨ s.lifecycle.state = .finishing

instance (s : Stream α φ ε γ κ) : Decidable s.Live := by
  unfold Stream.Live
  infer_instance

/-- Counters, flags and the error state changed, or a live stream moved to another live state. -/
structure AccountChange (s s' : Stream α φ ε γ κ) : Prop where
  params : s'.params = s.params
  frontend : s'.frontend = s.frontend
  device : s'.device = s.device
  trace : s'.trace = s.trace
  decoder : s'.decoder =
    { s.decoder with tokensBeforeFinish := s'.decoder.tokensBeforeFinish }
  queue : s'.events.queue = s.events.queue
  polled : s'.events.polled = s.events.polled
  publicPollSequence : s'.events.publicPollSequence = s.events.publicPollSequence
  maxEvents : s'.events.maxEvents = s.events.maxEvents
  state : s'.lifecycle.state = s.lifecycle.state ∨ (s.Live ∧ s'.Live)
  total : s'.lifecycle.totalSamplesReceived = s.lifecycle.totalSamplesReceived ∨
    s'.lifecycle.totalSamplesReceived = s.frontend.realSamples.length

/-- An atomic change of a stream, with what the code has checked when it makes it. -/
inductive Transition (eng : Engine α φ ε γ κ) (late : Prop) :
    Stream α φ ε γ κ → Stream α φ ε γ κ → Prop
  | pump {s s' : Stream α φ ε γ κ} (hlive : s.Live)
      (htime : s.frontend.melFe.finalized = true ∨ InTime s) (hrows : late ∨ RowsInRing s)
      (hring : RingReady eng s) (hstep : PumpStep eng s s') : Transition eng late s s'
  | absorb {s s' : Stream α φ ε γ κ} (hlive : s.Live) (hchange : FrontendChange s s')
      (hsamples : s.frontend.melFe.finalized = true →
        s'.frontend.realSamples = s.frontend.realSamples) : Transition eng late s s'
  | account {s s' : Stream α φ ε γ κ} (hchange : AccountChange s s') : Transition eng late s s'
  /-- The terminal events of a finish; the transcript is the text accumulated so far. -/
  | complete (s : Stream α φ ε γ κ) (hlive : s.Live) (transcript : Bytes) (tokens : List ℤ)
      (htranscript : transcript = s.decoder.partialText) (htokens : tokens = s.decoder.tokens)
      (htotal : s.lifecycle.totalSamplesReceived = s.frontend.realSamples.length) :
      Transition eng late s (completeStream
        { s with decoder := { s.decoder with transcript := transcript, tokens := tokens } })
  | fail (s : Stream α φ ε γ κ) (hlive : s.Live) (status : Status) :
      Transition eng late s (failStream s status)
  | cancel (s : Stream α φ ε γ κ)
      (hstate : s.lifecycle.state = .created ∨ s.lifecycle.state = .running) :
      Transition eng late s (cancelInternal s).1

/-- A chain of transitions. -/
abbrev Transitions (eng : Engine α φ ε γ κ) (late : Prop) :
    Stream α φ ε γ κ → Stream α φ ε γ κ → Prop :=
  ReflTransGen (Transition eng late)

/-- A moment of a run follows the one before by a transition or by a poll. -/
inductive Move (eng : Engine α φ ε γ κ) (late : Prop) :
    Stream α φ ε γ κ → Stream α φ ε γ κ → Prop
  | call {s s' : Stream α φ ε γ κ} (hstep : Transition eng late s s') : Move eng late s s'
  | poll (s : Stream α φ ε γ κ) : Move eng late s (streamPollEvent s).1

/-- A chain of moments. -/
abbrev Moves (eng : Engine α φ ε γ κ) (late : Prop) :
    Stream α φ ε γ κ → Stream α φ ε γ κ → Prop :=
  ReflTransGen (Move eng late)

section Pump

variable {eng : Engine α φ ε γ κ} {late : Prop} {s s' : Stream α φ ε γ κ}

/-! ## Bounds kept by every transition -/

/-- A pump leaves a stream as live as it was. -/
lemma PumpFrame.live (h : PumpFrame s s') : s'.Live ↔ s.Live := by
  unfold Stream.Live
  rw [h.state]

/-- So does a change of the frontend. -/
lemma FrontendChange.live (h : FrontendChange s s') : s'.Live ↔ s.Live := by
  unfold Stream.Live
  rw [h.state]

/-- A pump of a live stream is a chain of transitions. -/
lemma PumpSteps.transitions (h : PumpSteps eng s s') (hlive : s.Live) (hw : DecoderWithin s)
    (htime : s.frontend.melFe.finalized = true ∨ InTime s) (hrows : late ∨ RowsInRing s)
    (hring : RingReady eng s) : Transitions eng late s s' := by
  induction h with
  | refl => exact .refl
  | tail hsteps hstep ih =>
    have hframe := PumpSteps.frame hsteps
    refine ih.tail (.pump (hframe.live.mpr hlive) ?_ ?_ ?_ hstep)
    · rw [hframe.frontend]
      exact htime.imp_right (PumpSteps.inTime hsteps)
    · exact hrows.imp_right (PumpSteps.rowsInRing hsteps hw)
    · refine ⟨?_, ?_⟩
      · rw [hframe.frontend]
        exact hring.seen
      · rw [hframe.frontend, hframe.encOutRing]
        exact hring.holds

/-- The bounds depend on the decoder record only. -/
lemma DecoderWithin.of_decoder (hw : DecoderWithin s) {d : Decoder} (hd : s'.decoder = d)
    (hcommitted : d.adapterGroupsCommitted = s.decoder.adapterGroupsCommitted)
    (hprefill : d.decoderPrefillDone = s.decoder.decoderPrefillDone)
    (hposition : d.decoderPosition = s.decoder.decoderPosition)
    (heos : d.decoderEos = s.decoder.decoderEos) (hpending : d.pending = s.decoder.pending) :
    DecoderWithin s' := by
  subst hd
  have hfloor : consumedFloor s' = consumedFloor s := by
    unfold consumedFloor
    rw [hprefill, hposition]
  refine ⟨?_, ?_, ?_, ?_⟩
  · rw [hfloor, hcommitted]
    exact hw.floor
  · rw [hprefill, hposition]
    exact hw.started
  · rw [hprefill, hpending, heos]
    exact hw.fresh
  · rw [hpending, hposition, hcommitted, heos]
    exact hw.stash

/-! ## The end of a stream -/

/-- The events `es` were appended to the queue, and nothing else changed but counters, flags and the
lifecycle. -/
structure Appends (s s' : Stream α φ ε γ κ) (es : List StreamEvent) : Prop where
  params : s'.params = s.params
  frontend : s'.frontend = s.frontend
  decoder : s'.decoder = s.decoder
  device : s'.device = s.device
  polled : s'.events.polled = s.events.polled
  publicPollSequence : s'.events.publicPollSequence = s.events.publicPollSequence
  maxEvents : s'.events.maxEvents = s.events.maxEvents
  queue : s'.events.queue = s.events.queue ++ es
  totalReceived : s'.lifecycle.totalSamplesReceived = s.lifecycle.totalSamplesReceived
  trace : s'.trace = s.trace ++ es.map fun e => .enqueued e (acceptedSamples s)

/-- Events behind events. -/
lemma Appends.trans {s₁ s₂ s₃ : Stream α φ ε γ κ} {es es' : List StreamEvent}
    (h : Appends s₁ s₂ es) (h' : Appends s₂ s₃ es') : Appends s₁ s₃ (es ++ es') where
  params := h'.params.trans h.params
  frontend := h'.frontend.trans h.frontend
  decoder := h'.decoder.trans h.decoder
  device := h'.device.trans h.device
  polled := h'.polled.trans h.polled
  publicPollSequence := h'.publicPollSequence.trans h.publicPollSequence
  maxEvents := h'.maxEvents.trans h.maxEvents
  queue := by rw [h'.queue, h.queue, List.append_assoc]
  totalReceived := h'.totalReceived.trans h.totalReceived
  trace := by
    have haccepted : acceptedSamples s₂ = acceptedSamples s₁ := by
      unfold acceptedSamples
      rw [h.frontend]
    rw [h'.trace, h.trace, haccepted, List.map_append, List.append_assoc]

/-- A mandatory event is appended or refused. -/
lemma pushEvent_appends (s : Stream α φ ε γ κ) (e : StreamEvent) :
    ∃ es, Appends s (pushEvent s e).1 es ∧ es.Sublist [e] := by
  rw [pushEvent_eq]
  split_ifs
  · exact ⟨[e], ⟨rfl, rfl, rfl, rfl, rfl, rfl, rfl, rfl, rfl, rfl⟩, List.Sublist.refl _⟩
  · exact ⟨[], ⟨rfl, rfl, rfl, rfl, rfl, rfl, rfl, by simp [overflowed, setError], rfl, by
      simp [overflowed, setError]⟩, List.nil_sublist _⟩

/-- The FINAL_TEXT event of a stream that completes. -/
def finalTextEvent (s : Stream α φ ε γ κ) : StreamEvent :=
  { type := .finalText, text := s.decoder.transcript
    tAudioSamples := s.lifecycle.totalSamplesReceived }

/-- The COMPLETED event of a stream that completes. -/
def completedEvent (s : Stream α φ ε γ κ) : StreamEvent :=
  { type := .completed, tAudioSamples := s.lifecycle.totalSamplesReceived }

/-- A completed stream appends FINAL_TEXT and COMPLETED as far as they fit. -/
lemma completeStream_appends (s : Stream α φ ε γ κ) :
    ∃ es, Appends s (completeStream s) es ∧ es.Sublist [finalTextEvent s, completedEvent s] := by
  obtain ⟨es, happ, hsub⟩ := pushEvent_appends s (finalTextEvent s)
  obtain ⟨es', happ', hsub'⟩ :=
    pushEvent_appends (pushEvent s (finalTextEvent s)).1 (completedEvent s)
  have hboth := happ.trans happ'
  exact ⟨es ++ es', ⟨hboth.params, hboth.frontend, hboth.decoder, hboth.device, hboth.polled,
    hboth.publicPollSequence, hboth.maxEvents, hboth.queue, hboth.totalReceived, hboth.trace⟩, hsub.append hsub'⟩

/-- The ERROR event of a stream that fails. -/
def errorEvent (s : Stream α φ ε γ κ) (status : Status) : StreamEvent :=
  { type := .error, text := s.lifecycle.lastError.toUTF8.toList, errorCode := status
    tAudioSamples := s.lifecycle.totalSamplesReceived }

/-- The CANCELLED event of a stream. -/
def cancelledEvent (s : Stream α φ ε γ κ) : StreamEvent :=
  { type := .cancelled, tAudioSamples := s.lifecycle.totalSamplesReceived }

/-- A failed stream appends its ERROR event, if it fits. -/
lemma failStream_appends (s : Stream α φ ε γ κ) (status : Status) :
    ∃ es, Appends s (failStream s status) es ∧ ∀ e ∈ es, e = errorEvent s status := by
  obtain ⟨es, happ, hsub⟩ := pushEvent_appends s (errorEvent s status)
  exact ⟨es, ⟨happ.params, happ.frontend, happ.decoder, happ.device, happ.polled,
    happ.publicPollSequence, happ.maxEvents, happ.queue, happ.totalReceived, happ.trace⟩,
    fun e he => List.mem_singleton.mp (hsub.subset he)⟩

/-- A cancelled stream appends its CANCELLED event, if it fits. -/
lemma cancelInternal_appends (s : Stream α φ ε γ κ) :
    ∃ es, Appends s (cancelInternal s).1 es ∧ ∀ e ∈ es, e = cancelledEvent s := by
  have hnone : ∀ s' : Stream α φ ε γ κ, s' = { s with lifecycle := s'.lifecycle } →
      s'.lifecycle.totalSamplesReceived = s.lifecycle.totalSamplesReceived →
      ∃ es, Appends s s' es ∧ ∀ e ∈ es, e = cancelledEvent s := by
    intro s' hs' htotal
    rw [hs']
    exact ⟨[], ⟨rfl, rfl, rfl, rfl, rfl, rfl, rfl, by simp, htotal, by simp⟩, by simp⟩
  unfold cancelInternal
  cases s.lifecycle.state with
  | created | running =>
    simp only [clearError]
    split_ifs
    · exact hnone _ rfl rfl
    · obtain ⟨es, happ, hsub⟩ := pushEvent_appends
        { s with
          lifecycle := { s.lifecycle with cancelRequested := true }
          events := { s.events with finalizingFlush := true } } (cancelledEvent s)
      exact ⟨es, ⟨happ.params, happ.frontend, happ.decoder, happ.device, happ.polled,
        happ.publicPollSequence, happ.maxEvents, happ.queue, happ.totalReceived, happ.trace⟩,
        fun e he => List.mem_singleton.mp (hsub.subset he)⟩
  | _ => exact hnone _ rfl rfl

/-- Taking an event moves it from the queue to the polled ones. -/
lemma streamPollEvent_eq (s : Stream α φ ε γ κ) :
    ∃ ev, (streamPollEvent s).1 = { s with events := ev } ∧
      ev.polled ++ ev.queue = s.events.polled ++ s.events.queue := by
  unfold streamPollEvent
  cases hqueue : s.events.queue with
  | nil => exact ⟨s.events, rfl, by rw [hqueue]⟩
  | cons e rest => exact ⟨_, rfl, by simp⟩

/-- Nothing the decoder and its device rings hold changed, and no read or write of them was
recorded. -/
structure QuietChange (s s' : Stream α φ ε γ κ) : Prop where
  decoder : s'.decoder =
    { s.decoder with
      tokensBeforeFinish := s'.decoder.tokensBeforeFinish
      transcript := s'.decoder.transcript }
  audioEmbRing : s'.device.audioEmbRing = s.device.audioEmbRing
  decKv : s'.device.decKv = s.device.decKv
  history : s.frontend.enc.melHistory <+: s'.frontend.enc.melHistory
  trace : ∃ more, s'.trace = s.trace ++ more ∧ ∀ e ∈ more, TraceEntry.IsQuiet e

/-- A quiet change consumes no group. -/
lemma QuietChange.consumedFloor (h : QuietChange s s') : consumedFloor s' = consumedFloor s := by
  unfold Voxtral.consumedFloor
  rw [h.decoder]

/-- Appending events is quiet. -/
lemma Appends.quiet {t : Stream α φ ε γ κ} {es : List StreamEvent} (h : Appends t s' es)
    (hdecoder : t.decoder = { s.decoder with
      tokensBeforeFinish := t.decoder.tokensBeforeFinish, transcript := t.decoder.transcript })
    (hfrontend : t.frontend = s.frontend) (hdevice : t.device = s.device)
    (htrace : t.trace = s.trace) : QuietChange s s' := by
  refine ⟨?_, ?_, ?_, ?_, ⟨_, h.trace.trans (by rw [htrace]), fun e he => ?_⟩⟩
  · rw [h.decoder]
    exact hdecoder
  · rw [h.device, hdevice]
  · rw [h.device, hdevice]
  · have hsame := h.frontend.trans hfrontend
    exact hsame ▸ List.prefix_rfl
  · obtain ⟨x, -, rfl⟩ := List.mem_map.mp he
    trivial

/-- A transition is an atomic change of a pump, or quiet. -/
lemma Transition.pump_or_quiet (h : Transition eng late s s') :
    (s.Live ∧ (s.frontend.melFe.finalized = true ∨ InTime s) ∧ (late ∨ RowsInRing s) ∧
      RingReady eng s ∧ PumpStep eng s s') ∨ QuietChange s s' := by
  cases h with
  | pump hlive htime hrows hring hstep => exact Or.inl ⟨hlive, htime, hrows, hring, hstep⟩
  | absorb _ hchange _ =>
    obtain ⟨runs, htrace, hruns⟩ := hchange.trace
    refine Or.inr ⟨?_, hchange.audioEmbRing, hchange.decKv, hchange.history, runs, htrace,
      fun e he => ?_⟩
    · rw [hchange.decoder]
    · cases e with
      | encoderRun => trivial
      | _ => exact absurd (hruns _ he) id
  | account hchange =>
    refine Or.inr ⟨?_, ?_, ?_, ?_, [], by rw [hchange.trace, List.append_nil], by simp⟩
    · rw [hchange.decoder]
    · rw [hchange.device]
    · rw [hchange.device]
    · exact hchange.frontend ▸ List.prefix_rfl
  | complete _ transcript tokens _ htokens =>
    obtain ⟨_, happ, -⟩ := completeStream_appends
      { s with decoder := { s.decoder with transcript := transcript, tokens := tokens } }
    exact Or.inr (happ.quiet (by rw [htokens]) rfl rfl rfl)
  | fail =>
    obtain ⟨_, happ, -⟩ := failStream_appends _ _
    exact Or.inr (happ.quiet rfl rfl rfl rfl)
  | cancel =>
    obtain ⟨_, happ, -⟩ := cancelInternal_appends _
    exact Or.inr (happ.quiet rfl rfl rfl rfl)

/-- A poll is quiet. -/
lemma streamPollEvent_quiet (s : Stream α φ ε γ κ) : QuietChange s (streamPollEvent s).1 := by
  obtain ⟨ev, heq, -⟩ := streamPollEvent_eq s
  rw [heq]
  exact ⟨rfl, rfl, rfl, List.prefix_rfl, [], by simp, by simp⟩

/-- Every transition keeps the bounds of the decoder cursors. -/
lemma Transition.within (h : Transition eng late s s') (hw : DecoderWithin s) : DecoderWithin s' := by
  cases h with
  | pump _ _ _ _ hstep => exact hstep.within hw
  | absorb _ hchange _ => exact hw.of_decoder hchange.decoder rfl rfl rfl rfl rfl
  | account hchange => exact hw.of_decoder hchange.decoder rfl rfl rfl rfl rfl
  | complete =>
    obtain ⟨_, happ, -⟩ := completeStream_appends _
    exact hw.of_decoder happ.decoder rfl rfl rfl rfl rfl
  | fail =>
    obtain ⟨_, happ, -⟩ := failStream_appends _ _
    exact hw.of_decoder happ.decoder rfl rfl rfl rfl rfl
  | cancel =>
    obtain ⟨_, happ, -⟩ := cancelInternal_appends _
    exact hw.of_decoder happ.decoder rfl rfl rfl rfl rfl

/-- Transitions keep the decoder within its groups. -/
lemma Transitions.within (h : Transitions eng late s s') (hw : DecoderWithin s) : DecoderWithin s' := by
  induction h with
  | refl => exact hw
  | tail _ hstep ih => exact hstep.within ih

/-- The capacity of the queue stays. -/
lemma Transition.maxEvents (h : Transition eng late s s') :
    s'.events.maxEvents = s.events.maxEvents := by
  cases h with
  | pump _ _ _ _ hstep => exact hstep.frame.maxEvents
  | absorb _ hchange _ => rw [hchange.events]
  | account hchange => exact hchange.maxEvents
  | complete =>
    obtain ⟨_, happ, -⟩ := completeStream_appends _
    exact happ.maxEvents
  | fail =>
    obtain ⟨_, happ, -⟩ := failStream_appends _ _
    exact happ.maxEvents
  | cancel =>
    obtain ⟨_, happ, -⟩ := cancelInternal_appends _
    exact happ.maxEvents

/-! ## The history grows -/

/-- A transition only appends to the history. -/
lemma Transition.trace_prefix (h : Transition eng late s s') : s.trace <+: s'.trace := by
  cases h with
  | pump _ _ _ _ hstep => exact hstep.trace_prefix
  | absorb _ hchange _ =>
    obtain ⟨runs, htrace, -⟩ := hchange.trace
    exact ⟨runs, htrace.symm⟩
  | account hchange => exact ⟨[], by rw [hchange.trace, List.append_nil]⟩
  | complete _ transcript tokens =>
    obtain ⟨_, happ, -⟩ := completeStream_appends
      { s with decoder := { s.decoder with transcript := transcript, tokens := tokens } }
    exact ⟨_, happ.trace.symm⟩
  | fail =>
    obtain ⟨_, happ, -⟩ := failStream_appends _ _
    exact ⟨_, happ.trace.symm⟩
  | cancel =>
    obtain ⟨_, happ, -⟩ := cancelInternal_appends _
    exact ⟨_, happ.trace.symm⟩

/-! ## Parts of a call -/

/-- Where a part of a call that does not end the stream leads. -/
structure Continues (eng : Engine α φ ε γ κ) (late : Prop) (s s' : Stream α φ ε γ κ) : Prop where
  transitions : Transitions eng late s s'
  state : s'.lifecycle.state = s.lifecycle.state

/-- A stream that continues is as live as it was. -/
lemma Continues.live (h : Continues eng late s s') : s'.Live ↔ s.Live := by
  unfold Stream.Live
  rw [h.state]

/-- A stream continues from itself. -/
lemma Continues.refl (s : Stream α φ ε γ κ) : Continues eng late s s := ⟨.refl, rfl⟩

/-- Continuing twice. -/
lemma Continues.trans {s₁ s₂ s₃ : Stream α φ ε γ κ} (h : Continues eng late s₁ s₂)
    (h' : Continues eng late s₂ s₃) : Continues eng late s₁ s₃ :=
  ⟨h.transitions.trans h'.transitions, h'.state.trans h.state⟩

/-- A stream continues through a pump. -/
lemma pumpIncremental_continues (hw : DecoderWithin s) (hlive : s.Live)
    (htime : s.frontend.melFe.finalized = true ∨ InTime s) (hrows : late ∨ RowsInRing s)
    (hring : RingReady eng s) : Continues eng late s (pumpIncremental eng s).1 :=
  ⟨PumpSteps.transitions (pumpIncremental_steps hw) hlive hw htime hrows hring,
    (pumpIncremental_steps hw).frame.state⟩

/-- It continues through a change of the frontend. -/
lemma FrontendChange.continues (h : FrontendChange s s') (hlive : s.Live)
    (hsamples : s.frontend.melFe.finalized = true →
      s'.frontend.realSamples = s.frontend.realSamples) : Continues eng late s s' :=
  ⟨.single (.absorb hlive h hsamples), h.state⟩

/-- Counters, flags and the error state may change at any time. -/
lemma AccountChange.of_flags (s : Stream α φ ε γ κ) (lifecycle : Lifecycle)
    (aggressive flush : Bool) (tokensBefore : ℕ)
    (hstate : lifecycle.state = s.lifecycle.state ∨ (s.Live ∧ (lifecycle.state = .created ∨
      lifecycle.state = .running ∨ lifecycle.state = .finishing)))
    (htotal : lifecycle.totalSamplesReceived = s.lifecycle.totalSamplesReceived ∨
      lifecycle.totalSamplesReceived = s.frontend.realSamples.length) :
    AccountChange s
      { s with
        lifecycle := lifecycle
        events := { s.events with
          aggressivePartialCoalescing := aggressive, finalizingFlush := flush }
        decoder := { s.decoder with tokensBeforeFinish := tokensBefore } } :=
  ⟨rfl, rfl, rfl, rfl, rfl, rfl, rfl, rfl, rfl, hstate, htotal⟩

/-- Changes of counters and of the error state. -/
lemma continues_of_lifecycle (s : Stream α φ ε γ κ) (lifecycle : Lifecycle)
    (hstate : lifecycle.state = s.lifecycle.state)
    (htotal : lifecycle.totalSamplesReceived = s.lifecycle.totalSamplesReceived) :
    Continues eng late s { s with lifecycle := lifecycle } :=
  ⟨.single (.account (.of_flags s lifecycle _ _ _ (Or.inl hstate) (Or.inl htotal))), hstate⟩

/-- It continues through the note of an error. -/
lemma setError_continues (s : Stream α φ ε γ κ) (status : Status) (msg : String) :
    Continues eng late s (setError s status msg) :=
  continues_of_lifecycle s { s.lifecycle with lastStatus := status, lastError := msg } rfl rfl

end Pump

end Voxtral
