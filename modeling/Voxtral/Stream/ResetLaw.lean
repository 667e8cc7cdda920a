import Voxtral.Decoder.StepGraph
import Voxtral.Stream.PacedModel
import Voxtral.Stream.Twins

/-!
# A reset stream and a new one

What a stream did before `voxtral_stream_reset_internal` cannot be told from what it does behind it:
after any history of calls, warmups and resets the reset stream and a new stream on another device are
twins, and every sequence of calls observes the same on both.
-/

namespace Voxtral

variable {α φ ε γ χ : Type*}

/-! ## The decoder K/V of a context -/

/-- The K/V state of the decoder in a context: the ring record, its `bytes_moved`, and the keys and
values on the device. -/
structure DecoderKv (χ : Type*) where
  ring : DecoderKvRing
  bytesMoved : ℕ := 0
  rows : χ

/-- `clear_kv_cache`: the record starts over at the configured capacity, and nothing is erased. -/
def clearKvCache (configuredCapacity : ℕ) (kv : DecoderKv χ) : DecoderKv χ where
  ring := ⟨configuredCapacity, 0, 0, 0, 0, 0⟩
  rows := kv.rows

/-- `voxtral_stream_metrics`, without the measured times. -/
structure StreamMetrics where
  audioSamplesAccepted : ℕ
  audioDurationMs : ℕ
  encoderFrames : ℕ
  adapterGroups : ℕ
  decoderSteps : ℕ
  tokenEvents : ℕ
  partialEvents : ℕ
  decoderKvWraps : ℕ
  decoderKvEvictions : ℕ
  decoderKvBytesMoved : ℕ
  deriving DecidableEq, Repr

/-- `voxtral_stream_get_metrics`. -/
def streamGetMetrics (s : Stream α φ ε γ (DecoderKv χ)) : StreamMetrics where
  audioSamplesAccepted := s.lifecycle.totalSamplesReceived
  audioDurationMs := s.lifecycle.totalSamplesReceived * 1000 / sampleRate
  encoderFrames := s.frontend.enc.emitted
  adapterGroups := s.decoder.adapterGroupsCommitted
  decoderSteps := s.decoder.decoderSteps
  tokenEvents := s.events.tokenEvents
  partialEvents := s.events.partialEvents
  decoderKvWraps := s.device.decKv.ring.wraps
  decoderKvEvictions := s.device.decKv.ring.evictions
  decoderKvBytesMoved := s.device.decKv.bytesMoved

/-! ## Warmup -/

/-- Encoder rows of a warmup (`warm_encoder_rows`). -/
def warmEncoderRows : ℕ := promptLength * downsampleFactor

/-- Mel frames of a warmup (`warm_mel_frames`). -/
def warmMelFrames : ℕ := warmEncoderRows * 2

/-- `voxtral_encoder_stream_warmup` on an encoder and its device, where `silence` is the zero Mel frame
and `allocated` the result of `encoder_kv_alloc`.  It sees no other part of a stream, so the graphs run on
a scratch stream; the decoder records of the last step are its arguments. -/
def encoderStreamWarmup (eng : Engine α φ ε γ (DecoderKv χ)) (configuredCapacity : ℕ) (silence : φ)
    (allocated : Bool) (enc : EncoderStream φ) (device : Device ε γ (DecoderKv χ)) :
    EncoderStream φ × Device ε γ (DecoderKv χ) × Bool :=
  let enc := encoderStreamReset enc
  if !allocated then (enc, device, false)
  else
    let scratch : Stream α φ ε γ (DecoderKv χ) :=
      { frontend :=
          { melFe := {}
            enc := { enc with
              melTail := List.replicate warmMelFrames silence
              tailBase := 0
              stableMel := warmMelFrames
              melHistory := List.replicate warmMelFrames silence } }
        device := device }
    let driven := encoderKvDrive eng scratch false
    let committed :=
      if driven.2 ∧ driven.1.frontend.enc.emitted = warmEncoderRows then
        adapterCommit eng driven.1 0 promptLength
      else (driven.1, false)
    let s := committed.1
    if !committed.2 then (encoderStreamReset s.frontend.enc, s.device, false)
    else
      -- `voxtral_ctx_decoder_begin_incremental`
      let begun := { s with
        device := decoderResetIncremental (clearKvCache configuredCapacity) s.device }
      let prefilled := decoderPrefill eng begun
      let stepped :=
        if prefilled.2 then
          let r := decoderStep eng { prefilled.1 with decoder := { prefilled.1.decoder with
            decoderPrevToken := promptIds.getD (promptLength - 1) 0
            decoderPosition := promptLength - 1 } }
          (r.1, r.2.isSome)
        else prefilled
      (encoderStreamReset stepped.1.frontend.enc,
        decoderResetIncremental (clearKvCache configuredCapacity) stepped.1.device, stepped.2)

/-- A stream, and whether its warmup is complete (`lifecycle.warmup_complete`, which a reset keeps). -/
structure WarmStream (α φ ε γ κ : Type*) where
  stream : Stream α φ ε γ κ
  warmupComplete : Bool := false

/-- `voxtral_stream_warmup_internal`. -/
def warmupInternal (eng : Engine α φ ε γ (DecoderKv χ)) (configuredCapacity : ℕ) (silence : φ)
    (allocated : Bool) (w : WarmStream α φ ε γ (DecoderKv χ)) :
    WarmStream α φ ε γ (DecoderKv χ) × Status :=
  let s := w.stream
  if w.warmupComplete then (w, .ok)
  else if s.lifecycle.state ≠ .created ∨ s.lifecycle.totalSamplesReceived ≠ 0 then
    let msg := "warmup requires a fresh production incremental stream"
    ({ w with stream := setError s .invalidState msg }, .invalidState)
  else
    let r := encoderStreamWarmup eng configuredCapacity silence allocated s.frontend.enc s.device
    let s := { s with frontend := { s.frontend with enc := r.1 }, device := r.2.1 }
    if !r.2.2 then
      ({ w with stream := setError s .backendError "production graph warmup failed" }, .backendError)
    else
      (⟨clearError { s with frontend := { s.frontend with encPushedFrames := 0 } }, true⟩, .ok)

/-! ## Histories -/

/-- A new stream with these parameters on a device whose decoder K/V was just cleared
(`voxtral_stream_create_from_context_internal`). -/
def Stream.createWith (params : StreamParams) (maxEvents configuredCapacity : ℕ)
    (device : Device ε γ (DecoderKv χ)) : Stream α φ ε γ (DecoderKv χ) :=
  { (Stream.create maxEvents (decoderResetIncremental (clearKvCache configuredCapacity) device) :
      Stream α φ ε γ (DecoderKv χ)) with
    params := params
    frontend := { melFe := { retainHistory := params.retainMelHistory } } }

/-- What can happen to a stream: a call, a warmup, or a reset. -/
inductive HistoryCall
  | op (op : Op)
  | warmup (allocated : Bool)
  | reset

/-- What it returns. -/
inductive HistoryResponse
  | op (response : Response)
  | warmup (status : Status)
  | reset (status : Status)

/-- Answer one of these. -/
def historyStep [Zero α] (eng : Engine α φ ε γ (DecoderKv χ)) (configuredCapacity : ℕ) (silence : φ)
    (w : WarmStream α φ ε γ (DecoderKv χ)) :
    HistoryCall → Option (WarmStream α φ ε γ (DecoderKv χ) × HistoryResponse)
  | .op op => (streamStep eng w.stream op).map fun r => ({ w with stream := r.1 }, .op r.2)
  | .warmup allocated =>
    let r := warmupInternal eng configuredCapacity silence allocated w
    some (r.1, .warmup r.2)
  | .reset =>
    some ({ w with stream := resetInternal (clearKvCache configuredCapacity) w.stream }, .reset .ok)

/-- What a history leaves as it was created. -/
structure CreatedWith (p : StreamParams) (maxEvents : ℕ) (s : Stream α φ ε γ (DecoderKv χ)) :
    Prop where
  within : DecoderWithin s
  params : s.params = p
  maxEvents : s.events.maxEvents = maxEvents
  retainHistory : s.frontend.melFe.retainHistory = p.retainMelHistory

section History

variable {eng : Engine α φ ε γ (DecoderKv χ)} {params : StreamParams} {maxEvents capacity : ℕ}
  {silence : φ} {s s' : Stream α φ ε γ (DecoderKv χ)} {w w' : WarmStream α φ ε γ (DecoderKv χ)}

/-- A new stream was created with its parameters. -/
lemma createdWith_createWith (params : StreamParams) (maxEvents capacity : ℕ)
    (device : Device ε γ (DecoderKv χ)) :
    CreatedWith params maxEvents (Stream.createWith params maxEvents capacity device :
      Stream α φ ε γ (DecoderKv χ)) := by
  refine ⟨⟨Nat.zero_le _, ?_, ?_, ?_⟩, rfl, rfl, rfl⟩
  · intro hprefill
    cases hprefill
  · intro _
    exact ⟨rfl, rfl⟩
  · intro _ hpending
    cases hpending

/-- A reset makes the stream that a creation on its device makes. -/
lemma CreatedWith.reset (h : CreatedWith params maxEvents s) (capacity : ℕ) :
    resetInternal (clearKvCache capacity) s = Stream.createWith params maxEvents capacity s.device := by
  rw [resetInternal_eq, h.params, h.maxEvents, h.retainHistory]
  rfl

/-- A warmup keeps it. -/
lemma CreatedWith.warmup (h : CreatedWith params maxEvents w.stream) (allocated : Bool) :
    CreatedWith params maxEvents (warmupInternal eng capacity silence allocated w).1.stream := by
  have hwithin : ∀ t : Stream α φ ε γ (DecoderKv χ), t.decoder = w.stream.decoder → DecoderWithin t :=
    fun t ht => h.within.of_decoder ht rfl rfl rfl rfl rfl
  unfold warmupInternal
  dsimp only
  split_ifs
  · exact h
  all_goals exact ⟨hwithin _ rfl, h.params, h.maxEvents, h.retainHistory⟩

/-- So does every other step of a history. -/
lemma CreatedWith.step [Zero α] (h : CreatedWith params maxEvents w.stream) {call : HistoryCall}
    {o : HistoryResponse} (hstep : historyStep eng capacity silence w call = some (w', o)) :
    CreatedWith params maxEvents w'.stream := by
  cases call with
  | op op =>
    obtain ⟨⟨t, r⟩, hop, ht⟩ := Option.map_eq_some_iff.mp hstep
    obtain ⟨rfl, rfl⟩ := Prod.mk.inj ht
    have hkept : Kept w.stream t := Kept.step ⟨h.within, rfl, rfl, fun _ => rfl⟩ hop
    obtain ⟨fed, hfed⟩ := streamStep_melFed h.within hop
    exact ⟨hkept.within, hkept.params.trans h.params, hkept.maxEvents.trans h.maxEvents,
      hfed.retainHistory.trans h.retainHistory⟩
  | warmup allocated =>
    obtain ⟨rfl, rfl⟩ := Prod.mk.inj (Option.some.inj hstep)
    exact h.warmup allocated
  | reset =>
    obtain ⟨rfl, rfl⟩ := Prod.mk.inj (Option.some.inj hstep)
    dsimp only
    rw [h.reset capacity]
    exact createdWith_createWith params maxEvents capacity _

end History

/-! ## The law -/

/-- What can be observed of a run: the answers, the records with statuses, tokens, transcript and work
counters, and the metrics. -/
structure Observation where
  responses : List Response
  lifecycle : Lifecycle
  decoder : Decoder
  events : Events
  metrics : StreamMetrics

/-- The observation of a run that ended in `s` with these answers. -/
def observe (s : Stream α φ ε γ (DecoderKv χ)) (responses : List Response) : Observation where
  responses := responses
  lifecycle := s.lifecycle
  decoder := s.decoder
  events := s.events
  metrics := streamGetMetrics s

/-- Observe the run of some calls. -/
def observeRun [Zero α] (eng : Engine α φ ε γ (DecoderKv χ)) (s : Stream α φ ε γ (DecoderKv χ))
    (ops : List Op) : Option Observation :=
  (runSteps (streamStep eng) s ops).map fun r => observe r.1 r.2

section Law

variable [Zero α] {eng : Engine α φ ε γ (DecoderKv χ)} {params : StreamParams}
  {maxEvents capacity : ℕ} {silence : φ}

omit [Zero α] in
/-- New streams on two devices are twins. -/
lemma createWith_twins {device device' : Device ε γ (DecoderKv χ)}
    (hbackend : (∀ k, eng.submitFails k = false) ∨ device'.submits = device.submits) :
    Twins eng (Stream.createWith params maxEvents capacity device)
      (Stream.createWith params maxEvents capacity device') := by
  refine ⟨⟨rfl, rfl, rfl, rfl, rfl, hbackend, ?_, ?_, ?_⟩, rfl⟩
  · intro hprefill
    cases hprefill
  all_goals exact fun _ hbelow => absurd hbelow (Nat.not_lt_zero _)

omit [Zero α] in
/-- Twins whose decoder K/V started with the same record report the same metrics. -/
lemma Twins.metrics {base base' s t : Stream α φ ε γ (DecoderKv χ)} (h : Twins eng s t)
    (hs : Kept base s) (ht : Kept base' t)
    (hring : base'.device.decKv.ring = base.device.decKv.ring)
    (hmoved : base'.device.decKv.bytesMoved = base.device.decKv.bytesMoved) :
    streamGetMetrics t = streamGetMetrics s := by
  have hkv : t.device.decKv.ring = s.device.decKv.ring ∧
      t.device.decKv.bytesMoved = s.device.decKv.bytesMoved := by
    cases hprefill : s.decoder.decoderPrefillDone with
    | true =>
      rw [h.decKv hprefill]
      exact ⟨rfl, rfl⟩
    | false =>
      have hprefill' : t.decoder.decoderPrefillDone = false := by rw [h.decoder, hprefill]
      rw [hs.idle hprefill, ht.idle hprefill']
      exact ⟨hring, hmoved⟩
  unfold streamGetMetrics
  rw [h.lifecycle, h.decoder, h.events, h.frontend, hkv.1, hkv.2]

/-- After any history of calls, warmups and resets, a reset stream answers every sequence of calls as a
new stream does whose device is in any state: the statuses, the consumed counts, the events, the tokens,
the transcript and the work counters are the same.  The backend of the two has to be the same, which says
that it fails no graph, or that it is as many graphs away from the next failure. -/
theorem reset_as_new (eng : Engine α φ ε γ (DecoderKv χ)) (params : StreamParams)
    (maxEvents capacity : ℕ) (silence : φ) (device device' : Device ε γ (DecoderKv χ))
    {history : List HistoryCall} {os : List HistoryResponse} {w : WarmStream α φ ε γ (DecoderKv χ)}
    (hrun : runSteps (historyStep eng capacity silence)
      ⟨Stream.createWith params maxEvents capacity device, false⟩ history = some (w, os))
    (hbackend : (∀ k, eng.submitFails k = false) ∨ device'.submits = w.stream.device.submits)
    (ops : List Op) :
    observeRun eng (resetInternal (clearKvCache capacity) w.stream) ops =
      observeRun eng (Stream.createWith params maxEvents capacity device') ops := by
  have hw : CreatedWith params maxEvents w.stream :=
    runSteps_induction (P := fun w _ _ => CreatedWith params maxEvents w.stream)
      (fun _ _ _ _ _ _ hw hstep => hw.step hstep)
      (createdWith_createWith params maxEvents capacity device) hrun
  rw [hw.reset capacity]
  generalize w.stream.device = used at hbackend
  have hstart : ∀ d : Device ε γ (DecoderKv χ),
      Kept (Stream.createWith params maxEvents capacity d)
        (Stream.createWith params maxEvents capacity d : Stream α φ ε γ (DecoderKv χ)) := by
    intro d
    exact ⟨(createdWith_createWith params maxEvents capacity d).within, rfl, rfl, fun _ => rfl⟩
  have hkept : ∀ d : Device ε γ (DecoderKv χ), ∀ t os,
      runSteps (streamStep eng) (Stream.createWith params maxEvents capacity d) ops = some (t, os) →
        Kept (Stream.createWith params maxEvents capacity d) t := by
    intro d t os hops
    exact runSteps_induction (P := fun t _ _ => Kept _ t) (fun _ _ _ _ _ _ ht hstep => ht.step hstep)
      (hstart d) hops
  have hmatched : Matched eng (Stream.createWith params maxEvents capacity used)
      (Stream.createWith params maxEvents capacity used)
      (Stream.createWith params maxEvents capacity device') :=
    ⟨createWith_twins hbackend, hstart used⟩
  have hlock := LockStep.run (R := Matched eng (Stream.createWith params maxEvents capacity used))
    (fun _ _ op h => streamStep_twins h op) hmatched ops
  unfold observeRun
  have hused := hkept used
  have hnew := hkept device'
  generalize runSteps (streamStep eng) (Stream.createWith params maxEvents capacity used) ops = x
    at hlock hused
  generalize runSteps (streamStep eng) (Stream.createWith params maxEvents capacity device') ops = y
    at hlock hnew
  cases hlock with
  | none => rfl
  | some h =>
    rename_i a b
    obtain ⟨s, os⟩ := a
    obtain ⟨t, os'⟩ := b
    obtain ⟨rfl, htwins⟩ := h
    have hmetrics := htwins.twins.metrics (hused s _ rfl) (hnew t _ rfl) rfl rfl
    have hsame : observe t os' = observe s os' := by
      unfold observe
      rw [htwins.twins.lifecycle, htwins.twins.decoder, htwins.twins.events, hmetrics]
    exact congrArg some hsame.symm

/-- The plain engine with a decoder that keeps its ring record as `run_decoder_prefill` and
`run_decoder_step` do. -/
def ringEngine : Engine ℤ Unit Unit Unit (DecoderKv Unit) :=
  let append := fun (ring : DecoderKvRing) (position n : ℕ) =>
    ((decoderKvPlan ring position n).map ring.commitPlan).getD ring
  { sampleOf := id
    melFrame := fun _ => ()
    encoderFrame := fun _ => ()
    adapterGroup := fun _ => ()
    prefill := fun ids _ => ⟨append ⟨decWindow, 0, 0, 0, 0, 0⟩ 0 ids.length, 0, ()⟩
    decoderStep := fun kv _ position _ => (0, ⟨append kv.ring position 1, 0, ()⟩)
    tokenizer := (plainEngine defaultSchedule).tokenizer
    schedule := defaultSchedule
    finishPhysical := 4
    finishPhysical_mem := defaultSchedule.physical_mem
    submitFails := fun _ => false }

/-- A device whose decoder has already wrapped `wraps` times. -/
def ringDevice (wraps : ℕ) : Device Unit Unit (DecoderKv Unit) where
  encOutRing := fun _ => ⟨0, ()⟩
  audioEmbRing := fun _ => ⟨0, ()⟩
  decKv := ⟨⟨decWindow, 0, 0, 0, wraps, 0⟩, 0, ()⟩

/-- A warmed up stream that was cancelled, with the event still in its queue. -/
theorem reset_as_new_cancelled :
    ∃ w os, runSteps (historyStep ringEngine decWindow ())
        ⟨Stream.createWith {} 1 decWindow (ringDevice 0), false⟩ [.warmup true, .op .cancel] =
          some (w, os) ∧
      w.warmupComplete = true ∧ w.stream.lifecycle.state = .cancelled ∧
      observeRun ringEngine (resetInternal (clearKvCache decWindow) w.stream) [.poll, .finish] =
        observeRun ringEngine (Stream.createWith {} 1 decWindow (ringDevice 3)) [.poll, .finish] := by
  refine ⟨_, _, rfl, ?_, ?_, ?_⟩
  · decide +kernel
  · decide +kernel
  · have hrun : runSteps (historyStep ringEngine decWindow ())
        ⟨Stream.createWith {} 1 decWindow (ringDevice 0), false⟩ [.warmup true, .op .cancel] =
          some _ := rfl
    exact reset_as_new ringEngine {} 1 decWindow () (ringDevice 0) (ringDevice 3) hrun
      (.inl fun _ => rfl) _

end Law

end Voxtral
