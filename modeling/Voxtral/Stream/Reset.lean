import Voxtral.Stream.MelTrace

/-!
# Resets

`voxtral_stream_reset_internal` writes every field of the stream anew but its parameters and its event
capacity, and keeps the device rings as they are.  What is left is a new stream on a used device
(`resetInternal_eq`), so a run of calls and resets is a run of calls since the last reset.
-/

namespace Voxtral

variable {α φ ε γ κ : Type*}

/-! ## The reset -/

/-- `voxtral_encoder_stream_reset`; the K/V ring stays allocated, and is not cleared. -/
def encoderStreamReset (enc : EncoderStream φ) : EncoderStream φ :=
  { enc with
    emitted := 0
    stableMel := 0
    melTail := []
    tailBase := 0
    finalized := false
    melHistory := [] }

/-- `voxtral_ctx_decoder_reset_incremental`, where `clearKv` is `clear_kv_cache`. -/
def decoderResetIncremental (clearKv : κ → κ) (device : Device ε γ κ) : Device ε γ κ :=
  { device with decKv := clearKv device.decKv }

/-- `voxtral_stream_reset_internal`, with the history variables. -/
def resetInternal (clearKv : κ → κ) (s : Stream α φ ε γ κ) : Stream α φ ε γ κ :=
  clearError
    { s with
      frontend := { s.frontend with
        melFe := melFrontendReset s.frontend.melFe
        enc := encoderStreamReset s.frontend.enc
        encPushedFrames := 0
        leftPadInjected := false
        realSamples := [] }
      device := decoderResetIncremental clearKv s.device
      decoder := { s.decoder with
        adapterGroupsCommitted := 0
        adapterCommitCalls := 0
        decoderPrefillDone := false
        decoderPrevToken := 0
        decoderPosition := 0
        decoderSteps := 0
        decoderTokensEmitted := 0
        tokensBeforeFinish := 0
        decoderEos := false
        tokenSequence := 0
        partialRevision := 0
        partialText := []
        partialStableBytes := 0
        pending := none
        tokens := []
        transcript := [] }
      lifecycle := { s.lifecycle with
        totalSamplesReceived := 0
        totalSamplesConsumed := 0
        feedCalls := 0
        inferenceRuns := 0
        cancelRequested := false
        cancelledEmitted := false
        state := .created }
      events := { s.events with
        decoderBackpressured := false
        finalizingFlush := false
        aggressivePartialCoalescing := false
        queue := []
        eventsOverflowed := false
        eventsEmitted := 0
        tokenEvents := 0
        partialEvents := 0
        partialEventsCoalesced := 0
        eventQueueHighWatermark := 0
        eventQueueOverflowAttempts := 0
        publicPollSequence := 0
        polled := [] }
      trace := [] }

/-- A reset leaves a new stream on the device as it was, with the old parameters, event capacity and
history mode. -/
theorem resetInternal_eq (clearKv : κ → κ) (s : Stream α φ ε γ κ) :
    resetInternal clearKv s =
      { (Stream.create s.events.maxEvents (decoderResetIncremental clearKv s.device) :
          Stream α φ ε γ κ) with
        params := s.params
        frontend := { melFe := { retainHistory := s.frontend.melFe.retainHistory } } } := rfl

/-! ## What no call changes -/

section Kept

variable {eng : Engine α φ ε γ κ} {base s s' : Stream α φ ε γ κ} {maxEvents : ℕ}

/-- The settings of a public stream with the event capacity `maxEvents`. -/
structure Settings (maxEvents : ℕ) (s : Stream α φ ε γ κ) : Prop where
  params : s.params = {}
  maxEvents : s.events.maxEvents = maxEvents
  retainHistory : s.frontend.melFe.retainHistory = false

/-- A stream with the parameters and the event capacity of `base`, whose decoder is within its bounds and
has left the K/V of `base` alone so far if it was not prefilled. -/
structure Kept (base s : Stream α φ ε γ κ) : Prop where
  within : DecoderWithin s
  params : s.params = base.params
  maxEvents : s.events.maxEvents = base.events.maxEvents
  idle : s.decoder.decoderPrefillDone = false → s.device.decKv = base.device.decKv

/-- Changes of the records that leave the cursors of the decoder alone. -/
lemma Kept.congr (h : Kept base s) (hdecoder : s'.decoder = { s.decoder with
      tokensBeforeFinish := s'.decoder.tokensBeforeFinish
      tokens := s'.decoder.tokens
      transcript := s'.decoder.transcript })
    (hparams : s'.params = s.params) (hevents : s'.events.maxEvents = s.events.maxEvents)
    (hkv : s'.device.decKv = s.device.decKv) : Kept base s' :=
  ⟨h.within.of_decoder hdecoder rfl rfl rfl rfl rfl, hparams.trans h.params,
    hevents.trans h.maxEvents, fun hp => hkv.trans (h.idle (by rw [hdecoder] at hp; exact hp))⟩

/-- A change of the frontend keeps the settings, and the K/V of a decoder that was not prefilled. -/
lemma Kept.frontend (h : Kept base s) (hchange : FrontendChange s s') : Kept base s' :=
  h.congr (by rw [hchange.decoder]) hchange.params (by rw [hchange.events]) hchange.decKv

/-- Events are appended behind such changes. -/
lemma Kept.appends (h : Kept base s) {t : Stream α φ ε γ κ} {es : List StreamEvent}
    (happ : Appends t s' es) (hdecoder : t.decoder = { s.decoder with
      tokensBeforeFinish := t.decoder.tokensBeforeFinish
      tokens := t.decoder.tokens
      transcript := t.decoder.transcript })
    (hparams : t.params = s.params) (hevents : t.events.maxEvents = s.events.maxEvents)
    (hkv : t.device.decKv = s.device.decKv) : Kept base s' :=
  h.congr (by rw [happ.decoder]; exact hdecoder) (happ.params.trans hparams)
    (happ.maxEvents.trans hevents) (by rw [happ.device, hkv])

/-- A pump that has not prefilled the decoder has not touched its K/V either. -/
lemma PumpStep.idle (hstep : PumpStep eng s s') (hidle : s'.decoder.decoderPrefillDone = false) :
    s.decoder.decoderPrefillDone = false ∧ s'.device.decKv = s.device.decKv := by
  cases hstep with
  | bookkeep | commitGroup | advanceAdapter => exact ⟨hidle, rfl⟩
  | prefill => cases hidle
  | decoderStep hprefill => exact absurd (hprefill.symm.trans hidle) (by decide)
  | deliver p hprefill =>
    have hsame : (deliverPending eng s p).decoder.decoderPrefillDone = s.decoder.decoderPrefillDone := by
      rw [deliverPending_decoder eng s p, decoderAfter]
      split_ifs <;> rfl
    exact absurd (hprefill.symm.trans (hsame.symm.trans hidle)) (by decide)

/-- So do the steps of a pump. -/
lemma Kept.steps (h : Kept base s) (hsteps : PumpSteps eng s s') : Kept base s' := by
  refine ⟨PumpSteps.within hsteps h.within, (PumpSteps.frame hsteps).params.trans h.params,
    (PumpSteps.frame hsteps).maxEvents.trans h.maxEvents, ?_⟩
  induction hsteps with
  | refl => exact h.idle
  | tail _ hstep ih =>
    intro hidle
    obtain ⟨hbefore, hkv⟩ := hstep.idle hidle
    exact hkv.trans (ih hbefore)

variable (eng) in
/-- So does a whole pump. -/
lemma Kept.pump (h : Kept base s) : Kept base (pumpIncremental eng s).1 :=
  h.steps (pumpIncremental_steps h.within)

variable (eng) in
/-- So does a resumption. -/
lemma Kept.resumed (h : Kept base s) : Kept base (resumed eng s) := by
  unfold Voxtral.resumed
  split_ifs
  · exact h.pump eng
  · exact h

/-- So does the slice loop of a feed. -/
lemma Kept.feedSlices (slices : List (List α)) {stalled : Bool} {status : Status}
    (h : Kept base s) (hfeed : feedSlices eng s stalled slices = some (s', status)) :
    Kept base s' := by
  induction slices generalizing s stalled with
  | nil =>
    obtain ⟨rfl, -⟩ := Prod.mk.inj (Option.some.inj hfeed)
    exact h
  | cons slice rest ih =>
    rw [Voxtral.feedSlices] at hfeed
    obtain ⟨⟨t, ok⟩, habsorb, hfeed⟩ := Option.bind_eq_some_iff.mp hfeed
    have ht : Kept base t := h.frontend (absorbSlice_frontendChange habsorb)
    have hpump : Kept base (pumpIncremental eng t).1 := ht.pump eng
    dsimp only at hfeed
    split_ifs at hfeed with hok hstalled hfull hfail
    · obtain ⟨rfl, -⟩ := Prod.mk.inj (Option.some.inj hfeed)
      exact ht
    · exact ih ht hfeed
    · exact ih hpump hfeed
    · rwa [show pumpIncremental eng t = (s', status) from Option.some.inj hfeed] at hpump
    · exact ih hpump hfeed

variable [Zero α]

/-- So does the audio part of a feed. -/
lemma Kept.feedAudio (h : Kept base s) {samples : List ℤ} {status : Status}
    (hfeed : feedAudio eng s samples = some (s', status)) : Kept base s' := by
  rw [feedAudio_eq] at hfeed
  obtain ⟨t, hpad, hfeed⟩ := Option.bind_eq_some_iff.mp hfeed
  obtain ⟨⟨u, st⟩, hslices, hend⟩ := Option.map_eq_some_iff.mp hfeed
  have hstart : Kept base (feedStart s samples.length) := h.congr rfl rfl rfl rfl
  have hu := (hstart.frontend (ensureLeftPad_frontendChange hpad)).feedSlices _ hslices
  have hs' : (feedEnd s.events.aggressivePartialCoalescing samples.length (u, st)).1 = s' :=
    congrArg Prod.fst hend
  rw [← hs']
  unfold feedEnd
  dsimp only
  split_ifs
  all_goals exact hu.congr rfl rfl rfl rfl

/-- So does a feed. -/
lemma Kept.feedCommon (h : Kept base s) {buf : FeedBuffer} {status : Status}
    (hfeed : feedCommon eng s buf = some (s', status)) : Kept base s' := by
  cases feedCommon_call hfeed with
  | closed => exact h.congr rfl rfl rfl rfl
  | stalled => exact (h.pump eng).congr rfl rfl rfl rfl
  | pumpFailed => exact h.pump eng
  | refused => exact (h.resumed eng).congr rfl rfl rfl rfl
  | admitted _ haudio => exact (h.resumed eng).feedAudio haudio

/-- So does every way to end a stream. -/
lemma Kept.finishPath (h : Kept base s) {status : Status} (hpath : FinishPath eng s s' status) :
    Kept base s' := by
  have hfront : ∀ {t : Stream α φ ε γ κ} {out : Option String},
      finishFrontend eng (flushStart s) = some (t, out) → Kept base t := by
    intro t out hflush
    have hstart : Kept base (flushStart s) := h.congr rfl rfl rfl rfl
    exact hstart.frontend (finishFrontend_frontendChange hflush).1
  have htail : ∀ {t : Stream α φ ε γ κ}, finishFrontend eng (flushStart s) = some (t, none) →
      Kept base (pumpIncremental eng (tailStart t)).1 := by
    intro t hflush
    have hstart : Kept base (tailStart t) := (hfront hflush).congr rfl rfl rfl rfl
    exact hstart.pump eng
  cases hpath with
  | empty =>
    obtain ⟨_, happ, -⟩ := completeStream_appends (emptyEnd s)
    exact h.appends happ rfl rfl rfl rfl
  | @frontendFailed _ t what hflush =>
    obtain ⟨_, happ, -⟩ := failStream_appends (setError t .backendError
      ("inference threw: " ++ what)) .backendError
    exact (hfront hflush).appends happ rfl rfl rfl rfl
  | @pumpFailed _ t hflush =>
    obtain ⟨_, happ, -⟩ := failStream_appends (setError (pumpIncremental eng (tailStart t)).1
      .backendError ("inference threw: " ++
        (pumpIncremental eng (tailStart t)).1.lifecycle.lastError)) .backendError
    exact (htail hflush).appends happ rfl rfl rfl rfl
  | @completed _ t hflush =>
    obtain ⟨_, happ, -⟩ := completeStream_appends (tailEnd (pumpIncremental eng (tailStart t)).1)
    exact (htail hflush).appends happ rfl rfl rfl rfl

/-- So does a finish. -/
lemma Kept.finishInternal (h : Kept base s) {status : Status}
    (hfinish : finishInternal eng s = some (s', status)) : Kept base s' := by
  cases finishInternal_call hfinish with
  | ended | failed | finishing => exact h.congr rfl rfl rfl rfl
  | stalled => exact h.pump eng
  | pumpFailed =>
    obtain ⟨_, happ, -⟩ := failStream_appends { (pumpIncremental eng s).1 with
      events := { (pumpIncremental eng s).1.events with finalizingFlush := true } } .backendError
    exact (h.pump eng).appends happ rfl rfl rfl rfl
  | live _ _ hpath => exact (h.resumed eng).finishPath hpath

/-- No call changes the parameters or the event capacity. -/
lemma Kept.step (h : Kept base s) {op : Op} {r : Response}
    (hstep : streamStep eng s op = some (s', r)) : Kept base s' := by
  cases op with
  | feed buf =>
    obtain ⟨⟨t, status⟩, hfeed, ht⟩ := Option.map_eq_some_iff.mp hstep
    have hkept : Kept base t := h.feedCommon hfeed
    rw [← (Prod.mk.inj ht).1]
    dsimp only
    split_ifs
    · obtain ⟨_, happ, -⟩ := failStream_appends (setError
        { t with events := { t.events with finalizingFlush := true } } status
          t.lifecycle.lastError) status
      exact hkept.appends happ rfl rfl rfl rfl
    · exact hkept
  | poll =>
    have hs' : (streamPollEvent s).1 = s' := congrArg Prod.fst (Option.some.inj hstep)
    rw [← hs', streamPollEvent]
    split
    · exact h
    · exact h.congr rfl rfl rfl rfl
  | cancel =>
    obtain ⟨rfl, rfl⟩ := Prod.mk.inj (Option.some.inj hstep)
    obtain ⟨es, happ, -⟩ := cancelInternal_appends s
    exact h.appends happ rfl rfl rfl rfl
  | finish =>
    obtain ⟨⟨t, status⟩, hfinish, ht⟩ := Option.map_eq_some_iff.mp hstep
    obtain ⟨rfl, rfl⟩ := Prod.mk.inj ht
    exact h.finishInternal hfinish

/-- No call changes the settings. -/
lemma streamStep_settings {op : Op} {r : Response} (hw : DecoderWithin s)
    (hs : Settings maxEvents s) (h : streamStep eng s op = some (s', r)) :
    DecoderWithin s' ∧ Settings maxEvents s' := by
  have hkept : Kept s s := ⟨hw, rfl, rfl, fun _ => rfl⟩
  obtain ⟨fed, hfed⟩ := streamStep_melFed hw h
  have hnext := hkept.step h
  exact ⟨hnext.within, hnext.params.trans hs.params, hnext.maxEvents.trans hs.maxEvents,
    hfed.retainHistory.trans hs.retainHistory⟩

omit [Zero α] in
/-- A new stream has its settings. -/
lemma settings_create (maxEvents : ℕ) (device : Device ε γ κ) :
    Settings maxEvents (Stream.create maxEvents device : Stream α φ ε γ κ) :=
  ⟨rfl, rfl, rfl⟩

omit [Zero α] in
/-- A reset public stream is a new one. -/
lemma resetInternal_create {maxEvents : ℕ} (clearKv : κ → κ) (hs : Settings maxEvents s) :
    resetInternal clearKv s =
      Stream.create maxEvents (decoderResetIncremental clearKv s.device) := by
  rw [resetInternal_eq, hs.params, hs.maxEvents, hs.retainHistory]
  rfl

end Kept

/-! ## Runs with resets -/

/-- A call, or a reset. -/
inductive Call
  | op (op : Op)
  | reset

/-- What a call or a reset returns. -/
inductive CallResponse
  | op (response : Response)
  | reset (status : PublicStatus)

/-- Answer a call, or a reset by `voxtral_stream_reset_internal`, which resets in every state but within a
call.  `voxtral_stream_reset`, which refuses a running and a finishing stream, is `streamReset`. -/
def callStep [Zero α] (eng : Engine α φ ε γ κ) (clearKv : κ → κ) (s : Stream α φ ε γ κ) :
    Call → Option (Stream α φ ε γ κ × CallResponse)
  | .op op => (streamStep eng s op).map fun r => (r.1, .op r.2)
  | .reset => some (resetInternal clearKv s, .reset .ok)

section CallRuns

variable [Zero α] {eng : Engine α φ ε γ κ} {clearKv : κ → κ} {s : Stream α φ ε γ κ}
  {maxEvents : ℕ}

/-- A run of calls without a reset. -/
lemma callStep_ops (clearKv : κ → κ) {t : Stream α φ ε γ κ} {ops : List Op} {os : List Response}
    (hrun : runSteps (streamStep eng) s ops = some (t, os)) :
    runSteps (callStep eng clearKv) s (ops.map .op) = some (t, os.map .op) := by
  induction ops generalizing s os with
  | nil =>
    simp only [runSteps_nil, Option.some.injEq, Prod.mk.injEq] at hrun
    obtain ⟨rfl, rfl⟩ := hrun
    rfl
  | cons op ops ih =>
    obtain ⟨s', o, os', hstep, hrest, rfl⟩ := runSteps_cons_eq_some.mp hrun
    refine runSteps_cons_eq_some.mpr ⟨s', .op o, os'.map .op, ?_, ih hrest, rfl⟩
    rw [callStep, hstep]
    rfl

/-- The calls since the last reset, and what they returned. -/
def sinceReset (history : List (Call × CallResponse)) : List (Op × Response) :=
  history.foldl (fun since entry =>
    match entry with
    | (.op op, .op response) => since ++ [(op, response)]
    | _ => []) []

/-- Every run of calls and resets ends like the run of the calls since the last reset, made on a new
stream on the device as the reset found it. -/
theorem exists_sinceReset {device : Device ε γ κ} {calls : List Call} {os : List CallResponse}
    (hrun : runSteps (callStep eng clearKv) (Stream.create maxEvents device) calls = some (s, os)) :
    ∃ device' : Device ε γ κ,
      runSteps (streamStep eng) (Stream.create maxEvents device')
        ((sinceReset (calls.zip os)).map Prod.fst) =
          some (s, (sinceReset (calls.zip os)).map Prod.snd) := by
  have hinv := runSteps_induction (P := fun s calls os => os.length = calls.length ∧
      OpReady eng True s ∧ Settings maxEvents s ∧ ∃ device' : Device ε γ κ,
        runSteps (streamStep eng) (Stream.create maxEvents device')
          ((sinceReset (calls.zip os)).map Prod.fst) =
            some (s, (sinceReset (calls.zip os)).map Prod.snd)) ?_
    ⟨rfl, opReady_create eng True maxEvents device, settings_create maxEvents device, device, rfl⟩
    hrun
  · exact hinv.2.2.2
  rintro s calls os call s' o ⟨hlength, hr, hs, device', hsince⟩ hstep
  have hzip : (calls ++ [call]).zip (os ++ [o]) = calls.zip os ++ [(call, o)] :=
    List.zip_append hlength.symm
  refine ⟨by rw [List.length_append, List.length_append, hlength]; rfl, ?_⟩
  rw [hzip, sinceReset, List.foldl_append]
  cases call with
  | op op =>
    obtain ⟨⟨t, r⟩, hop, ht⟩ := Option.map_eq_some_iff.mp hstep
    obtain ⟨rfl, rfl⟩ := Prod.mk.inj ht
    refine ⟨(streamStep_moves hr (Or.inl trivial) hop).2, (streamStep_settings hr.within hs hop).2,
      device', ?_⟩
    rw [List.foldl_cons, List.foldl_nil, List.map_append, List.map_append]
    exact runSteps_append.mpr ⟨s, _, _, hsince, runSteps_singleton.mpr ⟨r, hop, rfl⟩, rfl⟩
  | reset =>
    obtain ⟨rfl, rfl⟩ := Prod.mk.inj (Option.some.inj hstep)
    rw [resetInternal_create clearKv hs]
    exact ⟨opReady_create eng True maxEvents _, settings_create maxEvents _, _, rfl⟩

end CallRuns

end Voxtral
