import Voxtral.Batch.Transcribe
import Voxtral.Lib.Runs

/-!
# A context that hosted streams

The operations of a borrowed stream, as far as they touch the modes of its context: an incremental stream
with the K/V encoder turns the output ring on when it creates its encoder, its prefill routes the decoder
to the audio ring, and a reset routes it back.  Nothing turns the output ring off again.  What the
operations depend on besides (samples, Mel frames, tokens, which graphs fail) is part of the call.
-/

namespace Voxtral

/-! ## The modes -/

/-- `voxtral_ctx_decoder_begin_incremental`. -/
def ContextModes.beginIncremental (modes : ContextModes) : ContextModes :=
  { modes with decAudioSrc := true, decAudioCap := aembRingCap }

/-- `voxtral_ctx_decoder_reset_incremental`: restores batch behavior. -/
def ContextModes.resetIncremental (modes : ContextModes) : ContextModes :=
  { modes with decAudioSrc := false, decAudioCap := 0 }

/-- `voxtral_ctx_set_enc_out_ring_active`. -/
def ContextModes.setEncOutRingActive (modes : ContextModes) (active : Bool) : ContextModes :=
  { modes with wantEncOutRing := active }

/-! ## A borrowed stream -/

/-- A `voxtral_stream` on a borrowed context; `melFe` and `enc` say whether the Mel frontend and the encoder
exist. -/
structure BorrowedStream where
  state : StreamState := .created
  samplesReceived : ℕ := 0
  warmupComplete : Bool := false
  incremental : Bool
  melFe : Bool := false
  enc : Bool := false
  adapterGroupsCommitted : ℕ := 0
  decoderPrefillDone : Bool := false
  decoderBackpressured : Bool := false

/-- The modes of a context and the stream it hosts. -/
structure HostWorld where
  modes : ContextModes := {}
  stream : Option BorrowedStream := none

/-- What `ensure_frontend` and `ensure_encoder` depend on: whether the context has frontend tables, whether
the allocations succeed, and whether the encoder strategy is the K/V encoder. -/
structure SetupChoice where
  tables : Bool
  frontendAllocates : Bool
  encoderAllocates : Bool
  usesKv : Bool

/-- What a pass of `pump_incremental` comes to: the groups committed, or that the adapter fails; whether the
prefill runs; and the status of the decoder stage. -/
structure PumpChoice where
  groups : Option ℕ
  prefillRuns : Bool
  status : Status

/-- `ensure_frontend`. -/
def ensureFrontend (s : BorrowedStream) (choice : SetupChoice) : BorrowedStream × Bool :=
  if s.melFe then (s, true)
  else if !choice.tables then (s, true)
  else if !choice.frontendAllocates then (s, false)
  else ({ s with melFe := true }, true)

/-- `ensure_encoder`. -/
def ensureEncoder (modes : ContextModes) (s : BorrowedStream) (choice : SetupChoice) :
    ContextModes × BorrowedStream × Bool :=
  if s.enc then (modes, s, true)
  else if !s.melFe then (modes, s, true)
  else if !choice.encoderAllocates then (modes, s, false)
  else
    let incremental := s.incremental && choice.usesKv
    (if incremental then modes.setEncOutRingActive true else modes,
      { s with enc := true, incremental }, true)

/-- `pump_incremental`. -/
def hostedPump (modes : ContextModes) (s : BorrowedStream) (choice : PumpChoice) :
    ContextModes × BorrowedStream × Status :=
  if !s.incremental || !s.enc then (modes, s, .ok)
  else
    match choice.groups with
    | none => (modes, s, .backendError)
    | some groups =>
      let s := { s with adapterGroupsCommitted := max s.adapterGroupsCommitted groups }
      if s.decoderPrefillDone then
        (modes, { s with decoderBackpressured := choice.status = .limitExceeded }, choice.status)
      else if s.adapterGroupsCommitted < promptLength - 1 then (modes, s, .ok)
      else if !choice.prefillRuns then (modes.beginIncremental, s, .backendError)
      else
        (modes.beginIncremental,
          { s with
            decoderPrefillDone := true
            decoderBackpressured := choice.status = .limitExceeded },
          choice.status)

/-- A call of `feed_common`: the samples, whether they pass the limits and the conversion, and what the
pumps and the slices come to; a slice is absorbed by frontend and encoder or not. -/
structure FeedChoice where
  null : Bool
  count : ℕ
  admitted : Bool
  converts : Bool
  setup : SetupChoice
  resume : PumpChoice
  slices : List (Bool × PumpChoice)

/-- The slice loop of `feed_common`. -/
def hostedSlices : ContextModes → BorrowedStream → Bool → List (Bool × PumpChoice) →
    ContextModes × BorrowedStream × Status
  | modes, s, backpressured, [] => (modes, s, if backpressured then .limitExceeded else .ok)
  | modes, s, backpressured, (absorbed, pump) :: rest =>
    if !absorbed then (modes, s, .backendError)
    else if backpressured then hostedSlices modes s true rest
    else
      let p := hostedPump modes s pump
      if p.2.2 = .limitExceeded then hostedSlices p.1 p.2.1 true rest
      else if p.2.2 ≠ .ok then p
      else hostedSlices p.1 p.2.1 false rest

/-- `feed_common` behind the admission checks. -/
def hostedFeedAudio (modes : ContextModes) (s : BorrowedStream) (choice : FeedChoice) :
    ContextModes × BorrowedStream × Status :=
  let f := ensureFrontend s choice.setup
  if !f.2 then (modes, f.1, .outOfMemory)
  else if !choice.converts then (modes, f.1, .invalidArgument)
  else
    let e := ensureEncoder modes f.1 choice.setup
    if !e.2.2 then (e.1, e.2.1, .outOfMemory)
    else
      let r := if e.2.1.melFe then hostedSlices e.1 e.2.1 false choice.slices else (e.1, e.2.1, .ok)
      if r.2.2 ≠ .ok ∧ r.2.2 ≠ .limitExceeded then r
      else
        (r.1,
          { r.2.1 with
            samplesReceived := r.2.1.samplesReceived + choice.count
            state := if r.2.1.state = .created then .running else r.2.1.state },
          r.2.2)

/-- `feed_common` behind the resume pump. -/
def hostedFeedAdmit (modes : ContextModes) (s : BorrowedStream) (choice : FeedChoice) :
    ContextModes × BorrowedStream × Status :=
  if choice.null && choice.count != 0 then (modes, s, .invalidArgument)
  else if choice.count = 0 then (modes, s, .ok)
  else if !choice.admitted then (modes, s, .invalidArgument)
  else hostedFeedAudio modes s choice

/-- `feed_common`. -/
def hostedFeed (modes : ContextModes) (s : BorrowedStream) (choice : FeedChoice) :
    ContextModes × BorrowedStream × Status :=
  if s.state ≠ .created ∧ s.state ≠ .running then (modes, s, .invalidState)
  else if s.incremental && s.decoderBackpressured then
    let p := hostedPump modes s choice.resume
    if p.2.2 ≠ .ok then p else hostedFeedAdmit p.1 p.2.1 choice
  else hostedFeedAdmit modes s choice

/-- A call of `voxtral_stream_finish_internal`: whether the frontend is flushed through the encoder, what
the pumps come to, and whether the reference path succeeds. -/
structure FinishChoice where
  setup : SetupChoice
  resume : PumpChoice
  flushes : Bool
  pump : PumpChoice
  referenceRuns : Bool

/-- `voxtral_stream_finish_internal` behind the backlog drain. -/
def hostedFinishLive (modes : ContextModes) (s : BorrowedStream) (choice : FinishChoice) :
    ContextModes × BorrowedStream × Status :=
  if s.samplesReceived = 0 then (modes, { s with state := .completed }, .ok)
  else if !s.melFe then (modes, { s with state := .failed }, .backendError)
  else
    let e := ensureEncoder modes s choice.setup
    if !e.2.2 || !choice.flushes then (e.1, { e.2.1 with state := .failed }, .backendError)
    else if e.2.1.incremental then
      let p := hostedPump e.1 e.2.1 choice.pump
      if p.2.2 ≠ .ok then (p.1, { p.2.1 with state := .failed }, .backendError)
      else (p.1, { p.2.1 with state := .completed }, .ok)
    else if choice.referenceRuns then (e.1, { e.2.1 with state := .completed }, .ok)
    else (e.1, { e.2.1 with state := .failed }, .backendError)

/-- `voxtral_stream_finish_internal`. -/
def hostedFinish (modes : ContextModes) (s : BorrowedStream) (choice : FinishChoice) :
    ContextModes × BorrowedStream × Status :=
  match s.state with
  | .completed | .cancelled => (modes, s, .ok)
  | .failed => (modes, s, .invalidState)
  | .finishing => (modes, s, .busy)
  | .created | .running =>
    if s.incremental && s.decoderBackpressured then
      let p := hostedPump modes s choice.resume
      if p.2.2 = .limitExceeded then p
      else if p.2.2 ≠ .ok then (p.1, { p.2.1 with state := .failed }, p.2.2)
      else hostedFinishLive p.1 p.2.1 choice
    else hostedFinishLive modes s choice

/-- A call of `voxtral_stream_warmup_internal`: how far the encoder warmup gets. -/
structure WarmupChoice where
  setup : SetupChoice
  reachesDecoder : Bool
  succeeds : Bool

/-- `voxtral_encoder_stream_warmup` runs the decoder once and detaches it again. -/
def hostedEncoderWarmup (modes : ContextModes) (choice : WarmupChoice) : ContextModes × Bool :=
  if !modes.wantEncOutRing then (modes, false)
  else if !choice.reachesDecoder then (modes, false)
  else (modes.beginIncremental.resetIncremental, choice.succeeds)

/-- `voxtral_stream_warmup_internal`. -/
def hostedWarmup (modes : ContextModes) (s : BorrowedStream) (choice : WarmupChoice) :
    ContextModes × BorrowedStream × Status :=
  if s.warmupComplete then (modes, s, .ok)
  else if s.state ≠ .created ∨ s.samplesReceived ≠ 0 ∨ s.incremental = false then
    (modes, s, .invalidState)
  else
    let f := ensureFrontend s choice.setup
    if !f.2 then (modes, f.1, .outOfMemory)
    else
      let e := ensureEncoder modes f.1 choice.setup
      if !e.2.2 then (e.1, e.2.1, .outOfMemory)
      else if !e.2.1.enc then (e.1, e.2.1, .backendError)
      else
        let w := hostedEncoderWarmup e.1 choice
        if !w.2 then (w.1, e.2.1, .backendError)
        else (w.1, { e.2.1 with warmupComplete := true }, .ok)

/-- `voxtral_stream_cancel_internal`. -/
def hostedCancel (s : BorrowedStream) : BorrowedStream × Status :=
  match s.state with
  | .completed | .finishing => (s, .invalidState)
  | .cancelled | .failed => (s, .ok)
  | .created | .running => ({ s with state := .cancelled }, .ok)

/-- `voxtral_stream_reset_internal`: the frontend and the encoder stay. -/
def hostedReset (modes : ContextModes) (s : BorrowedStream) : ContextModes × BorrowedStream :=
  (modes.resetIncremental,
    { s with
      state := .created
      samplesReceived := 0
      adapterGroupsCommitted := 0
      decoderPrefillDone := false
      decoderBackpressured := false })

/-! ## Histories -/

/-- An operation on the stream of a context.  `create` names the decoder mode of the environment. -/
inductive HostCall
  | create (incremental : Bool)
  | warmup (choice : WarmupChoice)
  | feed (choice : FeedChoice)
  | finish (choice : FinishChoice)
  | cancel
  | reset
  | destroy

/-- One operation; one live stream per context, and only `create` has none to work on. -/
def HostWorld.step (w : HostWorld) (call : HostCall) : Option (HostWorld × Status) :=
  match call, w.stream with
  | .create incremental, none =>
    let r := hostedReset w.modes { incremental }
    some (⟨r.1, some r.2⟩, .ok)
  | .create _, some _ => some (w, .invalidState)
  | _, none => none
  | .warmup choice, some s =>
    let r := hostedWarmup w.modes s choice
    some (⟨r.1, some r.2.1⟩, r.2.2)
  | .feed choice, some s =>
    let r := hostedFeed w.modes s choice
    some (⟨r.1, some r.2.1⟩, r.2.2)
  | .finish choice, some s =>
    let r := hostedFinish w.modes s choice
    some (⟨r.1, some r.2.1⟩, r.2.2)
  | .cancel, some s => some (⟨w.modes, some (hostedCancel s).1⟩, (hostedCancel s).2)
  | .reset, some s =>
    let r := hostedReset w.modes s
    some (⟨r.1, some r.2⟩, .ok)
  | .destroy, some _ => some (⟨w.modes, none⟩, .ok)

/-! ## Starting the encoder -/

/-- Whether a setup creates the encoder of an incremental stream with the K/V strategy. -/
def SetupChoice.opens (choice : SetupChoice) (s : BorrowedStream) : Bool :=
  !s.enc && (s.melFe || choice.tables && choice.frontendAllocates) && choice.encoderAllocates &&
    s.incremental && choice.usesKv

/-- The stream may be fed or finished. -/
def BorrowedStream.isLive (s : BorrowedStream) : Bool := s.state = .created ∨ s.state = .running

/-- Whether an operation starts the encoder of an incremental stream with the K/V strategy: a warmup of a
fresh stream, an accepted feed, or a finish. -/
def startsEncoder (w : HostWorld) (call : HostCall) : Bool :=
  match call, w.stream with
  | .warmup choice, some s =>
    !s.warmupComplete && (s.state = .created && s.samplesReceived = 0) && choice.setup.opens s
  | .feed choice, some s =>
    s.isLive && choice.count != 0 && !choice.null && choice.admitted && choice.converts &&
      choice.setup.opens s
  | .finish choice, some s =>
    s.isLive && s.samplesReceived != 0 && s.melFe && choice.setup.opens s
  | _, _ => false

/-- The modes of the decoder and an encoder that feeds the ring are there only with the output ring. -/
structure Hosted (modes : ContextModes) (s : BorrowedStream) : Prop where
  audio : modes.decAudioSrc = true → modes.wantEncOutRing = true
  encoder : s.incremental = true → s.enc = true → modes.wantEncOutRing = true

/-- An operation that turns the output ring on if `started`, and does nothing else to it. -/
structure HostedStep (started : Bool) (modes : ContextModes) (s : BorrowedStream)
    (modes' : ContextModes) (s' : BorrowedStream) : Prop where
  want : modes'.wantEncOutRing = (modes.wantEncOutRing || started)
  hosted : Hosted modes s → Hosted modes' s'

section Steps

variable {modes modes₁ modes₂ : ContextModes} {s s₁ s₂ : BorrowedStream} {started started' : Bool}

/-- Changes that leave the modes, the encoder and the decoder mode alone. -/
lemma HostedStep.of_frame (hincremental : s₁.incremental = s.incremental) (henc : s₁.enc = s.enc) :
    HostedStep false modes s modes s₁ where
  want := (Bool.or_false _).symm
  hosted h := ⟨h.audio, fun hinc hex => h.encoder (hincremental ▸ hinc) (henc ▸ hex)⟩

/-- Two calls on a context in a row. -/
lemma HostedStep.trans (h : HostedStep started modes s modes₁ s₁)
    (h' : HostedStep started' modes₁ s₁ modes₂ s₂) :
    HostedStep (started || started') modes s modes₂ s₂ where
  want := by rw [h'.want, h.want, Bool.or_assoc]
  hosted hs := h'.hosted (h.hosted hs)

/-- A change behind an operation. -/
lemma HostedStep.then_frame (h : HostedStep started modes s modes₁ s₁)
    (hincremental : s₂.incremental = s₁.incremental) (henc : s₂.enc = s₁.enc) :
    HostedStep started modes s modes₁ s₂ := by
  have hboth := h.trans (HostedStep.of_frame hincremental henc)
  rwa [Bool.or_false] at hboth

/-- A pump routes the decoder to the ring only if the stream has an encoder that fills it. -/
lemma hostedPump_step (modes : ContextModes) (s : BorrowedStream) (choice : PumpChoice) :
    HostedStep false modes s (hostedPump modes s choice).1 (hostedPump modes s choice).2.1 := by
  unfold hostedPump
  by_cases hoff : (!s.incremental || !s.enc) = true
  · rw [if_pos hoff]
    exact .of_frame rfl rfl
  rw [if_neg hoff]
  have hready : s.incremental = true ∧ s.enc = true := by simpa using hoff
  -- the modes after the prefill
  have hbegin : ∀ s' : BorrowedStream, s'.incremental = s.incremental → s'.enc = s.enc →
      HostedStep false modes s modes.beginIncremental s' := by
    intro s' hincremental henc
    refine ⟨(Bool.or_false _).symm, fun h => ?_⟩
    have hwant := h.encoder hready.1 hready.2
    exact ⟨fun _ => hwant, fun _ _ => hwant⟩
  cases choice.groups with
  | none => exact .of_frame rfl rfl
  | some groups =>
    dsimp only
    split_ifs
    · exact .of_frame rfl rfl
    · exact .of_frame rfl rfl
    · exact hbegin _ rfl rfl
    · exact hbegin _ rfl rfl

/-- The decoder pump leaves the frontend of the stream alone. -/
lemma hostedPump_frame (modes : ContextModes) (s : BorrowedStream) (choice : PumpChoice) :
    (hostedPump modes s choice).2.1.incremental = s.incremental ∧
      (hostedPump modes s choice).2.1.enc = s.enc ∧ (hostedPump modes s choice).2.1.melFe = s.melFe ∧
      (hostedPump modes s choice).2.1.samplesReceived = s.samplesReceived := by
  unfold hostedPump
  by_cases hoff : (!s.incremental || !s.enc) = true
  · rw [if_pos hoff]
    exact ⟨rfl, rfl, rfl, rfl⟩
  rw [if_neg hoff]
  cases choice.groups with
  | none => exact ⟨rfl, rfl, rfl, rfl⟩
  | some groups =>
    dsimp only
    split_ifs <;> exact ⟨rfl, rfl, rfl, rfl⟩

/-- The slice loop starts no incremental run. -/
lemma hostedSlices_step (modes : ContextModes) (s : BorrowedStream) (backpressured : Bool)
    (slices : List (Bool × PumpChoice)) :
    HostedStep false modes s (hostedSlices modes s backpressured slices).1
      (hostedSlices modes s backpressured slices).2.1 := by
  induction slices generalizing modes s backpressured with
  | nil => exact .of_frame rfl rfl
  | cons slice rest ih =>
    obtain ⟨absorbed, pump⟩ := slice
    rw [hostedSlices]
    have hpump := hostedPump_step modes s pump
    cases absorbed with
    | false => exact .of_frame rfl rfl
    | true =>
      cases backpressured with
      | true => exact ih modes s true
      | false =>
        dsimp only
        rw [if_neg (by simp), if_neg Bool.false_ne_true]
        by_cases hfull : (hostedPump modes s pump).2.2 = .limitExceeded
        · rw [if_pos hfull]
          exact hpump.trans (ih _ _ true)
        rw [if_neg hfull]
        by_cases hok : (hostedPump modes s pump).2.2 ≠ .ok
        · rw [if_pos hok]
          exact hpump
        · rw [if_neg hok]
          exact hpump.trans (ih _ _ false)

/-- The frontend is not the encoder. -/
lemma ensureFrontend_frame (s : BorrowedStream) (choice : SetupChoice) :
    (ensureFrontend s choice).1.incremental = s.incremental ∧
      (ensureFrontend s choice).1.enc = s.enc ∧
      ((ensureFrontend s choice).2 = true →
        (ensureFrontend s choice).1.melFe = (s.melFe || choice.tables && choice.frontendAllocates)) ∧
      ((ensureFrontend s choice).2 = false →
        (s.melFe || choice.tables && choice.frontendAllocates) = false) := by
  unfold ensureFrontend
  cases hmel : s.melFe <;> cases choice.tables <;> cases choice.frontendAllocates <;> simp [hmel]

/-- The encoder is created, and the ring turned on, exactly if the setup opens it. -/
lemma ensureEncoder_step (modes : ContextModes) (s : BorrowedStream) (choice : SetupChoice) :
    HostedStep (s.melFe && choice.opens s) modes s (ensureEncoder modes s choice).1
      (ensureEncoder modes s choice).2.1 := by
  unfold ensureEncoder SetupChoice.opens
  cases henc : s.enc with
  | true => simpa using HostedStep.of_frame rfl rfl
  | false =>
    cases hmel : s.melFe with
    | false => simpa using HostedStep.of_frame rfl rfl
    | true =>
      cases choice.encoderAllocates with
      | false => simpa using HostedStep.of_frame rfl rfl
      | true =>
        cases hincremental : s.incremental && choice.usesKv with
        | false =>
          simp only [Bool.false_eq_true, if_false, Bool.not_true, Bool.not_false, Bool.true_or,
            Bool.true_and, Bool.and_true, hincremental]
          exact ⟨(Bool.or_false _).symm, fun h => ⟨h.audio, fun hinc => by cases hinc⟩⟩
        | true =>
          simp only [Bool.false_eq_true, if_false, Bool.not_true, Bool.not_false, Bool.true_or,
            Bool.true_and, Bool.and_true, hincremental, if_true]
          exact ⟨(Bool.or_true _).symm, fun h => ⟨fun _ => rfl, fun _ _ => rfl⟩⟩

/-- Setting up the frontend and the encoder. -/
lemma setup_step (modes : ContextModes) (s : BorrowedStream) {choice : SetupChoice}
    (hfrontend : (ensureFrontend s choice).2 = true) :
    HostedStep (choice.opens s) modes s (ensureEncoder modes (ensureFrontend s choice).1 choice).1
      (ensureEncoder modes (ensureFrontend s choice).1 choice).2.1 := by
  obtain ⟨hincremental, henc, hmel, -⟩ := ensureFrontend_frame s choice
  have hfirst : HostedStep false modes s modes (ensureFrontend s choice).1 :=
    .of_frame hincremental henc
  have hstep := hfirst.trans (ensureEncoder_step modes (ensureFrontend s choice).1 choice)
  have hopens : ((ensureFrontend s choice).1.melFe && choice.opens (ensureFrontend s choice).1) =
      choice.opens s := by
    unfold SetupChoice.opens
    rw [hincremental, henc, hmel hfrontend]
    cases s.melFe <;> cases choice.tables <;> cases choice.frontendAllocates <;> simp
  rwa [Bool.false_or, hopens] at hstep

/-- Without a frontend the setup opens nothing. -/
lemma opens_of_failed {choice : SetupChoice} (hfrontend : (ensureFrontend s choice).2 = false) :
    choice.opens s = false := by
  unfold SetupChoice.opens
  rw [(ensureFrontend_frame s choice).2.2.2 hfrontend, Bool.and_false]
  rfl

/-- An encoder that exists is not opened again. -/
lemma opens_of_pumped (modes : ContextModes) (s : BorrowedStream) (pump : PumpChoice)
    (choice : SetupChoice) : choice.opens (hostedPump modes s pump).2.1 = choice.opens s := by
  obtain ⟨hincremental, henc, hmel, -⟩ := hostedPump_frame modes s pump
  unfold SetupChoice.opens
  rw [hincremental, henc, hmel]

/-- A feed of audio starts an incremental run only by opening the frontend. -/
lemma hostedFeedAudio_step (modes : ContextModes) (s : BorrowedStream) (choice : FeedChoice) :
    HostedStep (choice.converts && choice.setup.opens s) modes s (hostedFeedAudio modes s choice).1
      (hostedFeedAudio modes s choice).2.1 := by
  obtain ⟨hincremental, henc, -, -⟩ := ensureFrontend_frame s choice.setup
  unfold hostedFeedAudio
  dsimp only
  cases hfrontend : (ensureFrontend s choice.setup).2 with
  | false =>
    rw [opens_of_failed hfrontend, Bool.and_false]
    exact .of_frame hincremental henc
  | true =>
    cases choice.converts with
    | false => exact .of_frame hincremental henc
    | true =>
      have hsetup := setup_step modes s hfrontend
      rw [if_neg (by simp), if_neg (by simp), Bool.true_and]
      generalize ensureEncoder modes (ensureFrontend s choice.setup).1 choice.setup = e at *
      by_cases hfailed : (!e.2.2) = true
      · rw [if_pos hfailed]
        exact hsetup
      rw [if_neg hfailed]
      have hslices : HostedStep (choice.setup.opens s) modes s
          (if e.2.1.melFe then hostedSlices e.1 e.2.1 false choice.slices else (e.1, e.2.1, .ok)).1
          (if e.2.1.melFe then hostedSlices e.1 e.2.1 false choice.slices
            else (e.1, e.2.1, .ok)).2.1 := by
        split_ifs
        · have hboth := hsetup.trans (hostedSlices_step e.1 e.2.1 false choice.slices)
          rwa [Bool.or_false] at hboth
        · exact hsetup
      split_ifs at hslices ⊢
      all_goals first
        | exact hslices
        | exact hslices.then_frame rfl rfl

/-- So does a feed behind its state check, for samples that were admitted. -/
lemma hostedFeedAdmit_step (modes : ContextModes) (s : BorrowedStream) (choice : FeedChoice) :
    HostedStep (choice.count != 0 && !choice.null && choice.admitted && choice.converts &&
        choice.setup.opens s) modes s (hostedFeedAdmit modes s choice).1
      (hostedFeedAdmit modes s choice).2.1 := by
  unfold hostedFeedAdmit
  by_cases hcount : choice.count = 0
  · rw [hcount]
    simpa using HostedStep.of_frame rfl rfl
  · have hne : (choice.count != 0) = true := by simpa using hcount
    rw [hne]
    cases choice.null with
    | true => exact .of_frame rfl rfl
    | false =>
      cases choice.admitted with
      | false =>
        rw [if_neg (by simp), if_neg hcount]
        exact .of_frame rfl rfl
      | true =>
        rw [if_neg (by simp), if_neg hcount, if_neg (by simp)]
        exact hostedFeedAudio_step modes s choice

/-- So does a feed, of a live stream. -/
lemma hostedFeed_step (modes : ContextModes) (s : BorrowedStream) (choice : FeedChoice) :
    HostedStep (s.isLive && choice.count != 0 && !choice.null && choice.admitted && choice.converts &&
        choice.setup.opens s) modes s (hostedFeed modes s choice).1 (hostedFeed modes s choice).2.1 := by
  unfold hostedFeed
  by_cases hlive : s.state ≠ .created ∧ s.state ≠ .running
  · have hnot : s.isLive = false := by
      simpa [BorrowedStream.isLive] using hlive
    rw [if_pos hlive, hnot]
    exact .of_frame rfl rfl
  rw [if_neg hlive]
  have hyes : s.isLive = true := by
    unfold BorrowedStream.isLive
    rw [decide_eq_true_iff]
    by_contra hnone
    exact hlive (not_or.mp hnone)
  rw [hyes, Bool.true_and]
  by_cases hback : (s.incremental && s.decoderBackpressured) = true
  · rw [if_pos hback]
    dsimp only
    have hpump := hostedPump_step modes s choice.resume
    by_cases hok : (hostedPump modes s choice.resume).2.2 ≠ .ok
    · rw [if_pos hok]
      -- a pump that does not come back with OK worked on an encoder that exists
      have henc : s.enc = true := by
        by_contra henc
        refine hok ?_
        unfold hostedPump
        rw [if_pos (by simp [henc])]
      have hopens : choice.setup.opens s = false := by simp [SetupChoice.opens, henc]
      rw [hopens, Bool.and_false]
      exact hpump
    · rw [if_neg hok]
      have hboth := hpump.trans (hostedFeedAdmit_step _ (hostedPump modes s choice.resume).2.1 choice)
      rwa [opens_of_pumped, Bool.false_or] at hboth
  · rw [if_neg hback]
    exact hostedFeedAdmit_step modes s choice

/-- A finish of a live stream opens the frontend only for samples it kept. -/
lemma hostedFinishLive_step (modes : ContextModes) (s : BorrowedStream) (choice : FinishChoice) :
    HostedStep (s.samplesReceived != 0 && s.melFe && choice.setup.opens s) modes s
      (hostedFinishLive modes s choice).1 (hostedFinishLive modes s choice).2.1 := by
  unfold hostedFinishLive
  by_cases hempty : s.samplesReceived = 0
  · rw [hempty, if_pos rfl]
    exact .of_frame rfl rfl
  have hne : (s.samplesReceived != 0) = true := by simpa using hempty
  rw [if_neg hempty, hne, Bool.true_and]
  cases hmel : s.melFe with
  | false => exact .of_frame rfl rfl
  | true =>
    have hsetup := ensureEncoder_step modes s choice.setup
    rw [hmel] at hsetup
    rw [if_neg (by simp)]
    dsimp only
    generalize ensureEncoder modes s choice.setup = e at *
    by_cases hfailed : (!e.2.2 || !choice.flushes) = true
    · rw [if_pos hfailed]
      exact hsetup.then_frame rfl rfl
    rw [if_neg hfailed]
    by_cases hincremental : e.2.1.incremental = true
    · have hpump := hsetup.trans (hostedPump_step e.1 e.2.1 choice.pump)
      rw [Bool.or_false] at hpump
      rw [if_pos hincremental]
      split_ifs <;> exact hpump.then_frame rfl rfl
    · rw [if_neg hincremental]
      split_ifs <;> exact hsetup.then_frame rfl rfl

/-- So does a finish in any state. -/
lemma hostedFinish_step (modes : ContextModes) (s : BorrowedStream) (choice : FinishChoice) :
    HostedStep (s.isLive && s.samplesReceived != 0 && s.melFe && choice.setup.opens s) modes s
      (hostedFinish modes s choice).1 (hostedFinish modes s choice).2.1 := by
  have hlive : s.isLive = true → HostedStep (s.samplesReceived != 0 && s.melFe &&
      choice.setup.opens s) modes s
      (if s.incremental && s.decoderBackpressured then
        let p := hostedPump modes s choice.resume
        if p.2.2 = .limitExceeded then p
        else if p.2.2 ≠ .ok then (p.1, { p.2.1 with state := .failed }, p.2.2)
        else hostedFinishLive p.1 p.2.1 choice
      else hostedFinishLive modes s choice).1
      (if s.incremental && s.decoderBackpressured then
        let p := hostedPump modes s choice.resume
        if p.2.2 = .limitExceeded then p
        else if p.2.2 ≠ .ok then (p.1, { p.2.1 with state := .failed }, p.2.2)
        else hostedFinishLive p.1 p.2.1 choice
      else hostedFinishLive modes s choice).2.1 := by
    intro _
    by_cases hback : (s.incremental && s.decoderBackpressured) = true
    · rw [if_pos hback]
      dsimp only
      have hpump := hostedPump_step modes s choice.resume
      obtain ⟨-, -, hmel, hsamples⟩ := hostedPump_frame modes s choice.resume
      by_cases hok : (hostedPump modes s choice.resume).2.2 = .ok
      · rw [hok, if_neg (by simp), if_neg (by simp)]
        have hboth := hpump.trans
          (hostedFinishLive_step _ (hostedPump modes s choice.resume).2.1 choice)
        rwa [opens_of_pumped, hmel, hsamples, Bool.false_or] at hboth
      · -- such a pump worked on an encoder that exists
        have henc : s.enc = true := by
          by_contra henc
          refine hok ?_
          unfold hostedPump
          rw [if_pos (by simp [henc])]
        have hopens : choice.setup.opens s = false := by simp [SetupChoice.opens, henc]
        rw [hopens, Bool.and_false, if_pos hok]
        split_ifs
        · exact hpump
        · exact hpump.then_frame rfl rfl
    · rw [if_neg hback]
      exact hostedFinishLive_step modes s choice
  unfold hostedFinish
  cases hstate : s.state with
  | created =>
    have hyes : s.isLive = true := by simp [BorrowedStream.isLive, hstate]
    rw [hyes, Bool.true_and]
    exact hlive hyes
  | running =>
    have hyes : s.isLive = true := by simp [BorrowedStream.isLive, hstate]
    rw [hyes, Bool.true_and]
    exact hlive hyes
  | finishing | completed | cancelled | failed =>
    have hno : s.isLive = false := by simp [BorrowedStream.isLive, hstate]
    rw [hno]
    exact .of_frame rfl rfl

/-- A warmup of the encoder starts no incremental run. -/
lemma hostedEncoderWarmup_step (modes : ContextModes) (s : BorrowedStream) (choice : WarmupChoice) :
    HostedStep false modes s (hostedEncoderWarmup modes choice).1 s := by
  unfold hostedEncoderWarmup
  split_ifs
  · exact .of_frame rfl rfl
  · exact .of_frame rfl rfl
  · exact ⟨(Bool.or_false _).symm, fun h => ⟨fun hsrc => (by cases hsrc), h.encoder⟩⟩

/-- A warmup opens the frontend of a new stream only. -/
lemma hostedWarmup_step (modes : ContextModes) (s : BorrowedStream) (choice : WarmupChoice) :
    HostedStep (!s.warmupComplete && (s.state = .created && s.samplesReceived = 0) &&
        choice.setup.opens s) modes s (hostedWarmup modes s choice).1
      (hostedWarmup modes s choice).2.1 := by
  obtain ⟨hincremental, henc, -, -⟩ := ensureFrontend_frame s choice.setup
  unfold hostedWarmup
  dsimp only
  cases hcomplete : s.warmupComplete with
  | true => exact .of_frame rfl rfl
  | false =>
    rw [if_neg Bool.false_ne_true]
    by_cases hfresh : s.state ≠ .created ∨ s.samplesReceived ≠ 0 ∨ s.incremental = false
    · have hnot : ((decide (s.state = .created) && decide (s.samplesReceived = 0)) &&
          choice.setup.opens s) = false := by
        unfold SetupChoice.opens
        rcases hfresh with hstate | hsamples | hoff
        · simp [hstate]
        · simp [hsamples]
        · simp [hoff]
      rw [if_pos hfresh, Bool.not_false, Bool.true_and, hnot]
      exact .of_frame rfl rfl
    · obtain ⟨hstate, hsamples, -⟩ := not_or.mp hfresh |>.imp not_not.mp not_or.mp
      rw [if_neg hfresh, decide_eq_true hstate, decide_eq_true (not_not.mp hsamples)]
      simp only [Bool.not_false, Bool.true_and]
      cases hfrontend : (ensureFrontend s choice.setup).2 with
      | false =>
        rw [opens_of_failed hfrontend]
        exact .of_frame hincremental henc
      | true =>
        have hsetup := setup_step modes s hfrontend
        rw [if_neg (by simp)]
        generalize ensureEncoder modes (ensureFrontend s choice.setup).1 choice.setup = e at *
        by_cases hfailed : (!e.2.2) = true
        · rw [if_pos hfailed]
          exact hsetup
        rw [if_neg hfailed]
        by_cases hnone : (!e.2.1.enc) = true
        · rw [if_pos hnone]
          exact hsetup
        rw [if_neg hnone]
        have hwarm := hsetup.trans (hostedEncoderWarmup_step e.1 e.2.1 choice)
        rw [Bool.or_false] at hwarm
        split_ifs
        · exact hwarm
        · exact hwarm.then_frame rfl rfl

/-- A reset leaves the output ring as it is. -/
lemma hostedReset_step (modes : ContextModes) (s : BorrowedStream) :
    HostedStep false modes s (hostedReset modes s).1 (hostedReset modes s).2 :=
  ⟨(Bool.or_false _).symm, fun h => ⟨fun hsrc => (by cases hsrc), h.encoder⟩⟩

end Steps

/-! ## Whole histories -/

/-- The modes of a context between two operations. -/
structure HostReady (w : HostWorld) : Prop where
  audio : w.modes.decAudioSrc = true → w.modes.wantEncOutRing = true
  stream : ∀ s, w.stream = some s → Hosted w.modes s

/-- One operation turns the output ring on exactly if it starts the encoder. -/
lemma HostWorld.step_ready {w w' : HostWorld} {call : HostCall} {status : Status} (h : HostReady w)
    (hstep : w.step call = some (w', status)) :
    HostReady w' ∧ w'.modes.wantEncOutRing = (w.modes.wantEncOutRing || startsEncoder w call) := by
  have hof : ∀ {started : Bool} {s s' : BorrowedStream} {modes' : ContextModes},
      w.stream = some s → HostedStep started w.modes s modes' s' →
      HostReady ⟨modes', some s'⟩ ∧ modes'.wantEncOutRing = (w.modes.wantEncOutRing || started) := by
    intro started s s' modes' hs hhosted
    have hready := hhosted.hosted (h.stream s hs)
    refine ⟨⟨hready.audio, fun t ht => ?_⟩, hhosted.want⟩
    rw [← Option.some.inj ht]
    exact hready
  obtain ⟨modes, stream⟩ := w
  cases stream with
  | none =>
    cases call with
    | create incremental =>
      obtain ⟨rfl, -⟩ := Prod.mk.inj (Option.some.inj hstep)
      refine ⟨⟨fun hsrc => (by cases hsrc), fun t ht => ?_⟩, (Bool.or_false _).symm⟩
      rw [← Option.some.inj ht]
      exact ⟨fun hsrc => (by cases hsrc), fun _ henc => by cases henc⟩
    | warmup | feed | finish | cancel | reset | destroy => cases hstep
  | some s =>
    cases call with
    | create incremental =>
      obtain ⟨rfl, -⟩ := Prod.mk.inj (Option.some.inj hstep)
      exact ⟨h, (Bool.or_false _).symm⟩
    | warmup choice =>
      obtain ⟨rfl, -⟩ := Prod.mk.inj (Option.some.inj hstep)
      exact hof rfl (hostedWarmup_step modes s choice)
    | feed choice =>
      obtain ⟨rfl, -⟩ := Prod.mk.inj (Option.some.inj hstep)
      exact hof rfl (hostedFeed_step modes s choice)
    | finish choice =>
      obtain ⟨rfl, -⟩ := Prod.mk.inj (Option.some.inj hstep)
      exact hof rfl (hostedFinish_step modes s choice)
    | cancel =>
      obtain ⟨rfl, -⟩ := Prod.mk.inj (Option.some.inj hstep)
      refine hof rfl ?_
      unfold hostedCancel
      cases s.state <;> exact .of_frame rfl rfl
    | reset =>
      obtain ⟨rfl, -⟩ := Prod.mk.inj (Option.some.inj hstep)
      exact hof rfl (hostedReset_step modes s)
    | destroy =>
      obtain ⟨rfl, -⟩ := Prod.mk.inj (Option.some.inj hstep)
      exact ⟨⟨h.audio, fun t ht => by cases ht⟩, (Bool.or_false _).symm⟩

/-- Over a history the output ring stays off exactly if no operation starts the encoder. -/
lemma wantEncOutRing_of_run {w w' : HostWorld} {calls : List HostCall} {statuses : List Status}
    (h : HostReady w) (hrun : runSteps HostWorld.step w calls = some (w', statuses)) :
    HostReady w' ∧ (w'.modes.wantEncOutRing = false ↔ w.modes.wantEncOutRing = false ∧
      RunMeets HostWorld.step (fun w call => startsEncoder w call = false) w calls) := by
  induction calls generalizing w statuses with
  | nil =>
    simp only [runSteps_nil, Option.some.injEq, Prod.mk.injEq] at hrun
    obtain ⟨rfl, rfl⟩ := hrun
    exact ⟨h, (and_iff_left trivial).symm⟩
  | cons call calls ih =>
    obtain ⟨w₁, status, statuses', hstep, hrest, rfl⟩ := runSteps_cons_eq_some.mp hrun
    obtain ⟨hready, hwant⟩ := HostWorld.step_ready h hstep
    obtain ⟨hend, hiff⟩ := ih hready hrest
    refine ⟨hend, hiff.trans ?_⟩
    rw [hwant, Bool.or_eq_false_iff, and_assoc]
    refine and_congr_right fun _ => and_congr_right fun _ => ⟨fun hmeets w₂ o hstep₂ => ?_, fun hall => ?_⟩
    · obtain ⟨rfl, rfl⟩ := Prod.mk.inj (Option.some.inj (hstep.symm.trans hstep₂))
      exact hmeets
    · exact hall w₁ status hstep

variable {α φ ε γ κ : Type*}

/-- After a history of streams, whatever they left in the ring, a batch call gives the result it gives on a
context that never hosted one, and uploads exactly the frames it emitted, if and only if no operation
of the history started the encoder of an incremental stream, or the call does not get as far as
the upload. -/
theorem batch_unaffected_by_streams (eng : Engine α φ ε γ κ) {w : HostWorld} {calls : List HostCall}
    {statuses : List Status} (hrun : runSteps HostWorld.step {} calls = some (w, statuses))
    (ring ring' : HistoryRing γ) (be : BatchBackend) (mel : List φ) (maxTokens : ℤ) :
    (transcribeMel eng w.modes ring be mel maxTokens = transcribeMel eng {} ring' be mel maxTokens ∧
      (reachesUpload eng be mel = true →
        accumulateBatches eng w.modes be mel (globalRuns eng mel.length) [] =
          some ((List.range (encFramesRealizable mel.length)).map (encoderFrameAt eng mel)))) ↔
      RunMeets HostWorld.step (fun w call => startsEncoder w call = false) {} calls ∨
        reachesUpload eng be mel = false := by
  have hfresh : HostReady {} := ⟨fun hsrc => (by cases hsrc), fun s hs => by cases hs⟩
  obtain ⟨hready, hwant⟩ := wantEncOutRing_of_run hfresh hrun
  rw [← (and_iff_right rfl : _ ∧ RunMeets HostWorld.step _ _ _ ↔ _), ← hwant]
  have hclean := transcribeMel_outOfBounds_iff eng {} ring' be mel maxTokens
  have hmine := transcribeMel_outOfBounds_iff eng w.modes ring be mel maxTokens
  cases hupload : reachesUpload eng be mel with
  | false =>
    refine iff_of_true ⟨?_, fun h => by cases h⟩ (.inr rfl)
    simp [transcribeMel, runEncoderGlobal_eq, hupload]
  | true =>
    cases hring : w.modes.wantEncOutRing with
    | true =>
      refine iff_of_false ?_ (by simp)
      rintro ⟨hsame, -⟩
      have hbad := hmine.mpr ⟨hupload, hring⟩
      rw [hsame] at hbad
      cases (hclean.mp hbad).2
    | false =>
      have hsrc : w.modes.decAudioSrc = false := by
        by_contra hsrc
        rw [hready.audio (by simpa using hsrc)] at hring
        cases hring
      refine iff_of_true ⟨?_, fun _ => ?_⟩ (.inl rfl)
      · exact transcribeMel_clean eng hring hsrc rfl ring ring' be mel maxTokens
      · have hruns : (globalRuns eng mel.length).all be.encoderRuns = true := by
          unfold reachesUpload at hupload
          exact (of_decide_eq_true hupload).1
        rw [accumulateBatches_eq, hruns, hring, framesOf_globalRuns]
        rfl

/-- A stream that is created, fed 80 ms in one slice and destroyed; the encoder is the K/V encoder or not. -/
def shortHistory (usesKv : Bool) : List HostCall :=
  [.create true,
    .feed
      { null := false
        count := 1280
        admitted := true
        converts := true
        setup := ⟨true, true, true, usesKv⟩
        resume := ⟨none, true, .ok⟩
        slices := [(true, ⟨some 1, true, .ok⟩)] },
    .cancel, .destroy]

/-- A backend on which everything works. -/
def soundBackend : BatchBackend := ⟨fun _ => true, true, true⟩

/-- A Mel of 312 frames, 156 encoder frames or 39 groups of them. -/
def exampleMel : List Unit := List.replicate 312 ()

/-- The call on a context with the given modes. -/
def exampleBatch (modes : ContextModes) : BatchOutcome Unit :=
  transcribeMel (plainEngine defaultSchedule) modes (fun _ => ⟨0, ()⟩) soundBackend exampleMel 0

/-- The reference encoder leaves a batch call alone. -/
theorem batch_unaffected_by_streams_reference :
    ∃ w statuses, runSteps HostWorld.step {} (shortHistory false) = some (w, statuses) ∧
      exampleBatch w.modes = exampleBatch {} := by
  obtain ⟨w, statuses, hrun⟩ : ∃ w statuses,
      runSteps HostWorld.step {} (shortHistory false) = some (w, statuses) := ⟨_, _, rfl⟩
  have hmeets : RunMeets HostWorld.step (fun w call => startsEncoder w call = false) {}
      (shortHistory false) :=
    (runMeets_of_checkRun (c := fun w call => !startsEncoder w call) (by decide)).mono
      fun w call h => by simpa using h
  exact ⟨w, statuses, hrun, ((batch_unaffected_by_streams (plainEngine defaultSchedule) hrun
    (fun _ => ⟨0, ()⟩) (fun _ => ⟨0, ()⟩) soundBackend exampleMel 0).mpr (.inl hmeets)).1⟩

/-- After a stream with the K/V encoder the same call uploads 156 frames from an empty accumulation. -/
theorem batch_after_stream_out_of_bounds :
    ∃ w statuses, runSteps HostWorld.step {} (shortHistory true) = some (w, statuses) ∧
      accumulateBatches (plainEngine defaultSchedule) w.modes soundBackend exampleMel
          (globalRuns (plainEngine defaultSchedule) exampleMel.length) [] = some [] ∧
      exampleBatch w.modes = .outOfBounds ∧
      ∃ rows result, exampleBatch {} = .done rows result ∧ rows.length = 156 := by
  obtain ⟨w, statuses, hrun, hring⟩ : ∃ w statuses,
      runSteps HostWorld.step {} (shortHistory true) = some (w, statuses) ∧
        w.modes.wantEncOutRing = true := ⟨_, _, rfl, rfl⟩
  have hruns : ∀ runs : List EncoderRun, runs.all soundBackend.encoderRuns = true :=
    fun runs => List.all_eq_true.mpr fun _ _ => rfl
  have hlength : encFramesRealizable exampleMel.length = 156 := by
    rw [exampleMel, List.length_replicate]
    rfl
  have hupload : reachesUpload (plainEngine defaultSchedule) soundBackend exampleMel = true := by
    rw [reachesUpload, hruns, hlength]
    rfl
  refine ⟨w, statuses, hrun, ?_, ?_, ?_⟩
  · rw [accumulateBatches_eq, hruns, hring]
    rfl
  · exact (transcribeMel_outOfBounds_iff _ _ _ _ _ _).mpr ⟨hupload, hring⟩
  · have hrows : runEncoderGlobal (plainEngine defaultSchedule) {} soundBackend exampleMel =
        .uploaded (List.replicate 156 ()) := by
      rw [runEncoderGlobal_eq, hupload, hlength]
      rfl
    have hdecoded : (decodeAudio (plainEngine defaultSchedule)
        (runAdapter (plainEngine defaultSchedule) (List.replicate 156 ())) 0).isSome = true := by
      decide +kernel
    obtain ⟨result, hresult⟩ := Option.isSome_iff_exists.mp hdecoded
    refine ⟨List.replicate 156 (), result, ?_, List.length_replicate⟩
    have haudio : ∀ memory : List Unit,
        audioColumns {} (fun _ => ⟨0, ()⟩) memory = memory := fun _ => if_neg Bool.false_ne_true
    unfold exampleBatch transcribeMel
    rw [hrows]
    simp only [soundBackend, Bool.not_true, Bool.false_eq_true, if_false, haudio, hresult]

end Voxtral
