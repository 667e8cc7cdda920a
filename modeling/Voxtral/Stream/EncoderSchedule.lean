import Voxtral.Stream.FeedPlan
import Voxtral.Lib.ReadNumber

/-!
# The encoder schedule

The grids of the encoder come from the environment (`encoderKvScheduleFromEnv`), and are valid whatever
it holds.  On every such schedule the graphs a stream runs from its first feed to the end of its finish
are a function of the number of samples (`utteranceRuns`): how they were split into feeds does not
matter.
-/

namespace Voxtral

variable {α φ ε γ κ : Type*}

/-! ## Grids from the environment -/

/-- `env_positive_i32`; `value` is what `std::getenv` returns. -/
def envPositiveI32 (value : Option Bytes) (fallback : ℕ) : ℕ :=
  match value.bind strtol with
  | some (parsed, []) => if parsed ≤ 0 ∨ 2 ^ 31 - 1 < parsed then fallback else parsed.toNat
  | _ => fallback

/-- `normalize_physical_rows`. -/
def normalizePhysicalRows (rows : ℕ) : ℕ :=
  if rows ≤ 4 then 4
  else if rows ≤ 8 then 8
  else if rows ≤ 16 then 16
  else if rows ≤ 32 then 32
  else if rows ≤ 64 then 64
  else 128

/-- `while (logical > 1 && physical % logical != 0) --logical`. -/
def fitLogical (physical : ℕ) : ℕ → ℕ
  | 0 => 0
  | logical + 1 =>
    if 1 < logical + 1 ∧ physical % (logical + 1) ≠ 0 then fitLogical physical logical
    else logical + 1

/-- The logical batch and the physical rows of `encoder_kv_schedule_from_env`. -/
def scheduleFromEnv (env : String → Option Bytes) : ℕ × ℕ :=
  let mode := env "VOXTRAL_ENC_KV_MODE"
  if mode = some "throughput".toUTF8.toList ∨ mode = some "offline".toUTF8.toList then
    (encKvMaxNew, encKvMaxNew)
  else
    let legacy := env "VOXTRAL_ENC_KV_GRID"
    let (logical, physical) :=
      if legacy = none ∨ legacy = some [] then (4, 4)
      else
        let v := envPositiveI32 legacy 4
        (min v encKvMaxNew, if 32 ≤ v then normalizePhysicalRows v else 4)
    let logical := min (envPositiveI32 (env "VOXTRAL_ENC_KV_LOGICAL_BATCH") logical) encKvMaxNew
    let physical :=
      normalizePhysicalRows (envPositiveI32 (env "VOXTRAL_ENC_KV_PHYSICAL_ROWS") physical)
    let logical := max 1 logical
    if physical < logical ∨ physical % logical ≠ 0 then
      (fitLogical physical (min logical physical), physical)
    else (logical, physical)

/-- The rows are normalized to one of six sizes. -/
lemma normalizePhysicalRows_mem (rows : ℕ) :
    normalizePhysicalRows rows ∈ [4, 8, 16, 32, 64, 128] := by
  unfold normalizePhysicalRows
  split_ifs <;> decide

/-- Counting down ends at a divisor. -/
lemma fitLogical_spec (physical : ℕ) {logical : ℕ} (hpos : 0 < logical) :
    0 < fitLogical physical logical ∧ fitLogical physical logical ∣ physical := by
  induction logical with
  | zero => exact absurd hpos (lt_irrefl 0)
  | succ logical ih =>
    rw [fitLogical]
    split_ifs with hgo
    · exact ih (by omega)
    · refine ⟨hpos, ?_⟩
      rcases Nat.eq_zero_or_pos logical with rfl | hlogical
      · exact one_dvd physical
      · exact Nat.dvd_of_mod_eq_zero (by_contra fun hmod => hgo ⟨by omega, hmod⟩)

/-- Whatever the environment holds, the physical block is one of the grids, and contains an integral
number of logical batches. -/
lemma scheduleFromEnv_valid (env : String → Option Bytes) :
    (scheduleFromEnv env).2 ∈ [4, 8, 16, 32, 64, 128] ∧ 0 < (scheduleFromEnv env).1 ∧
      (scheduleFromEnv env).1 ∣ (scheduleFromEnv env).2 := by
  have hbatch : ∀ logical physical : ℕ, physical ∈ [4, 8, 16, 32, 64, 128] → 0 < logical →
      let p := if physical < logical ∨ physical % logical ≠ 0 then
        (fitLogical physical (min logical physical), physical) else (logical, physical)
      p.2 ∈ [4, 8, 16, 32, 64, 128] ∧ 0 < p.1 ∧ p.1 ∣ p.2 := by
    intro logical physical hphysical hlogical
    have hpos : 0 < physical := by
      simp only [List.mem_cons, List.not_mem_nil, or_false] at hphysical
      omega
    dsimp only
    split_ifs with hgo
    · obtain ⟨hfit, hdvd⟩ := fitLogical_spec physical (lt_min hlogical hpos)
      exact ⟨hphysical, hfit, hdvd⟩
    · exact ⟨hphysical, hlogical, Nat.dvd_of_mod_eq_zero (by_contra fun h => hgo (Or.inr h))⟩
  unfold scheduleFromEnv
  dsimp only
  by_cases hmode : env "VOXTRAL_ENC_KV_MODE" = some "throughput".toUTF8.toList ∨
      env "VOXTRAL_ENC_KV_MODE" = some "offline".toUTF8.toList
  · rw [if_pos hmode]
    decide
  · rw [if_neg hmode]
    exact hbatch _ _ (normalizePhysicalRows_mem _) (lt_of_lt_of_le one_pos (le_max_left _ _))

/-- A batch that starts at a multiple of the logical batch ends within its physical block. -/
lemma batch_within_block {logical physical e n : ℕ} (hpos : 0 < physical)
    (hdvd : logical ∣ physical) (he : logical ∣ e) (hn : n ≤ logical) :
    e % physical + n ≤ physical := by
  obtain ⟨blocks, rfl⟩ := hdvd
  obtain ⟨k, hk⟩ : logical ∣ e % (logical * blocks) :=
    (Nat.dvd_mod_iff (Nat.dvd_mul_right logical blocks)).mpr he
  have hlt : logical * k < logical * blocks := by
    rw [← hk]
    exact Nat.mod_lt e hpos
  have hstep : logical * (k + 1) ≤ logical * blocks :=
    Nat.mul_le_mul_left logical (lt_of_mul_lt_mul_left hlt (Nat.zero_le logical))
  rw [hk]
  calc logical * k + n ≤ logical * k + logical := Nat.add_le_add_left hn _
    _ = logical * (k + 1) := (Nat.mul_succ logical k).symm
    _ ≤ logical * blocks := hstep

/-- **The schedule is normalized**, whatever the environment holds: batches that start at multiples of
the logical batch never cross a block boundary, so that the room left in a block never shortens
one, and the startup block is a whole number of batches and of blocks. -/
theorem scheduleFromEnv_normalized (env : String → Option Bytes) :
    (scheduleFromEnv env).2 ∈ [4, 8, 16, 32, 64, 128] ∧
      1 ≤ (scheduleFromEnv env).1 ∧ (scheduleFromEnv env).1 ≤ (scheduleFromEnv env).2 ∧
      (scheduleFromEnv env).1 ∣ (scheduleFromEnv env).2 ∧
      (∀ e n, (scheduleFromEnv env).1 ∣ e → n ≤ (scheduleFromEnv env).1 →
        e % (scheduleFromEnv env).2 + n ≤ (scheduleFromEnv env).2) ∧
      (∀ e rem, (scheduleFromEnv env).1 ∣ e →
        min (min (scheduleFromEnv env).1 ((scheduleFromEnv env).2 - e % (scheduleFromEnv env).2))
          rem = min (scheduleFromEnv env).1 rem) ∧
      (scheduleFromEnv env).2 ∣ encKvMaxNew ∧ (scheduleFromEnv env).1 ∣ encKvMaxNew := by
  obtain ⟨hmem, hlogical, hdvd⟩ := scheduleFromEnv_valid env
  generalize (scheduleFromEnv env).1 = logical at hlogical hdvd ⊢
  generalize (scheduleFromEnv env).2 = physical at hmem hdvd ⊢
  have hpos : 0 < physical := by
    simp only [List.mem_cons, List.not_mem_nil, or_false] at hmem
    omega
  have hstartup : physical ∣ encKvMaxNew := by
    have hall : ∀ p ∈ [4, 8, 16, 32, 64, 128], p ∣ encKvMaxNew := by decide
    exact hall physical hmem
  have hwithin : ∀ e n, logical ∣ e → n ≤ logical → e % physical + n ≤ physical :=
    fun e n => batch_within_block hpos hdvd
  refine ⟨hmem, hlogical, Nat.le_of_dvd hpos hdvd, hdvd, hwithin, ?_, hstartup,
    hdvd.trans hstartup⟩
  intro e rem he
  have hfull := hwithin e logical he le_rfl
  rw [min_eq_left (show logical ≤ physical - e % physical by omega)]

/-- `encoder_kv_schedule_from_env`. -/
def encoderKvScheduleFromEnv (env : String → Option Bytes) : EncoderSchedule where
  logical := (scheduleFromEnv env).1
  physical := (scheduleFromEnv env).2
  physical_mem := (scheduleFromEnv_valid env).1
  logical_pos := (scheduleFromEnv_valid env).2.1
  logical_dvd := (scheduleFromEnv_valid env).2.2

/-- The engine of a context that was initialized in the environment `env`. -/
def Engine.fromEnv (eng : Engine α φ ε γ κ) (env : String → Option Bytes) : Engine α φ ε γ κ :=
  { eng with schedule := encoderKvScheduleFromEnv env }

/-! ## The graphs of an utterance -/

/-- All encoder graphs of an utterance of `n` samples, from its first feed to the end of its finish. -/
def utteranceRuns (eng : Engine α φ ε γ κ) (n : ℕ) : List EncoderRun :=
  liveRuns eng.schedule (emittedAt eng.schedule.logical n) ++
    finishRuns eng (emittedAt eng.schedule.logical n) n

/-- The Mel frames of a padded signal of `n` samples. -/
def totalMelFrames (n : ℕ) : ℕ := finalFrameCount (streamLeftPad + n + finishRightPad n)

/-- A finished stream has eight Mel frames for each group. -/
lemma totalMelFrames_eq (n : ℕ) : totalMelFrames n = 8 * finishGroups n := by
  have hlen := length_finished n
  rw [totalMelFrames, finalFrameCount, show streamLeftPad = 40960 from rfl, hlen]
  omega

/-- They realize four encoder frames for each group. -/
lemma realizable_totalMelFrames (n : ℕ) :
    encFramesRealizable (totalMelFrames n) = 4 * finishGroups n := by
  rw [encFramesRealizable_eq, totalMelFrames_eq]
  omega

/-- The finish has rows to work with. -/
lemma Engine.finishPhysical_pos (eng : Engine α φ ε γ κ) : 0 < eng.finishPhysical := by
  have hmem := eng.finishPhysical_mem
  simp only [List.mem_cons, List.not_mem_nil, or_false] at hmem
  omega

/-- The graphs of an utterance compute every realizable frame once, in order. -/
lemma framesOf_utteranceRuns (eng : Engine α φ ε γ κ) (n : ℕ) :
    framesOf (utteranceRuns eng n) = List.range (encFramesRealizable (totalMelFrames n)) := by
  have hle := emittedAt_le_finish eng.schedule.logical n
  have hlive : framesOf (liveRuns eng.schedule (emittedAt eng.schedule.logical n)) =
      List.range (emittedAt eng.schedule.logical n) := framesOf_liveRuns _
  have hfinish : framesOf (finishRuns eng (emittedAt eng.schedule.logical n) n) =
      List.range' (emittedAt eng.schedule.logical n)
        (4 * finishGroups n - emittedAt eng.schedule.logical n) :=
    framesOf_final eng.finishPhysical_pos _ _ _ (by omega)
  have hcut : List.range' 0 (emittedAt eng.schedule.logical n) ++
      List.range' (0 + emittedAt eng.schedule.logical n)
        (4 * finishGroups n - emittedAt eng.schedule.logical n) =
      List.range' 0 (emittedAt eng.schedule.logical n +
        (4 * finishGroups n - emittedAt eng.schedule.logical n)) := List.range'_append_1
  rw [Nat.zero_add, Nat.add_sub_cancel' hle] at hcut
  rw [utteranceRuns, framesOf, List.flatMap_append]
  change framesOf _ ++ framesOf _ = _
  rw [hlive, hfinish, realizable_totalMelFrames, List.range_eq_range', List.range_eq_range', hcut]

/-- No graph of an utterance crosses a block boundary. -/
lemma utteranceRuns_withinBlock (eng : Engine α φ ε γ κ) (n : ℕ) :
    ∀ r ∈ utteranceRuns eng n, r.WithinBlock := by
  intro r hr
  rcases List.mem_append.mp hr with hr | hr
  · have hlive : scheduleRuns eng.schedule eng.finishPhysical false _ _ 0 = _ :=
      scheduleRuns_live (encFramesRealizable (stableFrameCount (streamLeftPad + n))) _ le_rfl
    rw [emittedAt, ← hlive] at hr
    exact scheduleRuns_withinBlock false _ _ _ eng.finishPhysical_pos r hr
  · exact scheduleRuns_withinBlock true _ _ _ eng.finishPhysical_pos r hr

/-! ## What a stream runs -/

section Runs

variable [Zero α] {eng : Engine α φ ε γ κ} {s s' : Stream α φ ε γ κ}

/-- An open stream ran the graphs of its samples. -/
lemma OpReady.liveRuns (hr : OpReady eng True s) (hlive : s.Live) :
    encoderRuns s.trace =
      Voxtral.liveRuns eng.schedule (emittedAt eng.schedule.logical s.frontend.realSamples.length) := by
  have hs := hr.live hlive
  rw [← hs.emitted]
  exact hs.recorded

/-- The encoder was flushed after `n` samples. -/
structure EncoderFlushed (eng : Engine α φ ε γ κ) (s : Stream α φ ε γ κ) (n : ℕ) : Prop where
  recorded : encoderRuns s.trace = utteranceRuns eng n
  mel : s.frontend.enc.melHistory.length = totalMelFrames n

omit [Zero α] in
/-- A flushed encoder depends on the Mel history and the graphs only. -/
lemma EncoderFlushed.congr {n : ℕ} (h : EncoderFlushed eng s n)
    (hhistory : s'.frontend.enc.melHistory = s.frontend.enc.melHistory)
    (hruns : encoderRuns s'.trace = encoderRuns s.trace) : EncoderFlushed eng s' n :=
  ⟨hruns.trans h.recorded, (congrArg List.length hhistory).trans h.mel⟩

/-- The frontend part of a finish flushes the encoder. -/
lemma FlushOutcome.encoderFlushed {t : Stream α φ ε γ κ} {out : Option String}
    (h : FlushOutcome eng (flushStart s) t out) (hs : StreamReady eng True s)
    (hfinal : t.frontend.enc.finalized = true) :
    EncoderFlushed eng t s.frontend.realSamples.length := by
  have hnone := h.finalized.mp hfinal
  refine ⟨?_, ?_⟩
  · rw [h.recorded hnone, utteranceRuns, ← hs.emitted]
    exact congrArg (· ++ _) hs.recorded
  · rw [(h.flushed hnone).history, h.samples, length_melRows_finishedSignal, totalMelFrames_eq]
    rfl

omit [Zero α] in
/-- Appended events are no graphs. -/
lemma Appends.encoderRuns {es : List StreamEvent} (h : Appends s s' es) :
    encoderRuns s'.trace = encoderRuns s.trace := by
  have hnone : Voxtral.encoderRuns
      (es.map fun e => (.enqueued e (acceptedSamples s) : TraceEntry ε γ)) = [] := by
    refine List.filterMap_eq_nil_iff.mpr fun entry hentry => ?_
    obtain ⟨e, -, rfl⟩ := List.mem_map.mp hentry
    rfl
  rw [h.trace, encoderRuns_append, hnone, List.append_nil]

variable (eng) in
omit [Zero α] in
/-- The resume pump runs no encoder graph. -/
lemma resumed_encoderRuns (hw : DecoderWithin s) :
    encoderRuns (resumed eng s).trace = encoderRuns s.trace := by
  unfold resumed
  split_ifs
  · exact PumpSteps.encoderRuns (pumpIncremental_steps hw)
  · rfl

/-- A finish behind its backlog drain runs no encoder graph, or flushes the encoder. -/
lemma FinishPath.flushed {status : Status} (h : FinishPath eng s s' status)
    (hr : OpReady eng True s) (hopen : s.Open) (hbp : s.events.decoderBackpressured = false)
    (hfinal : s'.frontend.enc.finalized = true) :
    (s'.frontend = s.frontend ∧ encoderRuns s'.trace = encoderRuns s.trace) ∨
      EncoderFlushed eng s' s.frontend.realSamples.length := by
  have hlive := live_of_open hopen
  have hs := hr.live hlive
  -- the pump and the last events leave a flushed encoder as it is
  have htail : ∀ {t u : Stream α φ ε γ κ} {es : List StreamEvent},
      s.lifecycle.totalSamplesReceived ≠ 0 → finishFrontend eng (flushStart s) = some (t, none) →
      u.frontend = (pumpIncremental eng (tailStart t)).1.frontend →
      u.trace = (pumpIncremental eng (tailStart t)).1.trace → Appends u s' es →
      EncoderFlushed eng s' s.frontend.realSamples.length := by
    intro t u es hzero hfront hfrontend htrace happ
    have hflush := (finishFrontend_continues hs hlive hzero hfront).2.2
    have hpump : PumpSteps eng (tailStart t) (pumpIncremental eng (tailStart t)).1 :=
      pumpIncremental_steps (finishFrontend_tailReady hs hlive hbp hzero hfront).pump.2.2.1
    have hkept : s'.frontend = t.frontend :=
      happ.frontend.trans (hfrontend.trans (PumpSteps.frame hpump).frontend)
    rw [hkept] at hfinal
    have hruns := PumpSteps.encoderRuns hpump
    refine (hflush.encoderFlushed hs hfinal).congr (by rw [hkept]) ?_
    rw [happ.encoderRuns, htrace]
    exact hruns
  cases h with
  | empty =>
    obtain ⟨_, happ, -⟩ := completeStream_appends (emptyEnd s)
    exact Or.inl ⟨happ.frontend, happ.encoderRuns⟩
  | @frontendFailed hzero t what hfront =>
    have hflush := (finishFrontend_continues hs hlive hzero hfront).2.2
    obtain ⟨_, happ, -⟩ := failStream_appends (setError t .backendError
      ("inference threw: " ++ what)) .backendError
    rw [finishThrew, happ.frontend] at hfinal
    exact absurd (hflush.finalized.mp hfinal) (by simp)
  | @pumpFailed hzero t hfront =>
    obtain ⟨_, happ, -⟩ := failStream_appends (setError (pumpIncremental eng (tailStart t)).1
      .backendError ("inference threw: " ++
        (pumpIncremental eng (tailStart t)).1.lifecycle.lastError)) .backendError
    exact Or.inr (htail hzero hfront (by rfl) (by rfl) happ)
  | @completed hzero t hfront =>
    obtain ⟨_, happ, -⟩ := completeStream_appends (tailEnd (pumpIncremental eng (tailStart t)).1)
    exact Or.inr (htail hzero hfront (by rfl) (by rfl) happ)

/-- A finish. -/
lemma finishInternal_flushed {status : Status} (hr : OpReady eng True s)
    (h : finishInternal eng s = some (s', status)) (hfinal : s'.frontend.enc.finalized = true) :
    (s'.frontend = s.frontend ∧ encoderRuns s'.trace = encoderRuns s.trace) ∨
      (s.Live ∧ EncoderFlushed eng s' s.frontend.realSamples.length) := by
  have hpump : PumpSteps eng s (pumpIncremental eng s).1 := pumpIncremental_steps hr.within
  have hframe := PumpSteps.frame hpump
  have hsame := PumpSteps.encoderRuns hpump
  cases finishInternal_call h with
  | ended | failed | finishing => exact Or.inl ⟨rfl, rfl⟩
  | stalled => exact Or.inl ⟨hframe.frontend, hsame⟩
  | pumpFailed =>
    obtain ⟨_, happ, -⟩ := failStream_appends { (pumpIncremental eng s).1 with
      events := { (pumpIncremental eng s).1.events with finalizingFlush := true } } .backendError
    exact Or.inl ⟨happ.frontend.trans hframe.frontend, happ.encoderRuns.trans hsame⟩
  | live hopen hresumes hpath =>
    obtain ⟨hready, hopen', hbp⟩ := resumed_ready hr hopen hresumes
    have hkept := (resumed_frame eng hr.within).frontend
    have hruns := resumed_encoderRuns eng hr.within
    have hflushed := hpath.flushed hready hopen' hbp hfinal
    rw [hkept, hruns] at hflushed
    exact hflushed.imp_right fun h => ⟨live_of_open hopen, h⟩

/-- A feed does not flush the encoder. -/
lemma streamFeedPcm16_flushed {buf : FeedBuffer} {r : Response} (hr : OpReady eng True s)
    (h : streamFeedPcm16 eng s buf = some (s', r)) (hfinal : s'.frontend.enc.finalized = true) :
    acceptedBy (.feed buf) r = [] ∧
      ((s'.frontend = s.frontend ∧ encoderRuns s'.trace = encoderRuns s.trace) ∨
        (s.Live ∧ EncoderFlushed eng s' s.frontend.realSamples.length)) := by
  obtain ⟨⟨t, status⟩, hfeed, ht⟩ := Option.map_eq_some_iff.mp h
  obtain ⟨hs', rfl⟩ := Prod.mk.inj ht
  dsimp only at hs'
  by_cases hopen : s.Open
  · have hout := feedCommon_outcome hr hopen (Or.inl trivial) hfeed
    have hkept : s'.frontend = t.frontend := by
      rw [← hs']
      split_ifs
      · obtain ⟨_, happ, -⟩ := failStream_appends (setError
          { t with events := { t.events with finalizingFlush := true } } status
            t.lifecycle.lastError) status
        exact happ.frontend
      · rfl
    rw [hkept, hout.running] at hfinal
    exact absurd hfinal (by decide)
  · cases feedCommon_call hfeed with
    | closed =>
      rw [if_neg (by decide)] at hs'
      rw [← hs']
      refine ⟨?_, Or.inl ⟨rfl, rfl⟩⟩
      rw [acceptedBy]
      exact (congrArg buf.samples.take (Nat.sub_self _)).trans List.take_zero
    | stalled hopen' | pumpFailed hopen' | refused hopen' => exact absurd hopen' hopen
    | admitted hadmitted => exact absurd hadmitted.1 hopen

/-- What a call does to a stream whose encoder it leaves flushed: the encoder was flushed before, or
the call is the finish that flushed it. -/
lemma streamStep_flushed {op : Op} {r : Response} (hr : OpReady eng True s)
    (h : streamStep eng s op = some (s', r)) (hfinal : s'.frontend.enc.finalized = true) :
    acceptedBy op r = [] ∧
      ((s'.frontend = s.frontend ∧ encoderRuns s'.trace = encoderRuns s.trace) ∨
        (s.Live ∧ EncoderFlushed eng s' s.frontend.realSamples.length)) := by
  cases op with
  | feed buf => exact streamFeedPcm16_flushed hr h hfinal
  | poll =>
    have hpoll : streamPollEvent s = (s', r) := Option.some.inj h
    obtain ⟨ev, hev, -⟩ := streamPollEvent_eq s
    rw [hpoll] at hev
    obtain rfl : s' = { s with events := ev } := hev
    exact ⟨rfl, Or.inl ⟨rfl, rfl⟩⟩
  | cancel =>
    obtain ⟨rfl, rfl⟩ := Prod.mk.inj (Option.some.inj h)
    obtain ⟨es, happ, -⟩ := cancelInternal_appends s
    exact ⟨rfl, Or.inl ⟨happ.frontend, happ.encoderRuns⟩⟩
  | finish =>
    obtain ⟨⟨t, status⟩, hfinish, ht⟩ := Option.map_eq_some_iff.mp h
    obtain ⟨rfl, rfl⟩ := Prod.mk.inj ht
    exact ⟨rfl, finishInternal_flushed hr hfinish hfinal⟩

/-- After every run of calls, the encoder of a live stream ran the graphs of the samples handed in, and
a flushed encoder ran all graphs of the utterance. -/
theorem encoderRuns_run {maxEvents : ℕ} {device : Device ε γ κ} {ops : List Op} {os : List Response}
    (hrun : runSteps (streamStep eng) (Stream.create maxEvents device) ops = some (s, os)) :
    (s.Live → encoderRuns s.trace =
      Voxtral.liveRuns eng.schedule
        (emittedAt eng.schedule.logical (acceptedPcm (ops.zip os)).length)) ∧
    (s.frontend.enc.finalized = true → EncoderFlushed eng s (acceptedPcm (ops.zip os)).length) := by
  have hinv := runSteps_induction (P := fun s ops os => os.length = ops.length ∧
      OpReady eng True s ∧ HandedIn eng s (acceptedPcm (ops.zip os)) ∧
      (s.frontend.enc.finalized = true → EncoderFlushed eng s (acceptedPcm (ops.zip os)).length)) ?_
    ⟨rfl, opReady_create eng True maxEvents device, handedIn_create maxEvents device,
      fun h => absurd h Bool.false_ne_true⟩ hrun
  · obtain ⟨-, hr, hhanded, hflushed⟩ := hinv
    refine ⟨fun hlive => ?_, hflushed⟩
    rw [hr.liveRuns hlive, hhanded.samples (Or.inl hlive), List.length_map]
  rintro s ops os op s' r ⟨hlength, hr, hhanded, hflushed⟩ hstep
  have hzip : (ops ++ [op]).zip (os ++ [r]) = ops.zip os ++ [(op, r)] :=
    List.zip_append hlength.symm
  refine ⟨by rw [List.length_append, List.length_append, hlength]; rfl,
    (streamStep_moves hr (Or.inl trivial) hstep).2, ?_, fun hfinal => ?_⟩
  · rw [hzip, acceptedPcm_concat]
    exact hhanded.step hr hstep
  · obtain ⟨hnone, hkept | ⟨hlive, hnow⟩⟩ := streamStep_flushed hr hstep hfinal
    · rw [hzip, acceptedPcm_concat, hnone, List.append_nil]
      rw [hkept.1] at hfinal
      exact (hflushed hfinal).congr (by rw [hkept.1]) hkept.2
    · rw [hzip, acceptedPcm_concat, hnone, List.append_nil]
      rwa [hhanded.samples (Or.inl hlive), List.length_map] at hnow

/-- The Mel frames a batch reads are in the tail the encoder kept. -/
def MelAtHand (enc : EncoderStream φ) (qStart n : ℕ) : Prop :=
  enc.tailBase ≤ convMelStart qStart ∧ convMelEnd qStart n ≤ enc.tailBase + enc.melTail.length

/-- The encoder of a stream never lacks Mel frames: whatever is pushed, they are at hand for the next
realizable batches, and only a failed graph makes a feed or the frontend part of a finish fail. -/
structure NeverLacksMel (eng : Engine α φ ε γ κ) (s : Stream α φ ε γ κ) : Prop where
  atHand : s.Live → ∀ frames n,
    s.frontend.enc.emitted + n ≤ encFramesRealizable (s.frontend.enc.stableMel + frames.length) →
    MelAtHand (pushFrames s frames).frontend.enc s.frontend.enc.emitted n
  feed : s.Open → ∀ buf t, feedCommon eng s buf = some (t, .backendError) → LastGraphFailed eng t
  finish : s.Open → Resumes eng s → s.lifecycle.totalSamplesReceived ≠ 0 → ∀ t what,
    finishFrontend eng (flushStart (resumed eng s)) = some (t, some what) → LastGraphFailed eng t

/-- A stream ready for a call never lacks Mel frames. -/
lemma OpReady.neverLacksMel (hr : OpReady eng True s) : NeverLacksMel eng s where
  atHand hlive frames n hfit := by
    have htracks := ((hr.live hlive).front.tracks).push frames
    have hbase := htracks.base
    have htail := congrArg List.length htracks.tail
    have hstable := htracks.stable
    rw [List.length_drop, ← hstable] at htail
    rw [encFramesRealizable_eq] at hfit
    have hgrown : (pushFrames s frames).frontend.enc.stableMel =
        s.frontend.enc.stableMel + frames.length := rfl
    have hrealizable := htracks.realizable
    rw [encFramesRealizable_eq] at hrealizable
    simp only [pushFrames_emitted] at hbase hrealizable
    unfold MelAtHand convMelStart convMelEnd
    omega
  feed hopen buf t h := (feedCommon_outcome hr hopen (Or.inl trivial) h).blame rfl
  finish hopen hresumes hzero t what h := by
    obtain ⟨hready, hopen', -⟩ := resumed_ready hr hopen hresumes
    have hlive := live_of_open hopen'
    have htotal := (resumed_frame eng hr.within).totalReceived
    exact (finishFrontend_continues (hready.live hlive) hlive (by rwa [htotal]) h).2.2.blame
      (by simp)

end Runs

/-- **The encoder schedule is feed-plan invariant and total.**  Let the grids come from any environment.
However a caller splits its samples into feeds, the encoder graphs of a live stream, and those run up to
the end of its finish, are functions of the number of samples.  The latter compute every realizable
frame of the padded signal exactly once, in order; none crosses a physical block; the encoder never
lacks Mel frames; and the drive loop ends after as many iterations as there are frames to emit. -/
theorem encoder_schedule_feed_plan_invariant [Zero α] (engine : Engine α φ ε γ κ)
    (env : String → Option Bytes) (maxEvents : ℕ) (device : Device ε γ κ) (ops : List Op)
    (s : Stream α φ ε γ κ) (os : List Response)
    (hrun : runSteps (streamStep (engine.fromEnv env)) (Stream.create maxEvents device) ops =
      some (s, os)) :
    let eng := engine.fromEnv env
    let n := (acceptedPcm (ops.zip os)).length
    (s.Live → encoderRuns s.trace = liveRuns eng.schedule (emittedAt eng.schedule.logical n)) ∧
    (s.frontend.enc.finalized = true → encoderRuns s.trace = utteranceRuns eng n ∧
      s.frontend.enc.melHistory.length = totalMelFrames n) ∧
    framesOf (utteranceRuns eng n) = List.range (encFramesRealizable (totalMelFrames n)) ∧
    (∀ r ∈ utteranceRuns eng n, r.WithinBlock) ∧
    NeverLacksMel eng s ∧
    ∀ (t : Stream α φ ε γ κ) final target fuel more, target ≤ t.frontend.enc.emitted + fuel →
      encoderKvDriveLoop eng final target (fuel + more) t =
        encoderKvDriveLoop eng final target fuel t := by
  have hr := (runSteps_moves (opReady_create _ True maxEvents device) (Or.inl trivial) hrun).2
  obtain ⟨hlive, hflushed⟩ := encoderRuns_run hrun
  exact ⟨hlive, fun hfinal => ⟨(hflushed hfinal).recorded, (hflushed hfinal).mel⟩,
    framesOf_utteranceRuns _ _, utteranceRuns_withinBlock _ _, hr.neverLacksMel,
    fun t final target fuel more hfuel => encoderKvDriveLoop_terminates final target fuel more hfuel⟩

/-- In an empty environment a second of audio runs the block of 128 frames and twelve batches. -/
theorem encoder_schedule_feed_plan_invariant_second : ∃ s os,
    runSteps (streamStep ((plainEngine defaultSchedule).fromEnv fun _ => none))
      (Stream.create 64 plainDevice) [feedZeros 16000] = some (s, os) ∧
    encoderRuns s.trace = ⟨0, 128, 128⟩ :: (List.range 12).map fun i => ⟨128 + i * 4, 4, 4⟩ := by
  have henv : (plainEngine defaultSchedule).fromEnv (fun _ => none) = plainEngine defaultSchedule := rfl
  obtain ⟨s, os, hrun, hos, halike⟩ := exists_pacedRun (plainEngine_runs defaultSchedule) 64
    [feedZeros 16000] (by simp [TotalFits])
  simp only [List.map_cons, feedZeros_paced, List.map_nil] at hos halike
  have hmodel : let m := pacedRun (plainEngine defaultSchedule) 64 plainDevice [.feed false 16000]
      m.2 = [.feed .ok 16000] ∧ m.1.lifecycle.state = .running := by
    decide +kernel
  simp only [hos, halike.lifecycle] at hmodel
  obtain ⟨rfl, hstate⟩ := hmodel
  rw [← henv] at hrun
  have hlive := (encoder_schedule_feed_plan_invariant (plainEngine defaultSchedule) (fun _ => none) 64
    plainDevice [feedZeros 16000] s [.feed .ok 16000] hrun).1 (Or.inr (Or.inl hstate))
  have hcount : ∀ n : ℕ, (acceptedPcm ([feedZeros n].zip [.feed .ok n])).length = n := by
    intro n
    have htake : ((List.replicate n (0 : ℤ)).take n).length = n := by simp
    exact (congrArg List.length (List.append_nil _)).trans htake
  rw [hcount] at hlive
  exact ⟨s, _, hrun, hlive.trans (by decide +kernel)⟩

end Voxtral
