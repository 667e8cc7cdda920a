import Voxtral.Stream.EncoderRuns

/-!
# The frontend pipeline

While audio arrives, the Mel frontend has computed every stable frame of the left-padded signal, the
encoder was handed the same frames in order, and what it emitted has a closed form.  At the finish the
rest of the padded signal goes the same way.
-/

namespace Voxtral

variable {α φ ε γ κ : Type*}

/-- The signal the Mel frontend received: the left padding, once injected, and the real samples. -/
def paddedSignal [Zero α] (f : Frontend α φ) : List α :=
  (if f.leftPadInjected then List.replicate streamLeftPad 0 else []) ++ f.realSamples

/-- The frontend of a live stream. -/
structure FrontReady [Zero α] (eng : Engine α φ ε γ κ) (s : Stream α φ ε γ κ) : Prop where
  mel : MelReady eng.melFrame (paddedSignal s.frontend) s.frontend.melFe
  unpadded : s.frontend.leftPadInjected = false → s.frontend.realSamples = []
  base : s.frontend.melFe.melBaseFrame ≤ s.frontend.encPushedFrames
  pushed : s.frontend.encPushedFrames ≤ s.frontend.melFe.nextFrame
  history : s.frontend.enc.melHistory =
    (List.range s.frontend.encPushedFrames).map (melRow eng.melFrame (paddedSignal s.frontend))
  tracks : EncoderTracks eng s.frontend.enc s.device.encOutRing
  running : s.frontend.enc.finalized = false
  emitted : s.frontend.enc.emitted =
    encEmitted eng.schedule.logical (encFramesRealizable s.frontend.encPushedFrames)
  bound : (paddedSignal s.frontend).length < 2 ^ 31 + 72

/-- Every stable Mel frame was handed to the encoder. -/
def Drained (s : Stream α φ ε γ κ) : Prop :=
  s.frontend.encPushedFrames = s.frontend.melFe.nextFrame

section Pipeline

variable [Zero α] {eng : Engine α φ ε γ κ} {s s' : Stream α φ ε γ κ}

/-- With a ready front the stable Mel frames are those pushed. -/
lemma FrontReady.stableMel (h : FrontReady eng s) :
    s.frontend.enc.stableMel = s.frontend.encPushedFrames := by
  rw [h.tracks.stable, h.history, List.length_map, List.length_range]

/-- A live frontend is not finished. -/
lemma FrontReady.notFinal {P : Prop} (h : FrontReady eng s) :
    s.frontend.melFe.finalized = true → P := by
  intro hfinal
  rw [h.mel.live] at hfinal
  exact absurd hfinal (by decide)

/-- The frontend and the encoder ring are all that matters. -/
lemma FrontReady.congr (h : FrontReady eng s) (hfrontend : s'.frontend = s.frontend)
    (hring : s'.device.encOutRing = s.device.encOutRing) : FrontReady eng s' := by
  refine ⟨?_, ?_, ?_, ?_, ?_, ?_, ?_, ?_, ?_⟩
  all_goals rw [hfrontend]
  · exact h.mel
  · exact h.unpadded
  · exact h.base
  · exact h.pushed
  · exact h.history
  · rw [hring]
    exact h.tracks
  · exact h.running
  · exact h.emitted
  · exact h.bound

/-- A new stream. -/
lemma frontReady_create (eng : Engine α φ ε γ κ) (maxEvents : ℕ) (device : Device ε γ κ) :
    FrontReady eng (Stream.create maxEvents device) where
  mel := melReady_init false
  unpadded := fun _ => rfl
  base := le_rfl
  pushed := le_rfl
  history := rfl
  tracks :=
    { stable := rfl
      tail := rfl
      base := Nat.zero_le _
      realizable := Nat.zero_le _
      holds := fun _ _ hp => absurd hp (Nat.not_lt_zero _) }
  running := rfl
  emitted := rfl
  bound := by simp [paddedSignal, Stream.create]

/-! ## Handing Mel frames over -/

/-- The encoder ran the graphs of its cursor. -/
def RunsRecorded (eng : Engine α φ ε γ κ) (s : Stream α φ ε γ κ) : Prop :=
  encoderRuns s.trace = liveRuns eng.schedule s.frontend.enc.emitted

/-- Where handing frames over leads. -/
structure DrainOutcome (eng : Engine α φ ε γ κ) (s s' : Stream α φ ε γ κ) (ok : Bool) : Prop where
  padded : s'.frontend.leftPadInjected = s.frontend.leftPadInjected
  samples : s'.frontend.realSamples = s.frontend.realSamples
  running : s'.frontend.enc.finalized = false
  ready : ok = true → FrontReady eng s' ∧ Drained s'
  lifecycle : ok = true → s'.lifecycle = s.lifecycle
  recorded : ok = true → RunsRecorded eng s → RunsRecorded eng s'
  blame : ok = false → LastGraphFailed eng s'

/-- A drain with nothing to do. -/
lemma DrainOutcome.refl (h : FrontReady eng s)
    (hdone : s.frontend.encPushedFrames = s.frontend.melFe.nextFrame) :
    DrainOutcome eng s s true :=
  ⟨rfl, rfl, h.running, fun _ => ⟨h, hdone⟩, fun _ => rfl, fun _ h => h,
    fun h => absurd h (by decide)⟩

omit [Zero α] in
/-- The discards of the Mel frontend leave its cursor alone. -/
lemma nextFrame_discardBefore (fe : MelFrontend α φ) (frame : ℤ) :
    (melFrontendDiscardBefore fe frame).nextFrame = fe.nextFrame := by
  obtain ⟨frames, base, heq⟩ := melFrontendDiscardBefore_eq fe frame
  rw [heq]

/-- Rows are collected slice by slice. -/
lemma range_map_append_range' {β : Type*} (f : ℕ → β) (base n : ℕ) :
    (List.range base).map f ++ (List.range' base n).map f = (List.range (base + n)).map f := by
  rw [← List.map_append, List.range_eq_range', List.range_eq_range']
  congr 1
  simpa using List.range'_append_1 (s := 0) (m := base) (n := n)

/-- The stream after the frames `[encPushedFrames, encPushedFrames + n)` were handed over. -/
lemma FrontReady.handOver (h : FrontReady eng s) {n : ℕ}
    (hle : s.frontend.encPushedFrames + n ≤ s.frontend.melFe.nextFrame) {t : Stream α φ ε γ κ}
    {frames : List φ}
    (hframes : frames = (List.range' s.frontend.encPushedFrames n).map
      (melRow eng.melFrame (paddedSignal s.frontend)))
    (hpush : DriveOutcome eng (pushFrames s frames) t true (encEmitted eng.schedule.logical
      (encFramesRealizable (s.frontend.enc.stableMel + frames.length)))) :
    FrontReady eng { t with frontend := { t.frontend with
      encPushedFrames := s.frontend.encPushedFrames + n
      melFe := melFrontendDiscardBefore t.frontend.melFe (s.frontend.encPushedFrames + n : ℕ) } } := by
  have hmelFe : t.frontend.melFe = s.frontend.melFe := hpush.frame.melFe
  have hpadded : t.frontend.leftPadInjected = s.frontend.leftPadInjected := hpush.frame.padded
  have hsamples : t.frontend.realSamples = s.frontend.realSamples := hpush.frame.samples
  have hsignal : paddedSignal { t.frontend with
      encPushedFrames := s.frontend.encPushedFrames + n
      melFe := melFrontendDiscardBefore t.frontend.melFe (s.frontend.encPushedFrames + n : ℕ) } =
      paddedSignal s.frontend := by
    simp only [paddedSignal, hpadded, hsamples]
  have hlength : frames.length = n := by rw [hframes, List.length_map, List.length_range']
  refine ⟨?_, ?_, ?_, ?_, ?_, hpush.tracks rfl, ?_, ?_, ?_⟩
  · rw [hsignal]
    simp only [hmelFe]
    exact h.mel.discardBefore _
  · simp only [hpadded, hsamples]
    exact h.unpadded
  · simp only [hmelFe]
    exact melBaseFrame_discardBefore _ (h.base.trans (Nat.le_add_right _ _))
  · simp only [hmelFe, nextFrame_discardBefore]
    exact hle
  · rw [hsignal]
    simp only [hpush.frame.history, pushFrames, h.history, hframes, range_map_append_range']
  · simp only [hpush.frame.finalized]
    exact h.running
  · simp only [hpush.emitted rfl, h.stableMel, hlength]
  · rw [hsignal]
    exact h.bound

/-- The loop of `drain_mel_to_encoder`. -/
lemma drainMelLoop_outcome (fuel : ℕ) (h : FrontReady eng s) {total : ℕ}
    (htotal : total = s.frontend.melFe.nextFrame)
    (hfuel : total ≤ s.frontend.encPushedFrames + fuel) :
    DrainOutcome eng s (drainMelLoop eng total fuel s).1 (drainMelLoop eng total fuel s).2 := by
  induction fuel generalizing s with
  | zero => exact DrainOutcome.refl h (by have := h.pushed; omega)
  | succ fuel ih =>
    have hpushed := h.pushed
    rw [drainMelLoop]
    simp only
    by_cases hmore : s.frontend.encPushedFrames < total
    · rw [if_pos hmore, h.mel.toMelTracks.frameData h.base (by omega)]
      simp only [← List.map_take]
      set n := min melDrainSlice (total - s.frontend.encPushedFrames) with hn
      have hpos : 0 < n := by
        simp only [hn, melDrainSlice]
        omega
      rw [List.take_range'_of_length_ge (by omega)]
      set frames := (List.range' s.frontend.encPushedFrames n).map
        (melRow eng.melFrame (paddedSignal s.frontend)) with hframes
      have hne : frames ≠ [] := by
        intro hnil
        have hlen := congrArg List.length hnil
        rw [hframes, List.length_map, List.length_range', List.length_nil] at hlen
        omega
      have hpush := encoderStreamPushMel_live h.tracks h.running
        (by rw [h.stableMel]; exact h.emitted) hne
      simp only [h.stableMel] at hpush
      have hframe := hpush.frame
      cases hok : (encoderStreamPushMel eng s false frames s.frontend.encPushedFrames).2 with
      | false =>
        rw [hok] at hpush
        simp only [Bool.not_false, if_true]
        exact ⟨hframe.padded, hframe.samples, hframe.finalized.trans h.running,
          fun hfalse => absurd hfalse (by decide), fun hfalse => absurd hfalse (by decide),
          fun hfalse => absurd hfalse (by decide), fun _ => hpush.blame rfl⟩
      | true =>
        rw [hok, ← h.stableMel] at hpush
        simp only [Bool.not_true, Bool.false_eq_true, if_false]
        rw [h.stableMel] at hpush
        have hnext := h.handOver (by omega) hframes (by rw [h.stableMel]; exact hpush)
        have hmelFe := hframe.melFe
        have hrest := ih hnext (by
          simp only [hmelFe, nextFrame_discardBefore]
          exact htotal) (by simp only; omega)
        refine ⟨hrest.padded.trans hframe.padded, hrest.samples.trans hframe.samples, hrest.running,
          hrest.ready,
          fun hdone => (hrest.lifecycle hdone).trans hframe.lifecycle,
          fun hdone hrecorded => hrest.recorded hdone ?_, hrest.blame⟩
        have hmore := encoderStreamPushMel_recorded h.running hne (by rw [h.stableMel]; exact hok)
        have hrecorded' : encoderRuns s.trace = liveRuns eng.schedule s.frontend.enc.emitted :=
          hrecorded
        rw [hrecorded', h.stableMel, h.emitted,
          liveRuns_append (encFramesRealizable_mono (Nat.le_add_right _ _))] at hmore
        exact hmore.trans (congrArg (liveRuns eng.schedule) (hpush.emitted rfl).symm)
    · rw [if_neg hmore]
      exact DrainOutcome.refl h (by omega)

/-- `drain_mel_to_encoder` while audio arrives. -/
lemma drainMelToEncoder_outcome (h : FrontReady eng s) :
    DrainOutcome eng s (drainMelToEncoder eng s false).1 (drainMelToEncoder eng s false).2 := by
  have hpushed := h.pushed
  unfold drainMelToEncoder
  simp only [Bool.false_eq_true, if_false]
  by_cases hdone : s.frontend.melFe.nextFrame ≤ s.frontend.encPushedFrames
  · rw [if_pos hdone]
    exact DrainOutcome.refl h (by omega)
  · rw [if_neg hdone, if_neg (not_lt.mpr h.base)]
    exact drainMelLoop_outcome _ h rfl (by omega)

/-! ## Samples -/

/-- The frontend after the signal grew by `more`. -/
lemma FrontReady.extend (h : FrontReady eng s) {more samples : List α} {padded : Bool}
    {fe : MelFrontend α φ}
    (hsignal : (if padded then List.replicate streamLeftPad 0 else []) ++ samples =
      paddedSignal s.frontend ++ more)
    (hunpadded : padded = false → samples = [])
    (hmel : MelReady eng.melFrame (paddedSignal s.frontend ++ more) fe)
    (hbase : fe.melBaseFrame = s.frontend.melFe.melBaseFrame)
    (hbound : (paddedSignal s.frontend ++ more).length < 2 ^ 31 + 72) :
    FrontReady eng { s with frontend := { s.frontend with
      leftPadInjected := padded, melFe := fe, realSamples := samples } } := by
  have hgrow : stableFrameCount (paddedSignal s.frontend).length ≤
      stableFrameCount (paddedSignal s.frontend ++ more).length :=
    stableFrameCount_mono (by simp)
  have hpushed : s.frontend.encPushedFrames ≤ stableFrameCount (paddedSignal s.frontend).length := by
    rw [← h.mel.next]
    exact h.pushed
  have hsame : paddedSignal { s.frontend with
      leftPadInjected := padded, melFe := fe, realSamples := samples } =
      paddedSignal s.frontend ++ more := hsignal
  refine ⟨?_, hunpadded, ?_, ?_, ?_, h.tracks, h.running, h.emitted, ?_⟩
  · rw [hsame]
    exact hmel
  · simp only [hbase]
    exact h.base
  · simp only [hmel.next]
    exact hpushed.trans hgrow
  · rw [hsame]
    simp only [h.history]
    refine List.map_congr_left fun f hf => (melRow_append _ _ _ ?_).symm
    exact (List.mem_range.mp hf).trans_le hpushed
  · rw [hsame]
    exact hbound

/-- The left padding is long enough for the first frames. -/
lemma length_paddedSignal (hpadded : s.frontend.leftPadInjected = true) :
    (paddedSignal s.frontend).length = 40960 + s.frontend.realSamples.length := by
  rw [paddedSignal, if_pos hpadded, List.length_append, List.length_replicate]
  rfl

/-- `ensure_left_pad` of a live stream. -/
lemma ensureLeftPad_outcome (h : FrontReady eng s) (hs' : ensureLeftPad eng s = some s') :
    FrontReady eng s' ∧ s'.frontend.leftPadInjected = true ∧
      s'.frontend.realSamples = s.frontend.realSamples ∧
      (s.frontend.leftPadInjected = true → s' = s) := by
  unfold ensureLeftPad at hs'
  by_cases hpadded : s.frontend.leftPadInjected = true
  · rw [if_pos hpadded] at hs'
    obtain rfl := Option.some.inj hs'
    exact ⟨h, hpadded, rfl, fun _ => rfl⟩
  · rw [if_neg hpadded] at hs'
    simp only [Bool.not_eq_true] at hpadded
    have hnil := h.unpadded hpadded
    have hempty : paddedSignal s.frontend = [] := by
      rw [paddedSignal, hpadded, hnil]
      rfl
    have hlen : (paddedSignal s.frontend ++ List.replicate streamLeftPad (0 : α)).length = 40960 := by
      rw [hempty, List.nil_append, List.length_replicate]
      rfl
    obtain ⟨r, hfeed, rfl⟩ := Option.map_eq_some_iff.mp hs'
    obtain ⟨fe, hsome, hready, hbase, -⟩ := melFrontendFeed_ready h.mel
      (List.replicate streamLeftPad 0) (Or.inl (by rw [hlen]; norm_num))
    have hr : r = (true, fe) := Option.some.inj (hfeed.symm.trans hsome)
    subst hr
    refine ⟨h.extend ?_ (fun hfalse => absurd hfalse (by decide)) hready hbase ?_, rfl, rfl,
      fun htrue => absurd (hpadded.symm.trans htrue) (by decide)⟩
    · rw [hempty, hnil, if_pos rfl, List.append_nil, List.nil_append]
    · omega

/-- Where absorbing a slice leads. -/
structure AbsorbOutcome (eng : Engine α φ ε γ κ) (s s' : Stream α φ ε γ κ) (slice : List α)
    (ok : Bool) : Prop where
  padded : s'.frontend.leftPadInjected = true
  samples : s'.frontend.realSamples = s.frontend.realSamples ++ slice
  running : s'.frontend.enc.finalized = false
  ready : ok = true → FrontReady eng s' ∧ Drained s'
  lifecycle : ok = true → s'.lifecycle = s.lifecycle
  recorded : ok = true → RunsRecorded eng s → RunsRecorded eng s'
  blame : ok = false → LastGraphFailed eng s'

/-- Without failing graphs a slice is absorbed. -/
lemma AbsorbOutcome.runs {slice : List α} {ok : Bool} (h : AbsorbOutcome eng s s' slice ok)
    (hruns : ∀ n, eng.submitFails n = false) : ok = true := by
  cases ok with
  | true => rfl
  | false => exact absurd ((hruns _).symm.trans (h.blame rfl)) (by decide)

/-- One slice of a feed. -/
lemma absorbSlice_outcome (h : FrontReady eng s) (hpadded : s.frontend.leftPadInjected = true)
    {slice : List α} (hslice : slice.length ≤ audioDrainSlice) {ok : Bool}
    (hs' : absorbSlice eng s slice = some (s', ok)) : AbsorbOutcome eng s s' slice ok := by
  have hlen := length_paddedSignal hpadded
  simp only [audioDrainSlice] at hslice
  unfold absorbSlice at hs'
  obtain ⟨r, hfeed, hr⟩ := Option.map_eq_some_iff.mp hs'
  obtain ⟨htrue, hready, hbase, -, hbound⟩ :=
    melFrontendFeed_of_some h.mel (by omega) h.bound (by omega) hfeed
  have hsignal : (if s.frontend.leftPadInjected then List.replicate streamLeftPad 0 else []) ++
      (s.frontend.realSamples ++ slice) = paddedSignal s.frontend ++ slice := by
    rw [paddedSignal, List.append_assoc]
  have hnext := h.extend hsignal
    (fun hfalse => absurd (hpadded.symm.trans hfalse) (by decide)) hready hbase hbound
  have hdrain := drainMelToEncoder_outcome hnext
  simp only [htrue, Bool.not_true, Bool.false_eq_true, if_false] at hr
  have hs := congrArg Prod.fst hr
  have hok := congrArg Prod.snd hr
  simp only at hs hok
  rw [← hs, ← hok]
  exact ⟨hdrain.padded.trans hpadded, hdrain.samples, hdrain.running, hdrain.ready,
    hdrain.lifecycle, hdrain.recorded, hdrain.blame⟩

/-- Slices below the 32-bit range have a result. -/
lemma absorbSlice_isSome (h : FrontReady eng s) {slice : List α}
    (hfits : (paddedSignal s.frontend ++ slice).length < 2 ^ 31) :
    (absorbSlice eng s slice).isSome = true := by
  obtain ⟨fe, hfeed, -⟩ := melFrontendFeed_ready h.mel slice (Or.inl (by exact_mod_cast hfits))
  rw [absorbSlice, hfeed]
  rfl

/-! ## The finish -/

/-- The complete signal of `samples`: the padding of a finished stream on both sides. -/
def finishedSignal (samples : List α) : List α :=
  List.replicate streamLeftPad 0 ++ samples ++ List.replicate (finishRightPad samples.length) 0

/-- The audio groups of a finished stream of `n` real samples. -/
def finishGroups (n : ℕ) : ℕ := 49 + (n + 1279) / 1280

omit [Zero α] in
/-- The padded samples of a finished stream are whole groups. -/
lemma length_finished (n : ℕ) : 40960 + n + finishRightPad n = 1280 * finishGroups n := by
  rw [finishRightPad_eq, finishGroups]
  omega

/-- All Mel frames of a signal. -/
def melRows (eng : Engine α φ ε γ κ) (signal : List α) : List φ :=
  (List.range (finalFrameCount signal.length)).map (melRow eng.melFrame signal)

/-- The frontend of a finished stream: every frame of the complete signal was emitted. -/
structure Flushed (eng : Engine α φ ε γ κ) (s : Stream α φ ε γ κ) : Prop where
  history : s.frontend.enc.melHistory = melRows eng (finishedSignal s.frontend.realSamples)
  emitted : s.frontend.enc.emitted = 4 * finishGroups s.frontend.realSamples.length
  holds : s.device.encOutRing.Holds encOutRingCap (encoderFrameAt eng s.frontend.enc.melHistory)
    (s.frontend.enc.emitted - encOutRingCap) s.frontend.enc.emitted

/-- The graphs of a finish after `emitted` frames, when there are `n` real samples. -/
def finishRuns (eng : Engine α φ ε γ κ) (emitted n : ℕ) : List EncoderRun :=
  scheduleRuns eng.schedule eng.finishPhysical true (4 * finishGroups n)
    (4 * finishGroups n - emitted) emitted

/-- Where the frontend part of a finish leads: all frames are emitted, or a graph failed. -/
structure FlushOutcome (eng : Engine α φ ε γ κ) (s s' : Stream α φ ε γ κ) (out : Option String) :
    Prop where
  samples : s'.frontend.realSamples = s.frontend.realSamples
  flushed : out = none → Flushed eng s'
  finalized : s'.frontend.enc.finalized = true ↔ out = none
  lifecycle : out = none → s'.lifecycle = s.lifecycle
  recorded : out = none → encoderRuns s'.trace = encoderRuns s.trace ++
    finishRuns eng s.frontend.enc.emitted s.frontend.realSamples.length
  blame : out ≠ none → LastGraphFailed eng s'

/-- Without failing graphs all frames are emitted. -/
lemma FlushOutcome.runs {out : Option String} (h : FlushOutcome eng s s' out)
    (hruns : ∀ n, eng.submitFails n = false) : out = none := by
  by_contra hne
  exact absurd ((hruns _).symm.trans (h.blame hne)) (by decide)

omit [Zero α] in
/-- Finalizing an encoder that emitted everything runs no graph. -/
lemma encoderStreamFinish_of_done (hlive : s.frontend.enc.finalized = false)
    (hdone : s.frontend.enc.emitted = encFramesRealizable s.frontend.enc.stableMel) :
    encoderStreamFinish eng s =
      ({ s with frontend := { s.frontend with enc := { s.frontend.enc with
          finalized := true
          melTail := []
          tailBase := s.frontend.enc.stableMel } } }, true) := by
  have hdrive : encoderKvDrive eng s true = (s, true) := by
    simp only [encoderKvDrive, hdone, Nat.sub_self]
    rfl
  unfold encoderStreamFinish
  rw [if_neg (by simp [hlive]), hdrive]

/-- The Mel frames of a finished signal. -/
lemma MelComplete.nextFrame_finished {fe : MelFrontend α φ} {samples : List α}
    (h : MelComplete eng.melFrame (finishedSignal samples) fe) :
    fe.nextFrame = 8 * finishGroups samples.length := by
  have hlen : (finishedSignal samples).length = 1280 * finishGroups samples.length := by
    rw [← length_finished, finishedSignal, List.length_append, List.length_append,
      List.length_replicate, List.length_replicate]
    rfl
  rw [h.next, finalFrameCount, hlen]
  omega

/-- The last Mel frames, handed over in one push. -/
lemma drainFinal_outcome (h : FrontReady eng s) (hpadded : s.frontend.leftPadInjected = true)
    {fe : MelFrontend α φ}
    (hcomplete : MelComplete eng.melFrame (finishedSignal s.frontend.realSamples) fe)
    (hbase : fe.melBaseFrame = s.frontend.melFe.melBaseFrame) :
    let d := drainMelToEncoder eng { s with frontend := { s.frontend with melFe := fe } } true
    d.1.frontend.realSamples = s.frontend.realSamples ∧ d.1.frontend.enc.finalized = false ∧
      (d.2 = false → LastGraphFailed eng d.1) ∧
      (d.2 = true →
        d.1.frontend.enc.emitted = encFramesRealizable d.1.frontend.enc.stableMel ∧
        Flushed eng d.1 ∧ d.1.lifecycle = s.lifecycle ∧
        encoderRuns d.1.trace = encoderRuns s.trace ++
          finishRuns eng s.frontend.enc.emitted s.frontend.realSamples.length) := by
  set full := finishedSignal s.frontend.realSamples with hfull
  set n := s.frontend.realSamples.length with hn
  have hnext : fe.nextFrame = 8 * finishGroups n := hcomplete.nextFrame_finished
  have hsplit : full = paddedSignal s.frontend ++ List.replicate (finishRightPad n) 0 := by
    rw [hfull, finishedSignal, paddedSignal, if_pos hpadded]
  have hpushed : s.frontend.encPushedFrames ≤ stableFrameCount (40960 + n) := by
    rw [← length_paddedSignal hpadded, ← h.mel.next]
    exact h.pushed
  have hmore : s.frontend.encPushedFrames < fe.nextFrame := by
    rw [hnext, finishGroups]
    refine hpushed.trans_lt ?_
    unfold stableFrameCount
    split_ifs <;> omega
  set base := s.frontend.encPushedFrames with hbasedef
  set t : Stream α φ ε γ κ := { s with frontend := { s.frontend with melFe := fe } } with ht
  set frames := (List.range' base (fe.nextFrame - base)).map (melRow eng.melFrame full) with hframes
  have hdata : melFrontendFrameData fe base = some frames :=
    hcomplete.toMelTracks.frameData (by rw [hbase]; exact h.base) hmore
  have hcount : frames.length = fe.nextFrame - base := by
    rw [hframes, List.length_map, List.length_range']
  have hne : frames ≠ [] := by
    intro hnil
    rw [hnil, List.length_nil] at hcount
    omega
  have hpush := encoderStreamPushMel_final (s := t) h.tracks h.running hne
  have hstable : t.frontend.enc.stableMel = base := h.stableMel
  have hstable' : s.frontend.enc.stableMel = base := h.stableMel
  rw [hstable] at hpush
  simp only at hpush
  have hdrain : drainMelToEncoder eng t true =
      if !(encoderStreamPushMel eng t true frames base).2 then
        (setError (encoderStreamPushMel eng t true frames base).1 .backendError
          "incremental encoder rejected terminal Mel frames", false)
      else
        ({ (encoderStreamPushMel eng t true frames base).1 with frontend :=
          { (encoderStreamPushMel eng t true frames base).1.frontend with
            encPushedFrames := fe.nextFrame
            melFe := melFrontendDiscardBefore
              (encoderStreamPushMel eng t true frames base).1.frontend.melFe fe.nextFrame } },
          true) := by
    unfold drainMelToEncoder
    simp only [if_true]
    rw [if_neg (by simp only [ht]; omega), if_neg (by simp only [ht, hbase]; exact not_lt.mpr h.base)]
    simp only [ht, ← hbasedef, hdata]
    rw [List.take_of_length_le hcount.le]
  simp only [hdrain]
  cases hok : (encoderStreamPushMel eng t true frames base).2 with
  | false =>
    rw [hok] at hpush
    simp only [Bool.not_false, if_true]
    exact ⟨hpush.frame.samples, hpush.frame.finalized.trans h.running, fun _ => hpush.blame rfl,
      fun hfalse => absurd hfalse (by decide)⟩
  | true =>
    rw [hok] at hpush
    have hrecorded := encoderStreamPushMel_recorded (s := t) h.running hne
      (by rw [hstable]; exact hok)
    rw [hstable, hcount, encFramesRealizable_eq, hnext] at hrecorded
    have htarget : (base + (8 * finishGroups n - base)) / 2 = 4 * finishGroups n := by omega
    rw [htarget] at hrecorded
    have hframe := hpush.frame
    have htracks := hpush.tracks rfl
    have hemitted := hpush.emitted rfl
    simp only [Bool.not_true, Bool.false_eq_true, if_false]
    generalize (encoderStreamPushMel eng t true frames base).1 = u
      at hframe htracks hemitted hrecorded ⊢
    have hstableMel : u.frontend.enc.stableMel = base + frames.length := by
      rw [hframe.stable, pushFrames_stableMel, hstable]
    have hsamples : u.frontend.realSamples = s.frontend.realSamples := hframe.samples
    have hhistory : u.frontend.enc.melHistory = s.frontend.enc.melHistory ++ frames := hframe.history
    have hold : s.frontend.enc.melHistory = (List.range base).map (melRow eng.melFrame full) := by
      rw [h.history]
      refine List.map_congr_left fun f hf => ?_
      rw [hsplit, melRow_append]
      rw [length_paddedSignal hpadded]
      exact (List.mem_range.mp hf).trans_le hpushed
    refine ⟨hsamples, hframe.finalized.trans h.running, fun hfalse => absurd hfalse (by simp),
      fun _ => ⟨?_, ⟨?_, ?_, htracks.holds⟩, hframe.lifecycle, hrecorded⟩⟩
    · rw [hemitted, hstableMel]
    · simp only [hsamples, ← hfull]
      rw [hhistory, hold, hframes, range_map_append_range', melRows, ← hcomplete.next]
      congr 2
      omega
    · simp only [hsamples, ← hn]
      rw [hemitted, hcount, encFramesRealizable_eq, hnext]
      omega

/-- The result of handing the last Mel frames over: the encoder is finished, or what was thrown. -/
def drainedFinish (eng : Engine α φ ε γ κ) (d : Stream α φ ε γ κ × Bool) :
    Stream α φ ε γ κ × Option String :=
  if !d.2 then (d.1, some d.1.lifecycle.lastError)
  else
    let f := encoderStreamFinish eng d.1
    if !f.2 then (f.1, some "incremental encoder finish failed") else (f.1, none)

/-- The frontend part of a finish completes the Mel frames of the finished signal, and hands them over. -/
lemma finishFrontend_eq (h : FrontReady eng s) (hpadded : s.frontend.leftPadInjected = true)
    (htotal : s.lifecycle.totalSamplesReceived = s.frontend.realSamples.length)
    {out : Option String} (hs' : finishFrontend eng s = some (s', out)) :
    ∃ fe, MelComplete eng.melFrame (finishedSignal s.frontend.realSamples) fe ∧
      fe.melBaseFrame = s.frontend.melFe.melBaseFrame ∧
      (s', out) = drainedFinish eng
        (drainMelToEncoder eng { s with frontend := { s.frontend with melFe := fe } } true) := by
  have hlen := length_paddedSignal hpadded
  set n := s.frontend.realSamples.length with hn
  have hpad : 21760 ≤ finishRightPad n ∧ finishRightPad n ≤ 23039 := by
    rw [finishRightPad_eq]
    omega
  unfold finishFrontend at hs'
  obtain ⟨t, hleft, hfront⟩ := Option.bind_eq_some_iff.mp hs'
  rw [(ensureLeftPad_outcome h hleft).2.2.2 hpadded] at hfront
  obtain ⟨r, hfeed, hmel⟩ := Option.bind_eq_some_iff.mp hfront
  obtain ⟨fe, hfinish, hout⟩ := Option.map_eq_some_iff.mp hmel
  rw [htotal, melFrontendFeedSilence] at hfeed
  have hpadlen : (List.replicate (finishRightPad n) (0 : α)).length = finishRightPad n :=
    List.length_replicate
  obtain ⟨-, hready, hbase, -⟩ :=
    melFrontendFeed_of_some h.mel (by omega) h.bound (by rw [hpadlen]; omega) hfeed
  have hfits := melFrontendFeed_fits h.mel (by omega) h.bound (by rw [hpadlen]; omega)
    (by rw [hpadlen]; omega) hfeed
  obtain ⟨fe', hsome, hcomplete, hbase', -⟩ :=
    melFrontendFinish_complete hready (by exact_mod_cast hfits)
  obtain rfl : fe' = fe := Option.some.inj (hsome.symm.trans hfinish)
  have hsignal : paddedSignal s.frontend ++ List.replicate (finishRightPad n) 0 =
      finishedSignal s.frontend.realSamples := by
    rw [finishedSignal, paddedSignal, if_pos hpadded]
  rw [hsignal] at hcomplete
  exact ⟨fe', hcomplete, hbase'.trans hbase, hout.symm⟩

/-- The frontend part of a finish, after samples were received. -/
lemma finishFrontend_outcome (h : FrontReady eng s) (hpadded : s.frontend.leftPadInjected = true)
    (htotal : s.lifecycle.totalSamplesReceived = s.frontend.realSamples.length)
    {out : Option String} (hs' : finishFrontend eng s = some (s', out)) :
    FlushOutcome eng s s' out := by
  obtain ⟨fe, hcomplete, hbase, hout⟩ := finishFrontend_eq h hpadded htotal hs'
  obtain ⟨hsamples, hlive, hblame, hdone⟩ := drainFinal_outcome h hpadded hcomplete hbase
  unfold drainedFinish at hout
  by_cases hok : (drainMelToEncoder eng
      { s with frontend := { s.frontend with melFe := fe } } true).2 = true
  · obtain ⟨hemitted, hflushed, hlifecycle, hrecorded⟩ := hdone hok
    rw [hok, encoderStreamFinish_of_done hlive hemitted] at hout
    simp only [Bool.not_true, Bool.false_eq_true, if_false] at hout
    obtain ⟨rfl, rfl⟩ := Prod.mk.inj hout
    exact ⟨hsamples, fun _ => ⟨hflushed.history, hflushed.emitted, hflushed.holds⟩,
      ⟨fun _ => rfl, fun _ => rfl⟩, fun _ => hlifecycle, fun _ => hrecorded, fun h => absurd rfl h⟩
  · rw [if_pos (by simpa using hok)] at hout
    obtain ⟨rfl, rfl⟩ := Prod.mk.inj hout
    exact ⟨hsamples, fun hnone => absurd hnone (by simp),
      ⟨fun hfinal => absurd (hlive.symm.trans hfinal) (by decide), fun hnone => absurd hnone (by simp)⟩,
      fun hnone => absurd hnone (by simp), fun hnone => absurd hnone (by simp),
      fun _ => hblame (by simpa using hok)⟩

end Pipeline

end Voxtral
