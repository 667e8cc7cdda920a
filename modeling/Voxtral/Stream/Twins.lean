import Voxtral.Stream.Reset

/-!
# Streams on different devices

Two streams with the same records and the same frontend, whose device rings agree at the positions
written since they started, are `Twins`: whatever was left on a device before, no call can tell one from
the other.
-/

namespace Voxtral

variable {α φ ε γ κ : Type*} {eng : Engine α φ ε γ κ} {s t : Stream α φ ε γ κ}

/-- No call can tell the streams apart. -/
structure Twins (eng : Engine α φ ε γ κ) (s t : Stream α φ ε γ κ) : Prop
    extends Alike eng s.decoder.adapterGroupsCommitted s t where
  frontend : t.frontend = s.frontend

/-- The same answer, and twins. -/
def TwinResults {β : Type*} (eng : Engine α φ ε γ κ) (r r' : Stream α φ ε γ κ × β) : Prop :=
  r'.2 = r.2 ∧ Twins eng r.1 r'.1

/-- The same change of the frontends behind the encoder cursor. -/
lemma Twins.mapFrontend (h : Twins eng s t) (f : Frontend α φ → Frontend α φ)
    (hf : (f s.frontend).enc.emitted = s.frontend.enc.emitted) :
    Twins eng { s with frontend := f s.frontend } { t with frontend := f t.frontend } := by
  refine ⟨⟨h.params, h.lifecycle, h.decoder, h.events, ?_, h.submits, h.decKv, ?_, h.embRows⟩,
    congrArg f h.frontend⟩
  · rw [h.frontend]
  · exact (congrArg _ hf).mpr h.encRows

/-- Streams that stayed alike, and whose frontends did not change. -/
lemma Twins.of_alike {s' t' : Stream α φ ε γ κ} (h : Twins eng s t)
    (halike : Alike eng s'.decoder.adapterGroupsCommitted s' t') (hs : s'.frontend = s.frontend)
    (ht : t'.frontend = t.frontend) : Twins eng s' t' :=
  ⟨halike, by rw [hs, ht, h.frontend]⟩

/-- Twins note the same error. -/
lemma setError_twins (h : Twins eng s t) (status : Status) (msg : String) :
    Twins eng (setError s status msg) (setError t status msg) :=
  h.of_alike (setError_alike h.toAlike status msg) rfl rfl

/-- Twins clear their errors. -/
lemma clearError_twins (h : Twins eng s t) : Twins eng (clearError s) (clearError t) :=
  h.of_alike (clearError_alike h.toAlike) rfl rfl

/-- The same changes of the lifecycle and of the events. -/
lemma Twins.map (h : Twins eng s t) (f : Lifecycle → Lifecycle) (g : Events → Events) :
    Twins eng { s with lifecycle := f s.lifecycle, events := g s.events }
      { t with lifecycle := f t.lifecycle, events := g t.events } :=
  h.of_alike (h.toAlike.map f g) rfl rfl

/-- The same change of the decoder records that leaves the prefill and the committed groups alone. -/
lemma Twins.mapDecoder (h : Twins eng s t) (f : Decoder → Decoder)
    (hf : ∀ d, (f d).decoderPrefillDone = d.decoderPrefillDone)
    (hcommitted : (f s.decoder).adapterGroupsCommitted = s.decoder.adapterGroupsCommitted) :
    Twins eng { s with decoder := f s.decoder } { t with decoder := f t.decoder } := by
  refine h.of_alike ?_ rfl rfl
  rw [show ({ s with decoder := f s.decoder } : Stream α φ ε γ κ).decoder.adapterGroupsCommitted =
    s.decoder.adapterGroupsCommitted from hcommitted]
  exact h.toAlike.mapDecoder f hf _ _

/-! ## The encoder -/

/-- Twins get the same answer for a graph. -/
lemma submitGraph_twins (h : Twins eng s t) :
    TwinResults eng (submitGraph eng s) (submitGraph eng t) :=
  ⟨(submitGraph_alike h.toAlike).1, h.of_alike (submitGraph_alike h.toAlike).2 rfl rfl⟩

/-- Rings that agree below the first frame agree behind the frames written to both. -/
lemma writeEncRows_agree (history : List φ) {ring ring' : HistoryRing ε} {q : ℕ}
    (h : ring.AgreeBelow ring' encOutRingCap q) (n : ℕ) :
    (writeEncRows eng history ring q n).AgreeBelow (writeEncRows eng history ring' q n)
      encOutRingCap (q + n) := by
  induction n with
  | zero => exact h
  | succ n ih => exact ih.write _

/-- The frames of a graph are written to both rings. -/
lemma Twins.emit (h : Twins eng s t) (history : List φ) {q : ℕ} (hq : q = s.frontend.enc.emitted)
    (n : ℕ) (trace trace' : List (TraceEntry ε γ)) :
    Twins eng
      { s with
        frontend := { s.frontend with enc := { s.frontend.enc with emitted := q + n } }
        device := { s.device with
          encOutRing := writeEncRows eng history s.device.encOutRing q n }
        trace := trace }
      { t with
        frontend := { t.frontend with enc := { t.frontend.enc with emitted := q + n } }
        device := { t.device with
          encOutRing := writeEncRows eng history t.device.encOutRing q n }
        trace := trace' } := by
  subst hq
  refine ⟨⟨h.params, h.lifecycle, h.decoder, h.events, rfl, h.submits, h.decKv,
    writeEncRows_agree history h.encRows n, h.embRows⟩, ?_⟩
  dsimp only
  rw [h.frontend]

/-- So they do for a batch of the encoder. -/
lemma runEncoderKvBatch_twins (h : Twins eng s t) {q : ℕ} (hq : q = s.frontend.enc.emitted)
    (n physical : ℕ) :
    TwinResults eng (runEncoderKvBatch eng s q n physical)
      (runEncoderKvBatch eng t q n physical) := by
  unfold runEncoderKvBatch
  rw [h.frontend]
  by_cases hmiss : convMelStart q < s.frontend.enc.tailBase ∨
      s.frontend.enc.tailBase + s.frontend.enc.melTail.length < convMelEnd q n
  · rw [if_pos hmiss, if_pos hmiss]
    exact ⟨rfl, h⟩
  · rw [if_neg hmiss, if_neg hmiss]
    obtain ⟨hran, hsubmit⟩ := submitGraph_twins h
    simp only [hran]
    cases (submitGraph eng s).2 with
    | false => exact ⟨rfl, hsubmit⟩
    | true =>
      simp only [Bool.not_true, Bool.false_eq_true, if_false]
      by_cases hreuse : n = 4 ∧ physical = 4
      · simp only [if_pos hreuse, Bool.not_true, Bool.false_eq_true, if_false]
        exact ⟨rfl, hsubmit.emit _ hq n _ _⟩
      · obtain ⟨hcopied, hcopy⟩ := submitGraph_twins hsubmit
        simp only [if_neg hreuse, hcopied]
        cases (submitGraph eng (submitGraph eng s).1).2 with
        | false => exact ⟨rfl, hcopy⟩
        | true =>
          simp only [Bool.not_true, Bool.false_eq_true, if_false]
          exact ⟨rfl, hcopy.emit _ hq n _ _⟩

/-- So they do for a batch behind its checks. -/
lemma encoderKvRun_twins (h : Twins eng s t) {q : ℕ} (hq : q = s.frontend.enc.emitted)
    (n physical : ℕ) :
    TwinResults eng (encoderKvRun eng s q n physical) (encoderKvRun eng t q n physical) := by
  unfold encoderKvRun
  rw [h.frontend]
  by_cases hplan : n = 0 ∨ encKvCap - encWindow < n
  · rw [if_pos hplan, if_pos hplan]
    exact ⟨rfl, h⟩
  rw [if_neg hplan, if_neg hplan]
  by_cases hstable : s.frontend.enc.stableMel < convMelEnd q n
  · rw [if_pos hstable, if_pos hstable]
    exact ⟨rfl, h⟩
  rw [if_neg hstable, if_neg hstable]
  obtain ⟨hran, hbatch⟩ := runEncoderKvBatch_twins h hq n physical
  simp only [hran]
  cases (runEncoderKvBatch eng s q n physical).2 with
  | false => exact ⟨rfl, hbatch⟩
  | true =>
    refine ⟨rfl, hbatch.mapFrontend (fun f => { f with enc := encoderKvTrimTail f.enc }) ?_⟩
    exact encoderKvTrimTail_emitted _

/-- So they do in the loop of the batches. -/
lemma encoderKvDriveLoop_twins (final : Bool) (target fuel : ℕ) (h : Twins eng s t) :
    TwinResults eng (encoderKvDriveLoop eng final target fuel s)
      (encoderKvDriveLoop eng final target fuel t) := by
  induction fuel generalizing s t with
  | zero => exact ⟨rfl, h⟩
  | succ fuel ih =>
    -- one graph, then the rest
    have hnext : ∀ {q : ℕ} (n physical : ℕ), q = s.frontend.enc.emitted → TwinResults eng
        (if !(encoderKvRun eng s q n physical).2 then ((encoderKvRun eng s q n physical).1, false)
          else encoderKvDriveLoop eng final target fuel (encoderKvRun eng s q n physical).1)
        (if !(encoderKvRun eng t q n physical).2 then ((encoderKvRun eng t q n physical).1, false)
          else encoderKvDriveLoop eng final target fuel (encoderKvRun eng t q n physical).1) := by
      intro q n physical hq
      obtain ⟨hran, hrun⟩ := encoderKvRun_twins h hq n physical
      rw [hran]
      cases (encoderKvRun eng s q n physical).2 with
      | false => exact ⟨rfl, hrun⟩
      | true => exact ih hrun
    rw [encoderKvDriveLoop, encoderKvDriveLoop]
    simp only [h.frontend]
    by_cases hdone : target ≤ s.frontend.enc.emitted
    · rw [if_pos hdone, if_pos hdone]
      exact ⟨rfl, h⟩
    rw [if_neg hdone, if_neg hdone]
    by_cases hhold : s.frontend.enc.emitted = 0 ∧ final = false ∧ target < encKvMaxNew
    · rw [if_pos hhold, if_pos hhold]
      exact ⟨rfl, h⟩
    rw [if_neg hhold, if_neg hhold]
    by_cases hfirst : s.frontend.enc.emitted = 0 ∧ encKvMaxNew ≤ target
    · rw [if_pos hfirst, if_pos hfirst]
      exact hnext encKvMaxNew encKvMaxNew hfirst.1.symm
    rw [if_neg hfirst, if_neg hfirst]
    by_cases hpartial : final = false ∧ target - s.frontend.enc.emitted < eng.schedule.logical
    · rw [if_pos hpartial, if_pos hpartial]
      exact ⟨rfl, h⟩
    rw [if_neg hpartial, if_neg hpartial]
    generalize (if final = true then eng.finishPhysical else eng.schedule.physical) = physical
    generalize (if final = true then eng.finishPhysical else eng.schedule.logical) = logical
    generalize min (min logical (physical - s.frontend.enc.emitted % physical))
      (target - s.frontend.enc.emitted) = n
    by_cases hzero : n = 0
    · rw [if_pos hzero, if_pos hzero]
      exact ⟨rfl, h⟩
    rw [if_neg hzero, if_neg hzero]
    exact hnext n physical rfl

/-- So they do for the whole drive. -/
lemma encoderKvDrive_twins (h : Twins eng s t) (final : Bool) :
    TwinResults eng (encoderKvDrive eng s final) (encoderKvDrive eng t final) := by
  unfold encoderKvDrive
  rw [h.frontend]
  exact encoderKvDriveLoop_twins final _ _ h

/-- So they do for a push of Mel frames. -/
lemma encoderStreamPushMel_twins (h : Twins eng s t) (final : Bool) (frames : List φ)
    (baseFrame : ℕ) : TwinResults eng (encoderStreamPushMel eng s final frames baseFrame)
      (encoderStreamPushMel eng t final frames baseFrame) := by
  have hpushed := h.mapFrontend (fun f => { f with enc := { f.enc with
    melTail := f.enc.melTail ++ frames
    stableMel := f.enc.stableMel + frames.length
    melHistory := f.enc.melHistory ++ frames } }) rfl
  unfold encoderStreamPushMel
  rw [h.frontend] at hpushed ⊢
  simp only
  split_ifs
  · exact ⟨rfl, h⟩
  · exact ⟨rfl, h⟩
  · exact ⟨rfl, h⟩
  · exact encoderKvDrive_twins hpushed final

/-- So they do for the finish of the encoder. -/
lemma encoderStreamFinish_twins (h : Twins eng s t) :
    TwinResults eng (encoderStreamFinish eng s) (encoderStreamFinish eng t) := by
  unfold encoderStreamFinish
  rw [h.frontend]
  by_cases hfinal : s.frontend.enc.finalized = true
  · rw [if_pos hfinal, if_pos hfinal]
    exact ⟨rfl, h⟩
  · rw [if_neg hfinal, if_neg hfinal]
    obtain ⟨hok, hdrive⟩ := encoderKvDrive_twins h true
    refine ⟨hok, hdrive.mapFrontend (fun f => { f with enc := { f.enc with
      finalized := true
      melTail := []
      tailBase := f.enc.stableMel } }) rfl⟩

/-! ## Mel frames -/

/-- So they do in the loop that drains the Mel frontend. -/
lemma drainMelLoop_twins (total fuel : ℕ) (h : Twins eng s t) :
    TwinResults eng (drainMelLoop eng total fuel s) (drainMelLoop eng total fuel t) := by
  induction fuel generalizing s t with
  | zero => exact ⟨rfl, h⟩
  | succ fuel ih =>
    rw [drainMelLoop, drainMelLoop]
    simp only [h.frontend]
    by_cases hmore : s.frontend.encPushedFrames < total
    · rw [if_pos hmore, if_pos hmore]
      cases melFrontendFrameData s.frontend.melFe s.frontend.encPushedFrames with
      | none => exact ⟨rfl, setError_twins h _ _⟩
      | some frames =>
        generalize min melDrainSlice (total - s.frontend.encPushedFrames) = n
        obtain ⟨hok, hpush⟩ := encoderStreamPushMel_twins h false (frames.take n)
          s.frontend.encPushedFrames
        simp only [hok]
        cases (encoderStreamPushMel eng s false (frames.take n) s.frontend.encPushedFrames).2 with
        | false => exact ⟨rfl, setError_twins hpush _ _⟩
        | true =>
          exact ih (hpush.mapFrontend (fun f => { f with
            encPushedFrames := s.frontend.encPushedFrames + n
            melFe := melFrontendDiscardBefore f.melFe (s.frontend.encPushedFrames + n : ℕ) }) rfl)
    · rw [if_neg hmore, if_neg hmore]
      exact ⟨rfl, h⟩

/-- So they do for the drain. -/
lemma drainMelToEncoder_twins (h : Twins eng s t) (final : Bool) :
    TwinResults eng (drainMelToEncoder eng s final) (drainMelToEncoder eng t final) := by
  unfold drainMelToEncoder
  simp only [h.frontend]
  by_cases hnone : s.frontend.melFe.nextFrame ≤ s.frontend.encPushedFrames
  · rw [if_pos hnone, if_pos hnone]
    exact ⟨rfl, h⟩
  rw [if_neg hnone, if_neg hnone]
  by_cases hlate : s.frontend.encPushedFrames < s.frontend.melFe.melBaseFrame
  · rw [if_pos hlate, if_pos hlate]
    exact ⟨rfl, setError_twins h _ _⟩
  rw [if_neg hlate, if_neg hlate]
  cases final with
  | false => exact drainMelLoop_twins _ _ h
  | true =>
    simp only [if_true]
    cases melFrontendFrameData s.frontend.melFe s.frontend.encPushedFrames with
    | none => exact ⟨rfl, setError_twins h _ _⟩
    | some frames =>
      dsimp only
      generalize frames.take (s.frontend.melFe.nextFrame - s.frontend.encPushedFrames) = frames'
      obtain ⟨hok, hpush⟩ := encoderStreamPushMel_twins h true frames' s.frontend.encPushedFrames
      simp only [hok]
      cases (encoderStreamPushMel eng s true frames' s.frontend.encPushedFrames).2 with
      | false => exact ⟨rfl, setError_twins hpush _ _⟩
      | true =>
        exact ⟨rfl, hpush.mapFrontend (fun f => { f with
          encPushedFrames := s.frontend.melFe.nextFrame
          melFe := melFrontendDiscardBefore f.melFe s.frontend.melFe.nextFrame }) rfl⟩

/-! ## Feeds -/

/-- Absorbing a slice. -/
lemma absorbSlice_twins (h : Twins eng s t) (slice : List α) :
    LockStep (Twins eng) (absorbSlice eng s slice) (absorbSlice eng t slice) := by
  unfold absorbSlice
  rw [h.frontend]
  cases melFrontendFeed eng.melFrame s.frontend.melFe slice with
  | none => exact .none
  | some r =>
    have hfed := h.mapFrontend (fun f => { f with
      melFe := r.2, realSamples := f.realSamples ++ slice }) rfl
    rw [h.frontend] at hfed
    cases hok : r.1 with
    | false =>
      refine .some ?_
      simp only [hok]
      exact ⟨rfl, setError_twins hfed _ _⟩
    | true =>
      refine .some ?_
      simp only [hok]
      exact drainMelToEncoder_twins hfed false

/-- A pump. -/
lemma pumpIncremental_twins (h : Twins eng s t) (hw : DecoderWithin s) :
    TwinResults eng (pumpIncremental eng s) (pumpIncremental eng t) := by
  have hwt : DecoderWithin t := hw.of_decoder h.decoder rfl rfl rfl rfl rfl
  obtain ⟨hanswer, halike⟩ := pumpIncremental_alike h.toAlike
  exact ⟨hanswer, h.of_alike halike (PumpSteps.frame (pumpIncremental_steps hw)).frontend
    (PumpSteps.frame (pumpIncremental_steps hwt)).frontend⟩

/-- Twins whose settings are those they were created with. -/
structure Matched (eng : Engine α φ ε γ κ) (base s t : Stream α φ ε γ κ) : Prop where
  twins : Twins eng s t
  kept : Kept base s

section Calls

variable {base : Stream α φ ε γ κ}

/-- A pump answers matched streams the same and keeps them matched. -/
lemma pumpIncremental_matched (h : Matched eng base s t) :
    (pumpIncremental eng t).2 = (pumpIncremental eng s).2 ∧
      Matched eng base (pumpIncremental eng s).1 (pumpIncremental eng t).1 := by
  obtain ⟨hanswer, htwins⟩ := pumpIncremental_twins h.twins h.kept.within
  exact ⟨hanswer, htwins, h.kept.pump eng⟩

/-- So does a slice of audio. -/
lemma absorbSlice_matched (h : Matched eng base s t) (slice : List α) :
    LockStep (Matched eng base) (absorbSlice eng s slice) (absorbSlice eng t slice) :=
  (absorbSlice_twins h.twins slice).imp fun _ _ _ habsorb htwins =>
    ⟨htwins, h.kept.frontend (absorbSlice_frontendChange habsorb)⟩

/-- The slice loop. -/
lemma feedSlices_matched (slices : List (List α)) (stalled : Bool) (h : Matched eng base s t) :
    LockStep (Matched eng base) (feedSlices eng s stalled slices)
      (feedSlices eng t stalled slices) := by
  induction slices generalizing s t stalled with
  | nil => exact .some ⟨rfl, h⟩
  | cons slice rest ih =>
    rw [feedSlices, feedSlices]
    refine (absorbSlice_matched h slice).bind fun u v ok huv => ?_
    obtain ⟨hanswer, hpump⟩ := pumpIncremental_matched huv
    cases ok with
    | false => exact .some ⟨rfl, huv⟩
    | true =>
      cases stalled with
      | true => exact ih true huv
      | false =>
        simp only [Bool.not_true, Bool.false_eq_true, if_false, hanswer]
        by_cases hfull : (pumpIncremental eng u).2 = .limitExceeded
        · rw [if_pos hfull, if_pos hfull]
          exact ih true hpump
        · rw [if_neg hfull, if_neg hfull]
          by_cases hfail : (pumpIncremental eng u).2 ≠ .ok
          · rw [if_pos hfail, if_pos hfail]
            exact .some ⟨hanswer, hpump⟩
          · rw [if_neg hfail, if_neg hfail]
            exact ih false hpump

variable [Zero α]

/-- The left padding keeps twins, or has a result for neither. -/
lemma ensureLeftPad_twins (h : Twins eng s t) :
    Option.Rel (Twins eng) (ensureLeftPad eng s) (ensureLeftPad eng t) := by
  unfold ensureLeftPad
  rw [h.frontend]
  by_cases hpadded : s.frontend.leftPadInjected = true
  · rw [if_pos hpadded, if_pos hpadded]
    exact .some h
  · rw [if_neg hpadded, if_neg hpadded]
    cases melFrontendFeedSilence eng.melFrame s.frontend.melFe streamLeftPad with
    | none => exact .none
    | some r =>
      have hfed := h.mapFrontend (fun f => { f with leftPadInjected := true, melFe := r.2 }) rfl
      rw [h.frontend] at hfed
      exact .some hfed

omit [Zero α] in
/-- The bookkeeping behind a slice loop. -/
lemma feedEnd_twins (previous : Bool) (count : ℕ) (h : Twins eng s t) (status : Status) :
    Twins eng (feedEnd previous count (s, status)).1 (feedEnd previous count (t, status)).1 := by
  have hkept : ∀ u : Stream α φ ε γ κ, (feedEnd previous count (u, status)).1.frontend = u.frontend ∧
      (feedEnd previous count (u, status)).1.decoder = u.decoder := by
    intro u
    unfold feedEnd
    dsimp only
    split_ifs <;> exact ⟨rfl, rfl⟩
  refine h.of_alike ?_ (hkept s).1 (hkept t).1
  rw [(hkept s).2]
  exact feedEnd_alike previous count h.toAlike status

/-- The audio path of a feed. -/
lemma feedAudio_twins (h : Matched eng base s t) (samples : List ℤ) :
    LockStep (Twins eng) (feedAudio eng s samples) (feedAudio eng t samples) := by
  have hstart : Twins eng (feedStart s samples.length) (feedStart t samples.length) :=
    h.twins.map id fun ev =>
      { ev with aggressivePartialCoalescing := aggressiveMode ev samples.length }
  have hkept : Kept base (feedStart s samples.length) := h.kept.congr rfl rfl rfl rfl
  have hpad := ensureLeftPad_twins hstart
  rw [feedAudio_eq, feedAudio_eq, h.twins.events]
  cases hs : ensureLeftPad eng (feedStart s samples.length) with
  | none =>
    rw [hs] at hpad
    generalize ensureLeftPad eng (feedStart t samples.length) = y at hpad
    cases hpad
    exact .none
  | some u =>
    rw [hs] at hpad
    generalize ensureLeftPad eng (feedStart t samples.length) = y at hpad
    cases hpad with
    | some huv =>
      refine (feedSlices_matched _ false
        ⟨huv, hkept.frontend (ensureLeftPad_frontendChange hs)⟩).map fun s' t' status hst => ?_
      exact ⟨by rw [feedEnd_status, feedEnd_status], feedEnd_twins _ _ hst.twins status⟩

/-- A feed behind the resume pump. -/
lemma feedAdmit_twins (h : Matched eng base s t) (buf : FeedBuffer) :
    LockStep (Twins eng) (feedAdmit eng s buf) (feedAdmit eng t buf) := by
  have hcount := clearError_twins h.twins
  have hreject : ∀ (status : Status) (msg : String),
      LockStep (Twins eng) (some (setError s status msg, status))
        (some (setError t status msg, status)) := fun status msg =>
    .some ⟨rfl, setError_twins h.twins status msg⟩
  unfold feedAdmit
  rw [h.twins.lifecycle, h.twins.params]
  match buf with
  | .null (count + 1) => exact hreject _ _
  | .null 0 | .data [] =>
    refine .some ⟨rfl, ?_⟩
    have hcalls := (clearError_twins h.twins).map
      (fun l => { l with feedCalls := l.feedCalls + 1 }) id
    rw [hcount.lifecycle] at hcalls
    dsimp only
    rw [hcount.lifecycle]
    exact hcalls
  | .data (x :: xs) =>
    simp only
    split_ifs
    · exact hreject _ _
    · exact hreject _ _
    · exact hreject _ _
    · exact hreject _ _
    · exact feedAudio_twins h _

/-- A feed. -/
lemma feedCommon_twins (h : Matched eng base s t) (buf : FeedBuffer) :
    LockStep (Twins eng) (feedCommon eng s buf) (feedCommon eng t buf) := by
  obtain ⟨hanswer, hpump⟩ := pumpIncremental_matched h
  unfold feedCommon
  rw [h.twins.lifecycle, h.twins.events]
  by_cases hclosed : s.lifecycle.state ≠ .created ∧ s.lifecycle.state ≠ .running
  · rw [if_pos hclosed, if_pos hclosed]
    exact .some ⟨rfl, setError_twins h.twins _ _⟩
  rw [if_neg hclosed, if_neg hclosed]
  by_cases hbp : s.events.decoderBackpressured = true
  · rw [if_pos hbp, if_pos hbp]
    simp only [hanswer]
    by_cases hfull : (pumpIncremental eng s).2 = .limitExceeded
    · rw [if_pos hfull, if_pos hfull]
      exact .some ⟨rfl, hpump.twins.map (fun l => { l with feedCalls := l.feedCalls + 1 }) id⟩
    rw [if_neg hfull, if_neg hfull]
    by_cases hfail : (pumpIncremental eng s).2 ≠ .ok
    · rw [if_pos hfail, if_pos hfail]
      exact .some ⟨hanswer, hpump.twins⟩
    rw [if_neg hfail, if_neg hfail]
    exact feedAdmit_twins hpump buf
  · rw [if_neg hbp, if_neg hbp]
    exact feedAdmit_twins h buf

/-! ## The end of a stream -/

omit [Zero α] in
/-- Events appended to both streams. -/
lemma Twins.of_appends {s' t' : Stream α φ ε γ κ} {es es' : List StreamEvent} (h : Twins eng s t)
    (hs : Appends s s' es) (ht : Appends t t' es')
    (halike : Alike eng s.decoder.adapterGroupsCommitted s' t') : Twins eng s' t' := by
  refine h.of_alike ?_ hs.frontend ht.frontend
  rw [hs.decoder]
  exact halike

omit [Zero α] in
/-- Twins fail the same way. -/
lemma failStream_twins (h : Twins eng s t) (status : Status) :
    Twins eng (failStream s status) (failStream t status) := by
  obtain ⟨_, hs, -⟩ := failStream_appends s status
  obtain ⟨_, ht, -⟩ := failStream_appends t status
  exact h.of_appends hs ht (failStream_alike h.toAlike status)

omit [Zero α] in
/-- Twins end the same way behind an exception. -/
lemma finishThrew_twins (h : Twins eng s t) (what : String) :
    Twins eng (finishThrew s what).1 (finishThrew t what).1 :=
  failStream_twins (setError_twins h _ _) _

omit [Zero α] in
/-- Twins complete the same way. -/
lemma completeStream_twins (h : Twins eng s t) : Twins eng (completeStream s) (completeStream t) := by
  obtain ⟨_, hs, -⟩ := completeStream_appends s
  obtain ⟨_, ht, -⟩ := completeStream_appends t
  exact h.of_appends hs ht (completeStream_alike h.toAlike)

/-- The frontend part of a finish. -/
lemma finishFrontend_twins (h : Twins eng s t) :
    LockStep (Twins eng) (finishFrontend eng s) (finishFrontend eng t) := by
  have hpad := ensureLeftPad_twins h
  unfold finishFrontend
  generalize ensureLeftPad eng s = x at hpad
  generalize ensureLeftPad eng t = y at hpad
  cases hpad with
  | none => exact .none
  | some huv =>
    rename_i u v
    have htotal : v.lifecycle.totalSamplesReceived = u.lifecycle.totalSamplesReceived :=
      congrArg Lifecycle.totalSamplesReceived huv.lifecycle
    simp only [Option.bind_some, huv.frontend, htotal]
    cases melFrontendFeedSilence eng.melFrame u.frontend.melFe
        (finishRightPad u.lifecycle.totalSamplesReceived) with
    | none => exact .none
    | some r =>
      simp only [Option.bind_some]
      cases melFrontendFinish eng.melFrame r.2 with
      | none => exact .none
      | some melFe =>
        have hmel := huv.mapFrontend (fun f => { f with melFe := melFe }) rfl
        rw [huv.frontend] at hmel
        obtain ⟨hok, hdrain⟩ := drainMelToEncoder_twins hmel true
        obtain ⟨hend, hfinish⟩ := encoderStreamFinish_twins hdrain
        simp only [Option.map_some, hok, hend]
        refine .some ?_
        split_ifs
        · exact ⟨by rw [hdrain.lifecycle], hdrain⟩
        · exact ⟨rfl, hfinish⟩
        · exact ⟨rfl, hfinish⟩

/-- What a finish does behind its frontend part. -/
def finishTail (eng : Engine α φ ε γ κ) (f : Stream α φ ε γ κ × Option String) :
    Stream α φ ε γ κ × Status :=
  match f.2 with
  | some what => finishThrew f.1 what
  | none =>
    let p := pumpIncremental eng (tailStart f.1)
    if p.2 ≠ .ok then finishThrew p.1 p.1.lifecycle.lastError
    else (completeStream (tailEnd p.1), .ok)

/-- A finish without samples completes at once; the others flush. -/
lemma finishLive_eq (s : Stream α φ ε γ κ) :
    finishLive eng s = if s.lifecycle.totalSamplesReceived = 0 then
      some (completeStream (emptyEnd s), .ok)
    else (finishFrontend eng (flushStart s)).map (finishTail eng) :=
  rfl

omit [Zero α] in
/-- The end of a finish answers matched streams the same. -/
lemma finishTail_twins {out : Option String} (h : Matched eng base s t) :
    (finishTail eng (t, out)).2 = (finishTail eng (s, out)).2 ∧
      Twins eng (finishTail eng (s, out)).1 (finishTail eng (t, out)).1 := by
  cases out with
  | some what => exact ⟨rfl, finishThrew_twins h.twins what⟩
  | none =>
    have htail : Matched eng base (tailStart s) (tailStart t) :=
      ⟨h.twins.mapDecoder (fun d => { d with tokensBeforeFinish := d.decoderTokensEmitted })
        (fun _ => rfl) rfl, h.kept.congr rfl rfl rfl rfl⟩
    obtain ⟨hanswer, hpump⟩ := pumpIncremental_matched htail
    have herror : (pumpIncremental eng (tailStart t)).1.lifecycle.lastError =
        (pumpIncremental eng (tailStart s)).1.lifecycle.lastError :=
      congrArg Lifecycle.lastError hpump.twins.lifecycle
    have hend : Twins eng (tailEnd (pumpIncremental eng (tailStart s)).1)
        (tailEnd (pumpIncremental eng (tailStart t)).1) :=
      (hpump.twins.mapDecoder (fun d => { d with transcript := d.partialText })
        (fun _ => rfl) rfl).map (fun l => { l with
          inferenceRuns := l.inferenceRuns + 1
          totalSamplesConsumed := l.totalSamplesReceived }) id
    dsimp only [finishTail]
    rw [hanswer, herror]
    split_ifs with hfail
    · exact ⟨rfl, finishThrew_twins hpump.twins _⟩
    · exact ⟨rfl, completeStream_twins hend⟩

/-- A finish behind its backlog drain. -/
lemma finishLive_twins (h : Matched eng base s t) :
    LockStep (Twins eng) (finishLive eng s) (finishLive eng t) := by
  have hstart : Twins eng (flushStart s) (flushStart t) := h.twins.map
    (fun l => { l with state := .finishing }) fun ev => { ev with finalizingFlush := true }
  have hkept : Kept base (flushStart s) := h.kept.congr rfl rfl rfl rfl
  have htotal : t.lifecycle.totalSamplesReceived = s.lifecycle.totalSamplesReceived :=
    congrArg Lifecycle.totalSamplesReceived h.twins.lifecycle
  have hempty : Twins eng (emptyEnd s) (emptyEnd t) :=
    (hstart.mapDecoder (fun d => { d with transcript := [], tokens := [] })
      (fun _ => rfl) rfl).map (fun l => { l with totalSamplesConsumed := 0 }) id
  rw [finishLive_eq, finishLive_eq, htotal]
  split_ifs
  · exact .some ⟨rfl, completeStream_twins hempty⟩
  have hfront : LockStep (Matched eng base) (finishFrontend eng (flushStart s))
      (finishFrontend eng (flushStart t)) :=
    (finishFrontend_twins hstart).imp fun _ _ _ hflush htwins =>
      ⟨htwins, hkept.frontend (finishFrontend_frontendChange hflush).1⟩
  exact hfront.map fun _ _ _ huv => finishTail_twins huv

/-- A finish. -/
lemma finishInternal_twins (h : Matched eng base s t) :
    LockStep (Twins eng) (finishInternal eng s) (finishInternal eng t) := by
  obtain ⟨hanswer, hpump⟩ := pumpIncremental_matched h
  have hopen : LockStep (Twins eng)
      (if s.events.decoderBackpressured = true then
        let p := pumpIncremental eng s
        if p.2 = .limitExceeded then some p
        else if p.2 ≠ .ok then
          some (failStream { p.1 with events := { p.1.events with finalizingFlush := true } } p.2,
            p.2)
        else finishLive eng p.1
      else finishLive eng s)
      (if s.events.decoderBackpressured = true then
        let p := pumpIncremental eng t
        if p.2 = .limitExceeded then some p
        else if p.2 ≠ .ok then
          some (failStream { p.1 with events := { p.1.events with finalizingFlush := true } } p.2,
            p.2)
        else finishLive eng p.1
      else finishLive eng t) := by
    by_cases hbp : s.events.decoderBackpressured = true
    · rw [if_pos hbp, if_pos hbp]
      simp only [hanswer]
      by_cases hfull : (pumpIncremental eng s).2 = .limitExceeded
      · rw [if_pos hfull, if_pos hfull]
        exact .some ⟨hanswer, hpump.twins⟩
      rw [if_neg hfull, if_neg hfull]
      by_cases hfail : (pumpIncremental eng s).2 ≠ .ok
      · rw [if_pos hfail, if_pos hfail]
        have hflush := hpump.twins.map id fun ev => { ev with finalizingFlush := true }
        exact .some ⟨rfl, failStream_twins hflush _⟩
      rw [if_neg hfail, if_neg hfail]
      exact finishLive_twins hpump
    · rw [if_neg hbp, if_neg hbp]
      exact finishLive_twins h
  unfold finishInternal
  rw [h.twins.lifecycle, h.twins.events]
  cases s.lifecycle.state with
  | completed => exact .some ⟨rfl, h.twins⟩
  | cancelled => exact .some ⟨rfl, h.twins⟩
  | failed => exact .some ⟨rfl, setError_twins h.twins _ _⟩
  | finishing => exact .some ⟨rfl, h.twins⟩
  | created => exact hopen
  | running => exact hopen

/-! ## Calls -/

omit [Zero α] in
/-- Twins map a status to the same public one. -/
lemma mapFeedStatus_twins (h : Twins eng s t) (status : Status) :
    mapFeedStatus t status = mapFeedStatus s status := by
  simp only [mapFeedStatus, h.lifecycle, h.events]

/-- No call tells twins apart, and they stay twins. -/
theorem streamStep_twins (h : Matched eng base s t) (op : Op) :
    LockStep (Matched eng base) (streamStep eng s op) (streamStep eng t op) := by
  suffices hstep : LockStep (Twins eng) (streamStep eng s op) (streamStep eng t op) from
    hstep.imp fun _ _ _ hs htwins => ⟨htwins, h.kept.step hs⟩
  cases op with
  | feed buf =>
    have htotal : t.lifecycle.totalSamplesReceived = s.lifecycle.totalSamplesReceived :=
      congrArg Lifecycle.totalSamplesReceived h.twins.lifecycle
    change LockStep (Twins eng) (streamFeedPcm16 eng s buf) (streamFeedPcm16 eng t buf)
    unfold streamFeedPcm16
    rw [htotal]
    refine (feedCommon_twins h buf).map fun u v status huv => ?_
    have hfailed : Twins eng (failStreamNoexcept u status u.lifecycle.lastError)
        (failStreamNoexcept v status u.lifecycle.lastError) :=
      failStream_twins (setError_twins (huv.map id fun ev =>
        { ev with finalizingFlush := true }) status u.lifecycle.lastError) status
    have hconsumed : v.lifecycle.totalSamplesReceived = u.lifecycle.totalSamplesReceived :=
      congrArg Lifecycle.totalSamplesReceived huv.lifecycle
    have herror : v.lifecycle.lastError = u.lifecycle.lastError :=
      congrArg Lifecycle.lastError huv.lifecycle
    dsimp only
    rw [hconsumed, herror]
    split_ifs
    · exact ⟨congrArg₂ Response.feed (mapFeedStatus_twins hfailed _) rfl, hfailed⟩
    · exact ⟨congrArg₂ Response.feed (mapFeedStatus_twins huv _) rfl, huv⟩
  | poll =>
    obtain ⟨hanswer, halike⟩ := streamPollEvent_alike h.twins.toAlike
    have hkept : ∀ u : Stream α φ ε γ κ, (streamPollEvent u).1.frontend = u.frontend ∧
        (streamPollEvent u).1.decoder = u.decoder := by
      intro u
      unfold streamPollEvent
      split <;> exact ⟨rfl, rfl⟩
    refine .some ⟨hanswer, h.twins.of_alike ?_ (hkept s).1 (hkept t).1⟩
    rw [(hkept s).2]
    exact halike
  | cancel =>
    obtain ⟨hanswer, halike⟩ := cancelInternal_alike h.twins.toAlike
    obtain ⟨_, hs, -⟩ := cancelInternal_appends s
    obtain ⟨_, ht, -⟩ := cancelInternal_appends t
    refine .some ⟨?_, h.twins.of_appends hs ht halike⟩
    rw [hanswer]
  | finish =>
    exact (finishInternal_twins h).map fun u v status huv => ⟨rfl, huv⟩

end Calls

end Voxtral
