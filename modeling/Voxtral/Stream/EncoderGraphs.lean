import Voxtral.Stream.EncoderFrames

/-!
# The graphs of the encoder

An encoder run submits one graph, or two where a ring copy follows it.  So the runs on record tell how many
graphs were submitted, what met no failing graph goes the same way on every engine that runs these graphs,
and where every graph fails no run is recorded.
-/

namespace Voxtral

variable {α φ ε γ κ : Type*} {eng : Engine α φ ε γ κ} {fails : ℕ → Bool} {s s' : Stream α φ ε γ κ}

/-- The engine with other failing graphs. -/
def Engine.failing (eng : Engine α φ ε γ κ) (fails : ℕ → Bool) : Engine α φ ε γ κ :=
  { eng with submitFails := fails }

/-- The failures of an engine made to fail. -/
@[simp] lemma Engine.failing_submitFails (k : ℕ) : (eng.failing fails).submitFails k = fails k := rfl

/-- The graphs of a run. -/
def EncoderRun.graphs (r : EncoderRun) : ℕ := if r.n = 4 ∧ r.physical = 4 then 1 else 2

/-- The encoder graphs of a history. -/
def encoderGraphs (trace : List (TraceEntry ε γ)) : ℕ := ((encoderRuns trace).map EncoderRun.graphs).sum

/-- One run more. -/
lemma encoderGraphs_concat (trace : List (TraceEntry ε γ)) (qStart n physical : ℕ) :
    encoderGraphs (trace ++ [.encoderRun qStart n physical]) =
      encoderGraphs trace + EncoderRun.graphs ⟨qStart, n, physical⟩ := by
  have hmore : encoderRuns ([.encoderRun qStart n physical] : List (TraceEntry ε γ)) =
      [⟨qStart, n, physical⟩] := rfl
  rw [encoderGraphs, encoderRuns_append, hmore, List.map_append, List.sum_append]
  rfl

/-- The graphs a part of a call submits, which ends as `r` on the engine `eng` and as `r'` where the graphs
`fails` fail. -/
structure Submitted (eng : Engine α φ ε γ κ) (fails : ℕ → Bool) (s : Stream α φ ε γ κ)
    (r r' : Stream α φ ε γ κ × Bool) : Prop where
  grows : s.device.submits ≤ r.1.device.submits
  counted : r.2 = true →
    r.1.device.submits + encoderGraphs s.trace = s.device.submits + encoderGraphs r.1.trace
  same : r.2 = true → (∀ k, s.device.submits ≤ k → k < r.1.device.submits → fails k = false) → r' = r
  dead : (∀ k, s.device.submits ≤ k → eng.submitFails k = true) →
    encoderRuns r.1.trace = encoderRuns s.trace

variable (eng fails) in
/-- Nothing was submitted. -/
lemma Submitted.quiet {r : Stream α φ ε γ κ × Bool} (hsubmits : r.1.device.submits = s.device.submits)
    (htrace : r.1.trace = s.trace) : Submitted eng fails s r r where
  grows := hsubmits.ge
  counted := fun _ => by rw [hsubmits, htrace]
  same := fun _ _ => rfl
  dead := fun _ => congrArg encoderRuns htrace

/-- What was done before submitted nothing. -/
lemma Submitted.of_start {t : Stream α φ ε γ κ} {r r' : Stream α φ ε γ κ × Bool}
    (h : Submitted eng fails t r r') (hsubmits : t.device.submits = s.device.submits)
    (htrace : t.trace = s.trace) : Submitted eng fails s r r' where
  grows := hsubmits ▸ h.grows
  counted := by
    rw [← hsubmits, ← htrace]
    exact h.counted
  same := hsubmits ▸ h.same
  dead := by
    rw [← hsubmits, ← htrace]
    exact h.dead

/-- A part is followed by another one, unless a graph of it failed. -/
lemma Submitted.andThen {r r' : Stream α φ ε γ κ × Bool} (h : Submitted eng fails s r r')
    (fail : Stream α φ ε γ κ → Stream α φ ε γ κ)
    (next next' : Stream α φ ε γ κ → Stream α φ ε γ κ × Bool)
    (hfail : ∀ u, (fail u).device.submits = u.device.submits ∧ (fail u).trace = u.trace)
    (hnext : Submitted eng fails r.1 (next r.1) (next' r.1)) :
    Submitted eng fails s (if !r.2 then (fail r.1, false) else next r.1)
      (if !r'.2 then (fail r'.1, false) else next' r'.1) := by
  cases hran : r.2 with
  | false =>
    simp only [Bool.not_false, if_true]
    obtain ⟨hsubmits, htrace⟩ := hfail r.1
    refine ⟨hsubmits ▸ h.grows, fun hok => absurd hok Bool.false_ne_true,
      fun hok => absurd hok Bool.false_ne_true, ?_⟩
    intro hdead
    exact (congrArg encoderRuns htrace).trans (h.dead hdead)
  | true =>
    simp only [Bool.not_true, Bool.false_eq_true, if_false]
    have hcounted := h.counted hran
    refine ⟨h.grows.trans hnext.grows, fun hok => ?_, fun hok hran' => ?_, fun hdead => ?_⟩
    · have := hnext.counted hok
      omega
    · have hr := h.same hran fun k hle hlt => hran' k hle (hlt.trans_le hnext.grows)
      rw [hr, hran]
      exact hnext.same hok fun k hle hlt => hran' k (h.grows.trans hle) hlt
    · exact (hnext.dead fun k hle => hdead k (h.grows.trans hle)).trans (h.dead hdead)

/-! ## The parts -/

/-- Failures change nothing of the rows a graph writes. -/
lemma writeEncRows_failing (history : List φ) (ring : HistoryRing ε) (q n : ℕ) :
    writeEncRows (eng.failing fails) history ring q n = writeEncRows eng history ring q n := by
  induction n with
  | zero => rfl
  | succ n ih =>
    rw [writeEncRows, writeEncRows, ih]
    rfl

variable (eng fails) in
/-- One run. -/
lemma runEncoderKvBatch_submitted (s : Stream α φ ε γ κ) (qStart n physical : ℕ) :
    Submitted eng fails s (runEncoderKvBatch eng s qStart n physical)
      (runEncoderKvBatch (eng.failing fails) s qStart n physical) := by
  by_cases hin : convMelStart qStart < s.frontend.enc.tailBase ∨
      s.frontend.enc.tailBase + s.frontend.enc.melTail.length < convMelEnd qStart n
  · simp only [runEncoderKvBatch, if_pos hin]
    exact .quiet eng fails rfl rfl
  cases hfirst : eng.submitFails s.device.submits with
  | true =>
    simp only [runEncoderKvBatch, if_neg hin, submitGraph, hfirst, Bool.not_true, Bool.not_false, if_true]
    exact ⟨Nat.le_succ _, fun hok => absurd hok Bool.false_ne_true, fun hok => absurd hok Bool.false_ne_true,
      fun _ => rfl⟩
  | false =>
    have halive : ¬ ∀ k, s.device.submits ≤ k → eng.submitFails k = true := fun hdead =>
      absurd (hfirst.symm.trans (hdead _ le_rfl)) (by decide)
    by_cases hreuse : n = 4 ∧ physical = 4
    · simp only [runEncoderKvBatch, if_neg hin, submitGraph, hfirst, Bool.not_true, Bool.not_false,
        if_pos hreuse, Bool.false_eq_true, if_false, Engine.failing_submitFails]
      refine ⟨Nat.le_succ _, fun _ => ?_, fun _ hran => ?_, fun hdead => absurd hdead halive⟩
      · simp only [encoderGraphs_concat, EncoderRun.graphs, if_pos hreuse]
        omega
      · simp only [hran _ le_rfl (Nat.lt_succ_self _), writeEncRows_failing, Bool.not_false, Bool.not_true,
          Bool.false_eq_true, if_false]
    · cases hsecond : eng.submitFails (s.device.submits + 1) with
      | true =>
        simp only [runEncoderKvBatch, if_neg hin, submitGraph, hfirst, hsecond, Bool.not_true,
          Bool.not_false, if_neg hreuse, Bool.false_eq_true, if_false, if_true]
        exact ⟨(Nat.le_succ _).trans (Nat.le_succ _), fun hok => absurd hok Bool.false_ne_true,
          fun hok => absurd hok Bool.false_ne_true, fun hdead => absurd hdead halive⟩
      | false =>
        simp only [runEncoderKvBatch, if_neg hin, submitGraph, hfirst, hsecond, Bool.not_true,
          Bool.not_false, if_neg hreuse, Bool.false_eq_true, if_false, Engine.failing_submitFails]
        refine ⟨(Nat.le_succ _).trans (Nat.le_succ _), fun _ => ?_, fun _ hran => ?_,
          fun hdead => absurd hdead halive⟩
        · simp only [encoderGraphs_concat, EncoderRun.graphs, if_neg hreuse]
          omega
        · have hran₁ := hran s.device.submits le_rfl (Nat.lt_succ_of_lt (Nat.lt_succ_self _))
          have hran₂ := hran (s.device.submits + 1) (Nat.le_succ _) (Nat.lt_succ_self _)
          simp only [hran₁, hran₂, writeEncRows_failing, Bool.not_false, Bool.not_true, Bool.false_eq_true,
            if_false]

variable (eng fails) in
/-- A batch submits the same graph, or is cut off by its failure. -/
lemma encoderKvRun_submitted (s : Stream α φ ε γ κ) (q0 n physical : ℕ) :
    Submitted eng fails s (encoderKvRun eng s q0 n physical)
      (encoderKvRun (eng.failing fails) s q0 n physical) := by
  let trimmed := fun u : Stream α φ ε γ κ =>
    ({ u with frontend := { u.frontend with enc := encoderKvTrimTail u.frontend.enc } }, true)
  have htrim := (runEncoderKvBatch_submitted eng fails s q0 n physical).andThen id trimmed trimmed
    (fun _ => ⟨rfl, rfl⟩)
    ⟨le_rfl, fun _ => rfl, fun _ _ => rfl, fun _ => rfl⟩
  unfold encoderKvRun
  by_cases hplan : n = 0 ∨ encKvCap - encWindow < n
  · simp only [if_pos hplan]
    exact .quiet eng fails rfl rfl
  by_cases hstable : s.frontend.enc.stableMel < convMelEnd q0 n
  · simp only [if_neg hplan, if_pos hstable]
    exact .quiet eng fails rfl rfl
  · simp only [if_neg hplan, if_neg hstable]
    exact htrim

variable (eng fails) in
/-- The loop submits the same graphs up to the first that fails. -/
lemma encoderKvDriveLoop_submitted (final : Bool) (target fuel : ℕ) (s : Stream α φ ε γ κ) :
    Submitted eng fails s (encoderKvDriveLoop eng final target fuel s)
      (encoderKvDriveLoop (eng.failing fails) final target fuel s) := by
  induction fuel generalizing s with
  | zero => exact .quiet eng fails rfl rfl
  | succ fuel ih =>
    have hrun : ∀ q0 n physical, Submitted eng fails s
        (if !(encoderKvRun eng s q0 n physical).2 then ((encoderKvRun eng s q0 n physical).1, false)
          else encoderKvDriveLoop eng final target fuel (encoderKvRun eng s q0 n physical).1)
        (if !(encoderKvRun (eng.failing fails) s q0 n physical).2 then
            ((encoderKvRun (eng.failing fails) s q0 n physical).1, false)
          else encoderKvDriveLoop (eng.failing fails) final target fuel
            (encoderKvRun (eng.failing fails) s q0 n physical).1) := fun q0 n physical =>
      (encoderKvRun_submitted eng fails s q0 n physical).andThen id _ _ (fun _ => ⟨rfl, rfl⟩) (ih _)
    rw [encoderKvDriveLoop, encoderKvDriveLoop]
    have hsame : (eng.failing fails).schedule = eng.schedule ∧
        (eng.failing fails).finishPhysical = eng.finishPhysical := ⟨rfl, rfl⟩
    simp only [hsame.1, hsame.2]
    by_cases hdone : target ≤ s.frontend.enc.emitted
    · simp only [if_pos hdone]
      exact .quiet eng fails rfl rfl
    by_cases hhold : s.frontend.enc.emitted = 0 ∧ final = false ∧ target < encKvMaxNew
    · simp only [if_neg hdone, if_pos hhold]
      exact .quiet eng fails rfl rfl
    by_cases hfirst : s.frontend.enc.emitted = 0 ∧ encKvMaxNew ≤ target
    · simp only [if_neg hdone, if_neg hhold, if_pos hfirst]
      exact hrun 0 encKvMaxNew encKvMaxNew
    by_cases hpartial : final = false ∧ target - s.frontend.enc.emitted < eng.schedule.logical
    · simp only [if_neg hdone, if_neg hhold, if_neg hfirst, if_pos hpartial]
      exact .quiet eng fails rfl rfl
    simp only [if_neg hdone, if_neg hhold, if_neg hfirst, if_neg hpartial]
    generalize (if final = true then eng.finishPhysical else eng.schedule.physical) = physical
    generalize (if final = true then eng.finishPhysical else eng.schedule.logical) = logical
    generalize min (min logical (physical - s.frontend.enc.emitted % physical))
      (target - s.frontend.enc.emitted) = n
    by_cases hzero : n = 0
    · simp only [if_pos hzero]
      exact .quiet eng fails rfl rfl
    · simp only [if_neg hzero]
      exact hrun _ n physical

variable (eng fails) in
/-- So does a push of Mel frames. -/
lemma encoderStreamPushMel_submitted (s : Stream α φ ε γ κ) (final : Bool) (frames : List φ)
    (baseFrame : ℕ) : Submitted eng fails s (encoderStreamPushMel eng s final frames baseFrame)
      (encoderStreamPushMel (eng.failing fails) s final frames baseFrame) := by
  unfold encoderStreamPushMel
  simp only
  split_ifs
  · exact .quiet eng fails rfl rfl
  · exact .quiet eng fails rfl rfl
  · exact .quiet eng fails rfl rfl
  · exact (encoderKvDriveLoop_submitted eng fails final _ _ _).of_start rfl rfl

variable (eng fails) in
/-- So does the drain of the Mel frontend. -/
lemma drainMelLoop_submitted (total fuel : ℕ) (s : Stream α φ ε γ κ) :
    Submitted eng fails s (drainMelLoop eng total fuel s)
      (drainMelLoop (eng.failing fails) total fuel s) := by
  induction fuel generalizing s with
  | zero => exact .quiet eng fails rfl rfl
  | succ fuel ih =>
    rw [drainMelLoop, drainMelLoop]
    simp only
    by_cases hmore : s.frontend.encPushedFrames < total
    · simp only [if_pos hmore]
      cases melFrontendFrameData s.frontend.melFe s.frontend.encPushedFrames with
      | none => exact .quiet eng fails rfl rfl
      | some frames =>
        have hpush := encoderStreamPushMel_submitted eng fails s false
          (frames.take (min melDrainSlice (total - s.frontend.encPushedFrames))) s.frontend.encPushedFrames
        let handed := fun u : Stream α φ ε γ κ =>
          { u with frontend := { u.frontend with
              encPushedFrames := s.frontend.encPushedFrames +
                min melDrainSlice (total - s.frontend.encPushedFrames)
              melFe := melFrontendDiscardBefore u.frontend.melFe (s.frontend.encPushedFrames +
                min melDrainSlice (total - s.frontend.encPushedFrames) : ℕ) } }
        exact hpush.andThen (setError · .backendError "incremental encoder rejected Mel frames")
          (fun u => drainMelLoop eng total fuel (handed u))
          (fun u => drainMelLoop (eng.failing fails) total fuel (handed u))
          (fun _ => ⟨rfl, rfl⟩) ((ih _).of_start rfl rfl)
    · simp only [if_neg hmore]
      exact .quiet eng fails rfl rfl

variable (eng fails) in
/-- `drain_mel_to_encoder` while audio arrives. -/
lemma drainMelToEncoder_submitted (s : Stream α φ ε γ κ) :
    Submitted eng fails s (drainMelToEncoder eng s false)
      (drainMelToEncoder (eng.failing fails) s false) := by
  unfold drainMelToEncoder
  simp only [Bool.false_eq_true, if_false]
  split_ifs
  · exact .quiet eng fails rfl rfl
  · exact .quiet eng fails rfl rfl
  · exact drainMelLoop_submitted eng fails _ _ s

variable (fails) in
/-- One slice of a feed. -/
lemma absorbSlice_submitted {slice : List α} {r : Stream α φ ε γ κ × Bool}
    (h : absorbSlice eng s slice = some r) :
    ∃ r', absorbSlice (eng.failing fails) s slice = some r' ∧ Submitted eng fails s r r' := by
  unfold absorbSlice at h ⊢
  obtain ⟨m, hfeed, hr⟩ := Option.map_eq_some_iff.mp h
  have hfeed' : melFrontendFeed (eng.failing fails).melFrame s.frontend.melFe slice = some m := hfeed
  rw [hfeed']
  refine ⟨_, rfl, ?_⟩
  rw [← hr]
  simp only
  split_ifs
  · exact .quiet eng fails rfl rfl
  · exact (drainMelToEncoder_submitted eng fails _).of_start rfl rfl

end Voxtral
