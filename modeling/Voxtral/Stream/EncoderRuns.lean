import Voxtral.Stream.EncoderDrive

/-!
# The graphs of the encoder

The loop of `encoder_kv_drive` reads cursors only, so the graphs it runs are a function of them:
`scheduleRuns`.  While audio arrives, driving the encoder to one number of realizable frames and then
to a greater one runs the same graphs as driving it to the greater one at once: the graphs that
emitted the first frames of a stream are `liveRuns` of their number.
-/

namespace Voxtral

variable {α φ ε γ κ : Type*}

/-- A graph over the encoder frames `[qStart, qStart + n)`, placed in blocks of `physical` rows. -/
structure EncoderRun where
  qStart : ℕ
  n : ℕ
  physical : ℕ
  deriving DecidableEq, Repr

/-- The graph an entry of the history records. -/
def TraceEntry.asEncoderRun : TraceEntry ε γ → Option EncoderRun
  | .encoderRun qStart n physical => some ⟨qStart, n, physical⟩
  | _ => none

/-- The encoder graphs of a history. -/
def encoderRuns (trace : List (TraceEntry ε γ)) : List EncoderRun :=
  trace.filterMap TraceEntry.asEncoderRun

/-- The graphs of at most `fuel` iterations of the loop of `encoder_kv_drive`, from `emitted` frames
towards `target`. -/
def scheduleRuns (sch : EncoderSchedule) (finishPhysical : ℕ) (final : Bool) (target : ℕ) :
    ℕ → ℕ → List EncoderRun
  | 0, _ => []
  | fuel + 1, emitted =>
    if target ≤ emitted then []
    else if emitted = 0 ∧ final = false ∧ target < encKvMaxNew then []
    else if emitted = 0 ∧ encKvMaxNew ≤ target then
      ⟨0, encKvMaxNew, encKvMaxNew⟩ ::
        scheduleRuns sch finishPhysical final target fuel encKvMaxNew
    else if final = false ∧ target - emitted < sch.logical then []
    else
      let physical := if final then finishPhysical else sch.physical
      let logical := if final then finishPhysical else sch.logical
      let n := min (min logical (physical - emitted % physical)) (target - emitted)
      ⟨emitted, n, physical⟩ :: scheduleRuns sch finishPhysical final target fuel (emitted + n)

/-! ## The loop runs the scheduled graphs -/

section Loop

variable {eng : Engine α φ ε γ κ} {s : Stream α φ ε γ κ}

/-- The graphs of two histories. -/
lemma encoderRuns_append (trace more : List (TraceEntry ε γ)) :
    encoderRuns (trace ++ more) = encoderRuns trace ++ encoderRuns more := by
  rw [encoderRuns, List.filterMap_append]
  rfl

/-- A graph that ran is recorded, and moves the cursor behind its frames. -/
lemma runEncoderKvBatch_recorded {q0 n physical : ℕ}
    (hok : (runEncoderKvBatch eng s q0 n physical).2 = true) :
    (runEncoderKvBatch eng s q0 n physical).1.trace = s.trace ++ [.encoderRun q0 n physical] ∧
      (runEncoderKvBatch eng s q0 n physical).1.frontend.enc.emitted = q0 + n := by
  unfold runEncoderKvBatch at hok ⊢
  simp only at hok ⊢
  split_ifs at hok ⊢
  · exact ⟨rfl, rfl⟩
  · exact ⟨rfl, rfl⟩

/-- `encoder_kv_run`. -/
lemma encoderKvRun_recorded {q0 n physical : ℕ} (hok : (encoderKvRun eng s q0 n physical).2 = true) :
    encoderRuns (encoderKvRun eng s q0 n physical).1.trace =
        encoderRuns s.trace ++ [⟨q0, n, physical⟩] ∧
      (encoderKvRun eng s q0 n physical).1.frontend.enc.emitted = q0 + n := by
  unfold encoderKvRun at hok ⊢
  simp only at hok ⊢
  split_ifs at hok ⊢ with hplan hstable hran
  simp only [Bool.not_eq_true, Bool.not_eq_false'] at hran
  obtain ⟨htrace, hemitted⟩ := runEncoderKvBatch_recorded hran
  refine ⟨?_, ?_⟩
  · rw [htrace, encoderRuns_append]
    rfl
  · rw [encoderKvTrimTail_emitted]
    exact hemitted

/-- A loop that does not stop runs the scheduled graphs. -/
lemma encoderKvDriveLoop_recorded (final : Bool) (target fuel : ℕ)
    (hok : (encoderKvDriveLoop eng final target fuel s).2 = true) :
    encoderRuns (encoderKvDriveLoop eng final target fuel s).1.trace = encoderRuns s.trace ++
      scheduleRuns eng.schedule eng.finishPhysical final target fuel s.frontend.enc.emitted := by
  induction fuel generalizing s with
  | zero => simp [encoderKvDriveLoop, scheduleRuns]
  | succ fuel ih =>
    -- one graph, then the rest
    have hnext : ∀ q0 n physical, q0 = s.frontend.enc.emitted →
        (if !(encoderKvRun eng s q0 n physical).2 then ((encoderKvRun eng s q0 n physical).1, false)
          else encoderKvDriveLoop eng final target fuel (encoderKvRun eng s q0 n physical).1).2 =
            true →
        encoderRuns (if !(encoderKvRun eng s q0 n physical).2 then
            ((encoderKvRun eng s q0 n physical).1, false)
          else encoderKvDriveLoop eng final target fuel
            (encoderKvRun eng s q0 n physical).1).1.trace =
          encoderRuns s.trace ++ ⟨q0, n, physical⟩ ::
            scheduleRuns eng.schedule eng.finishPhysical final target fuel (q0 + n) := by
      intro q0 n physical hq0 h
      split_ifs at h ⊢ with hran
      simp only [Bool.not_eq_true, Bool.not_eq_false'] at hran
      obtain ⟨htrace, hemitted⟩ := encoderKvRun_recorded hran
      rw [ih h, htrace, hemitted, List.append_assoc, List.singleton_append]
    rw [encoderKvDriveLoop] at hok ⊢
    rw [scheduleRuns]
    simp only at hok ⊢
    by_cases hdone : target ≤ s.frontend.enc.emitted
    · simp only [if_pos hdone, List.append_nil]
    simp only [if_neg hdone] at hok ⊢
    by_cases hhold : s.frontend.enc.emitted = 0 ∧ final = false ∧ target < encKvMaxNew
    · simp only [if_pos hhold, List.append_nil]
    simp only [if_neg hhold] at hok ⊢
    by_cases hfirst : s.frontend.enc.emitted = 0 ∧ encKvMaxNew ≤ target
    · simp only [if_pos hfirst] at hok ⊢
      simpa using hnext 0 encKvMaxNew encKvMaxNew hfirst.1.symm hok
    simp only [if_neg hfirst] at hok ⊢
    by_cases hpartial : final = false ∧ target - s.frontend.enc.emitted < eng.schedule.logical
    · simp only [if_pos hpartial, List.append_nil]
    simp only [if_neg hpartial] at hok ⊢
    generalize (if final = true then eng.finishPhysical else eng.schedule.physical) = physical at hok ⊢
    generalize (if final = true then eng.finishPhysical else eng.schedule.logical) = logical at hok ⊢
    generalize min (min logical (physical - s.frontend.enc.emitted % physical))
      (target - s.frontend.enc.emitted) = n at hok ⊢
    by_cases hzero : n = 0
    · simp [if_pos hzero] at hok
    simp only [if_neg hzero] at hok ⊢
    exact hnext _ n physical rfl hok

/-- `encoder_kv_drive`. -/
lemma encoderKvDrive_recorded (final : Bool) (hok : (encoderKvDrive eng s final).2 = true) :
    encoderRuns (encoderKvDrive eng s final).1.trace = encoderRuns s.trace ++
      scheduleRuns eng.schedule eng.finishPhysical final
        (encFramesRealizable s.frontend.enc.stableMel)
        (encFramesRealizable s.frontend.enc.stableMel - s.frontend.enc.emitted)
        s.frontend.enc.emitted :=
  encoderKvDriveLoop_recorded final _ _ hok

/-- A push of Mel frames. -/
lemma encoderStreamPushMel_recorded (hlive : s.frontend.enc.finalized = false) {frames : List φ}
    (hframes : frames ≠ []) {final : Bool}
    (hok : (encoderStreamPushMel eng s final frames s.frontend.enc.stableMel).2 = true) :
    encoderRuns (encoderStreamPushMel eng s final frames s.frontend.enc.stableMel).1.trace =
      encoderRuns s.trace ++ scheduleRuns eng.schedule eng.finishPhysical final
        (encFramesRealizable (s.frontend.enc.stableMel + frames.length))
        (encFramesRealizable (s.frontend.enc.stableMel + frames.length) - s.frontend.enc.emitted)
        s.frontend.enc.emitted := by
  rw [encoderStreamPushMel_eq hlive hframes] at hok ⊢
  exact encoderKvDrive_recorded final hok

/-- The loop terminates: more iterations than there are frames to emit make no difference. -/
theorem encoderKvDriveLoop_terminates (final : Bool) (target fuel more : ℕ)
    (hfuel : target ≤ s.frontend.enc.emitted + fuel) :
    encoderKvDriveLoop eng final target (fuel + more) s =
      encoderKvDriveLoop eng final target fuel s := by
  induction fuel generalizing s with
  | zero =>
    cases more with
    | zero => rfl
    | succ more =>
      rw [Nat.zero_add, encoderKvDriveLoop, encoderKvDriveLoop]
      simp only
      rw [if_pos (by omega)]
  | succ fuel ih =>
    -- a graph that ran brought the cursor closer to the target
    have hnext : ∀ q0 n physical, q0 = s.frontend.enc.emitted → 0 < n →
        (if !(encoderKvRun eng s q0 n physical).2 then ((encoderKvRun eng s q0 n physical).1, false)
          else encoderKvDriveLoop eng final target (fuel + more)
            (encoderKvRun eng s q0 n physical).1) =
        if !(encoderKvRun eng s q0 n physical).2 then ((encoderKvRun eng s q0 n physical).1, false)
          else encoderKvDriveLoop eng final target fuel (encoderKvRun eng s q0 n physical).1 := by
      intro q0 n physical hq0 hn
      split_ifs with hran
      · rfl
      · simp only [Bool.not_eq_true, Bool.not_eq_false'] at hran
        have hemitted := (encoderKvRun_recorded hran).2
        exact ih (by omega)
    rw [show fuel + 1 + more = fuel + more + 1 by omega, encoderKvDriveLoop, encoderKvDriveLoop]
    simp only
    by_cases hdone : target ≤ s.frontend.enc.emitted
    · rw [if_pos hdone, if_pos hdone]
    rw [if_neg hdone, if_neg hdone]
    by_cases hhold : s.frontend.enc.emitted = 0 ∧ final = false ∧ target < encKvMaxNew
    · rw [if_pos hhold, if_pos hhold]
    rw [if_neg hhold, if_neg hhold]
    by_cases hfirst : s.frontend.enc.emitted = 0 ∧ encKvMaxNew ≤ target
    · rw [if_pos hfirst, if_pos hfirst]
      exact hnext 0 encKvMaxNew encKvMaxNew hfirst.1.symm (by decide)
    rw [if_neg hfirst, if_neg hfirst]
    by_cases hpartial : final = false ∧ target - s.frontend.enc.emitted < eng.schedule.logical
    · rw [if_pos hpartial, if_pos hpartial]
    rw [if_neg hpartial, if_neg hpartial]
    generalize (if final = true then eng.finishPhysical else eng.schedule.physical) = physical
    generalize (if final = true then eng.finishPhysical else eng.schedule.logical) = logical
    generalize min (min logical (physical - s.frontend.enc.emitted % physical))
      (target - s.frontend.enc.emitted) = n
    by_cases hzero : n = 0
    · rw [if_pos hzero, if_pos hzero]
    · rw [if_neg hzero, if_neg hzero]
      exact hnext _ n physical rfl (by omega)

end Loop

/-! ## The graphs while audio arrives -/

section Live

variable {sch : EncoderSchedule} {finishPhysical : ℕ}

/-- `k` complete logical batches from frame `e` on. -/
def batches (sch : EncoderSchedule) (e k : ℕ) : List EncoderRun :=
  (List.range k).map fun i => ⟨e + i * sch.logical, sch.logical, sch.physical⟩

/-- The graphs that compute the first `emitted` frames of a stream while audio arrives. -/
def liveRuns (sch : EncoderSchedule) (emitted : ℕ) : List EncoderRun :=
  if emitted = 0 then []
  else ⟨0, encKvMaxNew, encKvMaxNew⟩ ::
    batches sch encKvMaxNew ((emitted - encKvMaxNew) / sch.logical)

/-- One batch more, at the front. -/
lemma batches_succ (sch : EncoderSchedule) (e k : ℕ) :
    batches sch e (k + 1) = ⟨e, sch.logical, sch.physical⟩ :: batches sch (e + sch.logical) k := by
  rw [batches, List.range_succ_eq_map, List.map_cons, List.map_map, batches]
  congr 1
  · simp
  · refine List.map_congr_left fun i _ => ?_
    simp only [Function.comp, EncoderRun.mk.injEq, and_self, and_true]
    rw [Nat.succ_mul]
    omega

/-- Batches behind batches. -/
lemma batches_append (sch : EncoderSchedule) (e k m : ℕ) :
    batches sch e k ++ batches sch (e + k * sch.logical) m = batches sch e (k + m) := by
  induction k generalizing e with
  | zero => simp [batches]
  | succ k ih =>
    rw [show k + 1 + m = k + m + 1 by omega, batches_succ, batches_succ, List.cons_append, ← ih,
      show e + (k + 1) * sch.logical = e + sch.logical + k * sch.logical by rw [Nat.succ_mul]; omega]

/-- Behind the first block the loop runs complete batches. -/
lemma scheduleRuns_batches (target fuel e : ℕ) (hdvd : sch.logical ∣ e) (he : e ≠ 0)
    (hfuel : target ≤ e + fuel) :
    scheduleRuns sch finishPhysical false target fuel e =
      batches sch e ((target - e) / sch.logical) := by
  have hlogical := sch.logical_pos
  induction fuel generalizing e with
  | zero =>
    rw [show target - e = 0 by omega, Nat.zero_div]
    rfl
  | succ fuel ih =>
    rw [scheduleRuns]
    simp only [Bool.false_eq_true, if_false, true_and]
    by_cases hdone : target ≤ e
    · rw [if_pos hdone, show target - e = 0 by omega, Nat.zero_div]
      rfl
    rw [if_neg hdone, if_neg (by omega), if_neg (by omega)]
    by_cases hpartial : target - e < sch.logical
    · rw [if_pos hpartial, Nat.div_eq_of_lt hpartial]
      rfl
    have hroom := batch_le_room sch.physical_bounds.1 sch.logical_dvd hdvd
    have hn : min (min sch.logical (sch.physical - e % sch.physical)) (target - e) =
        sch.logical := by omega
    have hdiv : (target - e) / sch.logical = (target - (e + sch.logical)) / sch.logical + 1 := by
      rw [show target - e = target - (e + sch.logical) + sch.logical by omega,
        Nat.add_div_right _ hlogical]
    rw [if_neg hpartial, hn, hdiv, batches_succ,
      ih (e + sch.logical) (Nat.dvd_add hdvd dvd_rfl) (by omega) (by omega)]

/-- Behind the first block the emitted frames are complete batches. -/
lemma encEmitted_eq {target : ℕ} (hblock : encKvMaxNew ≤ target) :
    encEmitted sch.logical target =
      encKvMaxNew + (target - encKvMaxNew) / sch.logical * sch.logical := by
  obtain ⟨m, hm⟩ : sch.logical ∣ encKvMaxNew := sch.logical_dvd.trans sch.physical_bounds.2
  have hsplit : target = target - encKvMaxNew + m * sch.logical := by
    rw [Nat.mul_comm m, ← hm]
    omega
  have hdiv : target / sch.logical = (target - encKvMaxNew) / sch.logical + m := by
    nth_rewrite 1 [hsplit]
    exact Nat.add_mul_div_right _ _ sch.logical_pos
  rw [encEmitted, if_neg (not_lt.mpr hblock), hdiv, Nat.add_mul, Nat.mul_comm m, ← hm, Nat.add_comm]

/-- The graphs that were run when `target` frames were realizable. -/
lemma liveRuns_encEmitted {target : ℕ} (hblock : encKvMaxNew ≤ target) :
    liveRuns sch (encEmitted sch.logical target) = ⟨0, encKvMaxNew, encKvMaxNew⟩ ::
      batches sch encKvMaxNew ((target - encKvMaxNew) / sch.logical) := by
  rw [encEmitted_eq hblock, liveRuns, if_neg (by simp), Nat.add_sub_cancel_left,
    Nat.mul_div_cancel _ sch.logical_pos]

/-- From the start, the loop runs the graphs of the stream. -/
lemma scheduleRuns_live (target fuel : ℕ) (hfuel : target ≤ fuel) :
    scheduleRuns sch finishPhysical false target fuel 0 =
      liveRuns sch (encEmitted sch.logical target) := by
  by_cases hsmall : target < encKvMaxNew
  · rw [encEmitted, if_pos hsmall, liveRuns, if_pos rfl]
    cases fuel with
    | zero => rfl
    | succ fuel =>
      rw [scheduleRuns]
      by_cases hdone : target ≤ 0
      · rw [if_pos hdone]
      · rw [if_neg hdone, if_pos ⟨rfl, rfl, hsmall⟩]
  · have hblock : encKvMaxNew ≤ target := not_lt.mp hsmall
    have hdvd : sch.logical ∣ encKvMaxNew := sch.logical_dvd.trans sch.physical_bounds.2
    obtain ⟨fuel, rfl⟩ : ∃ m, fuel = m + 1 := Nat.exists_eq_succ_of_ne_zero (by
      simp at hblock
      omega)
    rw [liveRuns_encEmitted hblock, scheduleRuns, if_neg (by simp at hblock; omega),
      if_neg (fun h => hsmall h.2.2), if_pos ⟨rfl, hblock⟩,
      scheduleRuns_batches target fuel encKvMaxNew hdvd (by decide) (by simp; omega)]

/-- Driving the encoder in two steps runs the same graphs as driving it at once. -/
theorem liveRuns_append {target target' : ℕ} (hle : target ≤ target') :
    liveRuns sch (encEmitted sch.logical target) ++ scheduleRuns sch finishPhysical false target'
      (target' - encEmitted sch.logical target) (encEmitted sch.logical target) =
      liveRuns sch (encEmitted sch.logical target') := by
  by_cases hsmall : target < encKvMaxNew
  · rw [encEmitted, if_pos hsmall, liveRuns, if_pos rfl, List.nil_append, Nat.sub_zero]
    exact scheduleRuns_live target' target' le_rfl
  · have hblock : encKvMaxNew ≤ target := not_lt.mp hsmall
    rw [liveRuns_encEmitted hblock, liveRuns_encEmitted (hblock.trans hle)]
    have hemitted : encEmitted sch.logical target =
        encKvMaxNew + (target - encKvMaxNew) / sch.logical * sch.logical := encEmitted_eq hblock
    set k := (target - encKvMaxNew) / sch.logical
    have hle' : encKvMaxNew + k * sch.logical ≤ target := hemitted ▸ encEmitted_le _ _
    have hsplit : target' - encKvMaxNew = target' - (encKvMaxNew + k * sch.logical) +
        k * sch.logical := by omega
    rw [hemitted, scheduleRuns_batches _ _ _ (hemitted ▸ dvd_encEmitted _ _) (by simp) (by omega),
      List.cons_append, batches_append, hsplit, Nat.add_mul_div_right _ _ sch.logical_pos,
      Nat.add_comm k]

end Live

/-! ## Coverage -/

section Coverage

variable {sch : EncoderSchedule} {finishPhysical : ℕ}

/-- The frames of a list of graphs, in the order in which they are computed. -/
def framesOf (runs : List EncoderRun) : List ℕ := runs.flatMap fun r => List.range' r.qStart r.n

/-- A graph stays within one physical block. -/
def EncoderRun.WithinBlock (r : EncoderRun) : Prop := r.qStart % r.physical + r.n ≤ r.physical

/-- Batches compute the frames of their range in order. -/
lemma framesOf_batches (sch : EncoderSchedule) (e k : ℕ) :
    framesOf (batches sch e k) = List.range' e (k * sch.logical) := by
  induction k generalizing e with
  | zero => simp [batches, framesOf]
  | succ k ih =>
    rw [batches_succ, framesOf, List.flatMap_cons, ← framesOf, ih, List.range'_append_1,
      Nat.succ_mul, Nat.add_comm]

/-- While audio arrives, every emitted frame is computed once, in order. -/
lemma framesOf_liveRuns (target : ℕ) :
    framesOf (liveRuns sch (encEmitted sch.logical target)) =
      List.range (encEmitted sch.logical target) := by
  by_cases hsmall : target < encKvMaxNew
  · rw [encEmitted, if_pos hsmall, liveRuns, if_pos rfl]
    rfl
  · have hblock : encKvMaxNew ≤ target := not_lt.mp hsmall
    rw [liveRuns_encEmitted hblock, framesOf, List.flatMap_cons, ← framesOf, framesOf_batches,
      encEmitted_eq hblock, List.range_eq_range', ← List.range'_append_1, Nat.zero_add]

/-- At the finish, every remaining frame is computed once, in order. -/
lemma framesOf_final (hfinish : 0 < finishPhysical) (target fuel e : ℕ) (hfuel : target ≤ e + fuel) :
    framesOf (scheduleRuns sch finishPhysical true target fuel e) =
      List.range' e (target - e) := by
  induction fuel generalizing e with
  | zero =>
    rw [show target - e = 0 by omega]
    rfl
  | succ fuel ih =>
    rw [scheduleRuns]
    simp only [Bool.true_eq_false, if_true, false_and, and_false, if_false]
    by_cases hdone : target ≤ e
    · rw [if_pos hdone, show target - e = 0 by omega]
      rfl
    rw [if_neg hdone]
    by_cases hfirst : e = 0 ∧ encKvMaxNew ≤ target
    · obtain ⟨rfl, hblock⟩ := hfirst
      rw [if_pos ⟨rfl, hblock⟩, framesOf, List.flatMap_cons, ← framesOf,
        ih _ (by simp at hblock ⊢; omega)]
      change List.range' 0 encKvMaxNew ++ List.range' encKvMaxNew (target - encKvMaxNew) = _
      have hjoin := List.range'_append_1 (s := 0) (m := encKvMaxNew) (n := target - encKvMaxNew)
      rw [Nat.zero_add, Nat.add_sub_cancel' hblock] at hjoin
      exact hjoin
    · have hmod := Nat.mod_lt e hfinish
      set n := min (min finishPhysical (finishPhysical - e % finishPhysical)) (target - e) with hn
      rw [if_neg hfirst, framesOf, List.flatMap_cons, ← framesOf, ih _ (by omega)]
      change List.range' e n ++ List.range' (e + n) (target - (e + n)) = _
      rw [List.range'_append_1, show n + (target - (e + n)) = target - e by omega]

/-- No graph of the loop crosses a block boundary. -/
lemma scheduleRuns_withinBlock (final : Bool) (target fuel e : ℕ) (hfinish : 0 < finishPhysical) :
    ∀ r ∈ scheduleRuns sch finishPhysical final target fuel e, r.WithinBlock := by
  induction fuel generalizing e with
  | zero => exact fun r hr => absurd hr List.not_mem_nil
  | succ fuel ih =>
    -- behind a graph that stays within its block
    have hcons : ∀ r : EncoderRun, r.WithinBlock → ∀ r' ∈ r ::
        scheduleRuns sch finishPhysical final target fuel (r.qStart + r.n), r'.WithinBlock := by
      intro r hr r' hmem
      rcases List.mem_cons.mp hmem with rfl | hmem
      · exact hr
      · exact ih _ r' hmem
    have hphysical : 0 < if final = true then finishPhysical else sch.physical := by
      split_ifs
      · exact hfinish
      · exact sch.physical_bounds.1
    rw [scheduleRuns]
    simp only
    generalize (if final = true then finishPhysical else sch.physical) = physical at hphysical ⊢
    generalize (if final = true then finishPhysical else sch.logical) = logical
    split_ifs with hdone hhold hfirst hpartial
    · exact fun r hr => absurd hr List.not_mem_nil
    · exact fun r hr => absurd hr List.not_mem_nil
    · exact hcons ⟨0, encKvMaxNew, encKvMaxNew⟩ (by simp [EncoderRun.WithinBlock])
    · exact fun r hr => absurd hr List.not_mem_nil
    · refine hcons ⟨e, _, physical⟩ ?_
      have hmod := Nat.mod_lt e hphysical
      simp only [EncoderRun.WithinBlock]
      omega

end Coverage

end Voxtral
