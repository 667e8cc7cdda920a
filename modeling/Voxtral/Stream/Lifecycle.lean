import Voxtral.Stream.TerminalEvents
import Voxtral.Stream.CallCases

/-!
# The lifecycle of a stream

What a call does to the lifecycle record: a pump and the frontend touch its error state only, so the
state, the counters and the cancellation flag change where `voxtral-stream.cpp` writes them.  A stream
that has not ended has run no inference to its end and queued TOKEN events and snapshots only
(`Unended`), which is all that its terminal calls need to know.
-/

namespace Voxtral

variable {α φ ε γ κ : Type*}

/-- The lifecycle record without its error state. -/
def Lifecycle.course (l : Lifecycle) : Lifecycle := { l with lastStatus := .ok, lastError := "" }

/-- The lifecycle changed in its error state only. -/
def CourseKept (s s' : Stream α φ ε γ κ) : Prop := s'.lifecycle.course = s.lifecycle.course

section Course

variable {eng : Engine α φ ε γ κ} {s s' : Stream α φ ε γ κ}

/-- A stream keeps its own course. -/
lemma CourseKept.refl (s : Stream α φ ε γ κ) : CourseKept s s := rfl

/-- Two changes that keep the course. -/
lemma CourseKept.trans {s₁ s₂ s₃ : Stream α φ ε γ κ} (h : CourseKept s₁ s₂) (h' : CourseKept s₂ s₃) :
    CourseKept s₁ s₃ := Eq.trans h' h

/-- The state stays. -/
lemma CourseKept.state (h : CourseKept s s') : s'.lifecycle.state = s.lifecycle.state := by
  have hstate := congrArg Lifecycle.state h
  exact hstate

/-- The samples received stay. -/
lemma CourseKept.totalReceived (h : CourseKept s s') :
    s'.lifecycle.totalSamplesReceived = s.lifecycle.totalSamplesReceived := by
  have htotal := congrArg Lifecycle.totalSamplesReceived h
  exact htotal

/-- The inference runs stay. -/
lemma CourseKept.inferenceRuns (h : CourseKept s s') :
    s'.lifecycle.inferenceRuns = s.lifecycle.inferenceRuns := by
  have hruns := congrArg Lifecycle.inferenceRuns h
  exact hruns

/-- So does the note that CANCELLED was emitted. -/
lemma CourseKept.cancelledEmitted (h : CourseKept s s') :
    s'.lifecycle.cancelledEmitted = s.lifecycle.cancelledEmitted := by
  have hemitted := congrArg Lifecycle.cancelledEmitted h
  exact hemitted

/-! ## The pump -/

/-- A step of a pump keeps the course. -/
lemma PumpStep.course (h : PumpStep eng s s') : CourseKept s s' := by
  cases h with
  | deliver p =>
    by_cases heos : p.token = tokenEos
    · rw [deliverPending_eos heos]
      rfl
    · rw [deliverPending_text heos]
      unfold CourseKept
      rw [(afterSnapshot_frame eng s p).lifecycle]
      rfl
  | _ => rfl

/-- So does a pump. -/
lemma PumpSteps.course (h : PumpSteps eng s s') : CourseKept s s' := by
  induction h with
  | refl => exact CourseKept.refl s
  | tail _ hstep ih => exact ih.trans hstep.course

/-! ## The frontend and the encoder -/

variable (eng) in
/-- A batch of the encoder keeps the course. -/
lemma runEncoderKvBatch_course (s : Stream α φ ε γ κ) (qStart n physical : ℕ) :
    CourseKept s (runEncoderKvBatch eng s qStart n physical).1 := by
  unfold runEncoderKvBatch
  simp only
  split_ifs <;> rfl

variable (eng) in
/-- So does a batch behind its checks. -/
lemma encoderKvRun_course (s : Stream α φ ε γ κ) (q0 n physical : ℕ) :
    CourseKept s (encoderKvRun eng s q0 n physical).1 := by
  have hrun := runEncoderKvBatch_course eng s q0 n physical
  unfold encoderKvRun
  simp only
  split_ifs
  · rfl
  · rfl
  · exact hrun
  · exact hrun

variable (eng) in
/-- So does the loop of the batches. -/
lemma encoderKvDriveLoop_course (final : Bool) (target fuel : ℕ) (s : Stream α φ ε γ κ) :
    CourseKept s (encoderKvDriveLoop eng final target fuel s).1 := by
  induction fuel generalizing s with
  | zero => rfl
  | succ fuel ih =>
    rw [encoderKvDriveLoop]
    simp only
    split_ifs
    all_goals first
      | rfl
      | exact encoderKvRun_course eng s _ _ _
      | exact (encoderKvRun_course eng s _ _ _).trans (ih _)

variable (eng) in
/-- So does a push of Mel frames. -/
lemma encoderStreamPushMel_course (s : Stream α φ ε γ κ) (final : Bool) (frames : List φ)
    (baseFrame : ℕ) : CourseKept s (encoderStreamPushMel eng s final frames baseFrame).1 := by
  unfold encoderStreamPushMel
  simp only
  split_ifs
  · rfl
  · rfl
  · rfl
  · exact encoderKvDriveLoop_course eng final _ _ _

variable (eng) in
/-- So does the finish of the encoder. -/
lemma encoderStreamFinish_course (s : Stream α φ ε γ κ) :
    CourseKept s (encoderStreamFinish eng s).1 := by
  unfold encoderStreamFinish
  simp only
  split_ifs
  · rfl
  · exact encoderKvDriveLoop_course eng true _ _ s

variable (eng) in
/-- So does the loop that drains the Mel frontend. -/
lemma drainMelLoop_course (total fuel : ℕ) (s : Stream α φ ε γ κ) :
    CourseKept s (drainMelLoop eng total fuel s).1 := by
  induction fuel generalizing s with
  | zero => rfl
  | succ fuel ih =>
    rw [drainMelLoop]
    simp only
    split_ifs
    · cases melFrontendFrameData s.frontend.melFe s.frontend.encPushedFrames with
      | none => rfl
      | some frames =>
        have hpush := encoderStreamPushMel_course eng s false
          (frames.take (min melDrainSlice (total - s.frontend.encPushedFrames)))
          s.frontend.encPushedFrames
        simp only
        split_ifs
        · exact hpush
        · exact CourseKept.trans hpush (ih _)
    · rfl

variable (eng) in
/-- So does the drain. -/
lemma drainMelToEncoder_course (s : Stream α φ ε γ κ) (final : Bool) :
    CourseKept s (drainMelToEncoder eng s final).1 := by
  unfold drainMelToEncoder
  simp only
  split_ifs
  · rfl
  · rfl
  · cases melFrontendFrameData s.frontend.melFe s.frontend.encPushedFrames with
    | none => rfl
    | some frames =>
      have hpush := encoderStreamPushMel_course eng s true
        (frames.take (s.frontend.melFe.nextFrame - s.frontend.encPushedFrames))
        s.frontend.encPushedFrames
      simp only
      split_ifs
      · exact hpush
      · exact hpush
  · exact drainMelLoop_course eng _ _ s

/-- So does the left padding. -/
lemma ensureLeftPad_course [Zero α] (h : ensureLeftPad eng s = some s') : CourseKept s s' := by
  obtain ⟨_, _, rfl⟩ := ensureLeftPad_eq h
  rfl

/-- So does a slice of audio. -/
lemma absorbSlice_course {slice : List α} {ok : Bool}
    (h : absorbSlice eng s slice = some (s', ok)) : CourseKept s s' := by
  unfold absorbSlice at h
  obtain ⟨r, -, hr⟩ := Option.map_eq_some_iff.mp h
  simp only at hr
  split_ifs at hr
  · obtain ⟨rfl, -⟩ := Prod.mk.inj hr
    rfl
  · have hs' := congrArg Prod.fst hr
    dsimp only at hs'
    rw [← hs']
    exact drainMelToEncoder_course eng _ _

/-- So does the frontend part of a finish. -/
lemma finishFrontend_course [Zero α] {out : Option String}
    (h : finishFrontend eng s = some (s', out)) : CourseKept s s' := by
  unfold finishFrontend at h
  obtain ⟨t, hpad, h⟩ := Option.bind_eq_some_iff.mp h
  obtain ⟨r, -, h⟩ := Option.bind_eq_some_iff.mp h
  obtain ⟨melFe, -, h⟩ := Option.map_eq_some_iff.mp h
  have hdrain := drainMelToEncoder_course eng
    { t with frontend := { t.frontend with melFe := melFe } } true
  have hpadded : CourseKept s t := ensureLeftPad_course hpad
  have hstart : CourseKept s { t with frontend := { t.frontend with melFe := melFe } } := hpadded
  have hs' := congrArg Prod.fst h
  dsimp only at hs'
  rw [← hs']
  split_ifs
  · exact hstart.trans hdrain
  · exact (hstart.trans hdrain).trans (encoderStreamFinish_course eng _)
  · exact (hstart.trans hdrain).trans (encoderStreamFinish_course eng _)

/-! ## What goes on within a call -/

/-- `s'` follows `s` within a call: the lifecycle changed in its error state only, nothing was polled,
and what was queued are TOKEN events and snapshots for which there was room. -/
structure GoesOn (s s' : Stream α φ ε γ κ) : Prop where
  course : CourseKept s s'
  within : DecoderWithin s'
  polled : s'.events.polled = s.events.polled
  maxEvents : s'.events.maxEvents = s.events.maxEvents
  flush : s'.events.finalizingFlush = s.events.finalizingFlush
  midStream : (∀ e ∈ s.events.queue, e.IsMidStream) → ∀ e ∈ s'.events.queue, e.IsMidStream
  room : s.events.queue.length ≤ s.events.bound → s'.events.queue.length ≤ s'.events.bound

/-- A stream goes on from itself. -/
lemma GoesOn.refl (hw : DecoderWithin s) : GoesOn s s :=
  ⟨rfl, hw, rfl, rfl, rfl, id, id⟩

/-- Going on twice. -/
lemma GoesOn.trans {s₁ s₂ s₃ : Stream α φ ε γ κ} (h : GoesOn s₁ s₂) (h' : GoesOn s₂ s₃) :
    GoesOn s₁ s₃ where
  course := h.course.trans h'.course
  within := h'.within
  polled := h'.polled.trans h.polled
  maxEvents := h'.maxEvents.trans h.maxEvents
  flush := h'.flush.trans h.flush
  midStream := h'.midStream ∘ h.midStream
  room := h'.room ∘ h.room

variable (eng) in
/-- A stream goes on through a pump. -/
lemma GoesOn.pump (hw : DecoderWithin s) : GoesOn s (pumpIncremental eng s).1 := by
  have hsteps : PumpSteps eng s (pumpIncremental eng s).1 := pumpIncremental_steps hw
  have hframe := PumpSteps.frame hsteps
  exact ⟨PumpSteps.course hsteps, PumpSteps.within hsteps hw, hframe.polled, hframe.maxEvents,
    hframe.finalizingFlush, PumpSteps.midStream hsteps, PumpSteps.queue_le hsteps⟩

/-- It goes on through a change of the frontend. -/
lemma GoesOn.frontend (hw : DecoderWithin s) (hchange : FrontendChange s s')
    (hcourse : CourseKept s s') : GoesOn s s' := by
  have hevents := hchange.events
  refine ⟨hcourse, ?_, by rw [hevents], by rw [hevents], by rw [hevents], by rw [hevents]; exact id, ?_⟩
  · exact hw.of_decoder hchange.decoder rfl rfl rfl rfl rfl
  · unfold Events.bound
    rw [hevents]
    exact id

/-- The slice loop of a feed. -/
lemma feedSlices_goesOn (slices : List (List α)) {stalled : Bool} {status : Status}
    (hw : DecoderWithin s) (h : feedSlices eng s stalled slices = some (s', status)) :
    GoesOn s s' ∧ PumpStatus status := by
  induction slices generalizing s stalled with
  | nil =>
    obtain ⟨rfl, rfl⟩ := Prod.mk.inj (Option.some.inj h)
    refine ⟨GoesOn.refl hw, ?_⟩
    cases stalled
    · exact Or.inl rfl
    · exact Or.inr (Or.inl rfl)
  | cons slice rest ih =>
    rw [feedSlices] at h
    obtain ⟨⟨t, ok⟩, habsorb, h⟩ := Option.bind_eq_some_iff.mp h
    have ht : GoesOn s t :=
      GoesOn.frontend hw (absorbSlice_frontendChange habsorb) (absorbSlice_course habsorb)
    have hpump : GoesOn s (pumpIncremental eng t).1 := ht.trans (GoesOn.pump eng ht.within)
    dsimp only at h
    split_ifs at h with hok hstalled hfull hfail
    · obtain ⟨rfl, rfl⟩ := Prod.mk.inj (Option.some.inj h)
      exact ⟨ht, Or.inr (Or.inr rfl)⟩
    · obtain ⟨hrest, hstatus⟩ := ih ht.within h
      exact ⟨ht.trans hrest, hstatus⟩
    · obtain ⟨hrest, hstatus⟩ := ih hpump.within h
      exact ⟨hpump.trans hrest, hstatus⟩
    · have hresult : pumpIncremental eng t = (s', status) := Option.some.inj h
      have hstatus := pumpIncremental_status eng t
      rw [hresult] at hpump hstatus
      exact ⟨hpump, hstatus⟩
    · obtain ⟨hrest, hstatus⟩ := ih hpump.within h
      exact ⟨hpump.trans hrest, hstatus⟩

/-! ## Streams that have not ended -/

/-- A CANCELLED event. -/
def StreamEvent.isCancelled (e : StreamEvent) : Bool := e.type = .cancelled

/-- The CANCELLED events of a stream since its last reset, polled or still queued. -/
def cancelledEvents (s : Stream α φ ε γ κ) : ℕ := (eventHistory s).countP StreamEvent.isCancelled

/-- A stream that takes audio: it has run no inference to its end, was not cancelled, has queued TOKEN
events and snapshots only, and keeps to its event capacity. -/
structure Ongoing (s : Stream α φ ε γ κ) : Prop where
  within : DecoderWithin s
  inferenceRuns : s.lifecycle.inferenceRuns = 0
  cancelledEmitted : s.lifecycle.cancelledEmitted = false
  midStream : ∀ e ∈ eventHistory s, e.IsMidStream
  flush : s.events.finalizingFlush = false
  room : s.events.queue.length ≤ s.events.maxEvents

/-- Outside the final flush the bound is the capacity. -/
lemma Events.bound_of_not_flush {ev : Events} (h : ev.finalizingFlush = false) :
    ev.bound = ev.maxEvents := by
  unfold Events.bound
  rw [h]
  rfl

/-- A history of TOKEN events and snapshots has no CANCELLED event. -/
lemma cancelledEvents_of_midStream (h : ∀ e ∈ eventHistory s, e.IsMidStream) : cancelledEvents s = 0 := by
  refine List.countP_eq_zero.mpr fun e he hcancelled => ?_
  have htype : e.type = .cancelled := of_decide_eq_true hcancelled
  rcases h e he with htoken | hsnapshot
  · rw [htoken] at htype
    exact absurd htype (by decide)
  · rw [hsnapshot] at htype
    exact absurd htype (by decide)

/-- Bookkeeping leaves a stream ongoing. -/
lemma Ongoing.congr (h : Ongoing s) (hdecoder : s'.decoder = s.decoder)
    (hruns : s'.lifecycle.inferenceRuns = s.lifecycle.inferenceRuns)
    (hemitted : s'.lifecycle.cancelledEmitted = s.lifecycle.cancelledEmitted)
    (hevents : s'.events = { s.events with
      aggressivePartialCoalescing := s'.events.aggressivePartialCoalescing }) : Ongoing s' where
  within := h.within.of_decoder hdecoder rfl rfl rfl rfl rfl
  inferenceRuns := hruns.trans h.inferenceRuns
  cancelledEmitted := hemitted.trans h.cancelledEmitted
  midStream := by
    unfold eventHistory
    rw [hevents]
    exact h.midStream
  flush := by
    rw [hevents]
    exact h.flush
  room := by
    rw [hevents]
    exact h.room

/-- A stream that goes on has TOKEN events and snapshots only, if it had no others. -/
lemma GoesOn.history (h : GoesOn s s') (hmid : ∀ e ∈ eventHistory s, e.IsMidStream) :
    ∀ e ∈ eventHistory s', e.IsMidStream := by
  intro e he
  rw [eventHistory, h.polled] at he
  rcases List.mem_append.mp he with hpolled | hqueued
  · exact hmid e (List.mem_append_left _ hpolled)
  · exact h.midStream (fun e he => hmid e (List.mem_append_right _ he)) e hqueued

/-- An ongoing stream that goes on is ongoing. -/
lemma Ongoing.goesOn (h : Ongoing s) (hon : GoesOn s s') : Ongoing s' where
  within := hon.within
  inferenceRuns := hon.course.inferenceRuns.trans h.inferenceRuns
  cancelledEmitted := hon.course.cancelledEmitted.trans h.cancelledEmitted
  midStream := hon.history h.midStream
  flush := hon.flush.trans h.flush
  room := by
    have hflush := hon.flush.trans h.flush
    have hroom := hon.room
    rw [Events.bound_of_not_flush h.flush, Events.bound_of_not_flush hflush] at hroom
    exact hroom h.room

/-- It is ongoing behind a poll. -/
lemma Ongoing.poll (h : Ongoing s) : Ongoing (streamPollEvent s).1 := by
  unfold streamPollEvent
  cases hqueue : s.events.queue with
  | nil => exact h
  | cons e rest =>
    refine ⟨⟨h.within.floor, h.within.started, h.within.fresh, h.within.stash⟩, h.inferenceRuns,
      h.cancelledEmitted, ?_, h.flush, ?_⟩
    · intro x hx
      apply h.midStream x
      rw [eventHistory, hqueue]
      simpa [eventHistory] using hx
    · have hroom := h.room
      rw [hqueue, List.length_cons] at hroom
      exact (Nat.le_succ _).trans hroom

/-- A new stream is ongoing. -/
lemma ongoing_create (maxEvents : ℕ) (device : Device ε γ κ) :
    Ongoing (Stream.create maxEvents device : Stream α φ ε γ κ) where
  within := ⟨le_rfl, nofun, fun _ => ⟨rfl, rfl⟩, nofun⟩
  inferenceRuns := rfl
  cancelledEmitted := rfl
  midStream := nofun
  flush := rfl
  room := Nat.zero_le _

end Course

end Voxtral
