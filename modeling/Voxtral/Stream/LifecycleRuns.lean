import Voxtral.Stream.Reentrancy

/-!
# Lifecycles over runs

`LifecycleKept` is what every stream satisfies between two calls: what it queued and counted agrees with
its state.  Each call keeps it and moves the state along a cell of the transition table; the failed finish
of a stream in state `created` needs a feed that failed before, which left the decoder stalled without
having accepted a sample.
-/

namespace Voxtral

variable {α φ ε γ κ : Type*} {eng : Engine α φ ε γ κ} {s s' : Stream α φ ε γ κ} {status : Status}

/-- What a stream records of its generation agrees with its state, where `failed` says that a feed of the
generation has failed. -/
structure LifecycleKept (failed : Prop) (s : Stream α φ ε γ κ) : Prop where
  ongoing : s.Open → Ongoing s
  settled : s.lifecycle.state ≠ .finishing
  created : s.lifecycle.state = .created → s.lifecycle.totalSamplesReceived = 0
  stalled : s.lifecycle.state = .created → s.events.decoderBackpressured = true → failed
  cancelled : cancelledEvents s = if s.lifecycle.state = .cancelled then 1 else 0
  runs : s.lifecycle.inferenceRuns =
    if s.lifecycle.state = .completed ∧ s.lifecycle.totalSamplesReceived ≠ 0 then 1 else 0

/-- An ongoing stream has nothing else to agree with. -/
lemma LifecycleKept.of_open {failed : Prop} (h : Ongoing s) (hopen : s.Open)
    (hcreated : s.lifecycle.state = .created → s.lifecycle.totalSamplesReceived = 0)
    (hstalled : s.lifecycle.state = .created → s.events.decoderBackpressured = true → failed) :
    LifecycleKept failed s where
  ongoing := fun _ => h
  settled := by rcases hopen with hstate | hstate <;> rw [hstate] <;> decide
  created := hcreated
  stalled := hstalled
  cancelled := by
    rw [cancelledEvents_of_midStream h.midStream]
    rcases hopen with hstate | hstate <;> rw [hstate] <;> rfl
  runs := by
    rw [h.inferenceRuns]
    rcases hopen with hstate | hstate <;> rw [hstate] <;> rfl

/-- A stream that ended agrees with its state whether a feed failed or not. -/
lemma LifecycleKept.mono {failed failed' : Prop} (h : LifecycleKept failed s) (himp : failed → failed') :
    LifecycleKept failed' s :=
  { h with stalled := fun hcreated hbp => himp (h.stalled hcreated hbp) }

/-- Nothing but the error state changed. -/
lemma LifecycleKept.setError {failed : Prop} (h : LifecycleKept failed s) (status : Status) (msg : String) :
    LifecycleKept failed (setError s status msg) where
  ongoing := fun hopen => (h.ongoing hopen).congr rfl rfl rfl rfl
  settled := h.settled
  created := h.created
  stalled := h.stalled
  cancelled := h.cancelled
  runs := h.runs

/-- A poll keeps the invariant of the lifecycle. -/
lemma LifecycleKept.poll {failed : Prop} (h : LifecycleKept failed s) :
    LifecycleKept failed (streamPollEvent s).1 := by
  have hongoing : s.Open → Ongoing (streamPollEvent s).1 := fun hopen => (h.ongoing hopen).poll
  have hstalled : (streamPollEvent s).1.events.decoderBackpressured = s.events.decoderBackpressured := by
    unfold streamPollEvent
    cases s.events.queue <;> rfl
  obtain ⟨ev, hs', hhistory⟩ := streamPollEvent_eq s
  rw [hs'] at hongoing hstalled ⊢
  refine ⟨hongoing, h.settled, h.created, fun hcreated hbp => ?_, ?_, h.runs⟩
  · exact h.stalled hcreated (hstalled.symm.trans hbp)
  · have hsame : cancelledEvents { s with events := ev } = cancelledEvents s :=
      congrArg (List.countP StreamEvent.isCancelled) hhistory
    rw [hsame]
    exact h.cancelled

/-! ## Feeds -/

/-- What a feed of an open stream does. -/
structure FeedMove (s : Stream α φ ε γ κ) (count : ℕ) (s' : Stream α φ ε γ κ) (status : Status) :
    Prop where
  ongoing : Ongoing s'
  cell : (status, s'.lifecycle.state) ∈ feedCells count s.lifecycle.state
  total : s'.lifecycle.state = .created →
    s'.lifecycle.totalSamplesReceived = s.lifecycle.totalSamplesReceived
  stalled : s'.lifecycle.state = .created → s'.events.decoderBackpressured = true →
    s.events.decoderBackpressured = true ∨ status = .backendError

/-- A feed that leaves the lifecycle as it is, but for the error state and the calls counted. -/
lemma FeedMove.of_same {count : ℕ} (h : Ongoing s') (hstate : s'.lifecycle.state = s.lifecycle.state)
    (htotal : s'.lifecycle.totalSamplesReceived = s.lifecycle.totalSamplesReceived)
    (hcell : (status, s.lifecycle.state) ∈ feedCells count s.lifecycle.state)
    (hstalled : s'.events.decoderBackpressured = true →
      s.events.decoderBackpressured = true ∨ status = .backendError) : FeedMove s count s' status where
  ongoing := h
  cell := hstate ▸ hcell
  total := fun _ => htotal
  stalled := fun _ => hstalled

/-- A feed may always answer that a limit was exceeded. -/
lemma limitExceeded_mem_feedCells (count : ℕ) (s : StreamState) :
    (Status.limitExceeded, s) ∈ feedCells count s := by
  unfold feedCells
  split_ifs <;> simp

/-- It may always answer that the backend failed. -/
lemma backendError_mem_feedCells (count : ℕ) (s : StreamState) :
    (Status.backendError, s) ∈ feedCells count s := by
  unfold feedCells
  split_ifs <;> simp

variable [Zero α]

/-- The audio path. -/
lemma feedAudio_move {samples : List ℤ} (h : Ongoing s) (hopen : s.Open) (hne : samples ≠ [])
    (hfeed : feedAudio eng s samples = some (s', status)) : FeedMove s samples.length s' status := by
  rw [feedAudio_eq] at hfeed
  obtain ⟨t, hpad, hfeed⟩ := Option.bind_eq_some_iff.mp hfeed
  obtain ⟨⟨u, st⟩, hslices, hend⟩ := Option.map_eq_some_iff.mp hfeed
  have hstart : Ongoing (feedStart s samples.length) := h.congr rfl rfl rfl rfl
  have hpadded : GoesOn (feedStart s samples.length) t :=
    GoesOn.frontend hstart.within (ensureLeftPad_frontendChange hpad) (ensureLeftPad_course hpad)
  obtain ⟨hloop, hstatus⟩ := feedSlices_goesOn _ hpadded.within hslices
  have hu : Ongoing u := hstart.goesOn (hpadded.trans hloop)
  have hcourse : CourseKept s u := (hpadded.trans hloop).course
  have hcells : feedCells samples.length s.lifecycle.state =
      [(.ok, .running), (.limitExceeded, .running), (.limitExceeded, s.lifecycle.state),
        (.invalidArgument, s.lifecycle.state), (.backendError, s.lifecycle.state)] :=
    if_neg (List.length_pos_iff.mpr hne).ne'
  -- the state of a stream that accepted the audio
  have hrunning : (if u.lifecycle.state = .created then StreamState.running else u.lifecycle.state) =
      .running := by
    rw [hcourse.state]
    rcases hopen with hstate | hstate <;> rw [hstate] <;> rfl
  have hfst : (feedEnd s.events.aggressivePartialCoalescing samples.length (u, st)).1 = s' :=
    congrArg Prod.fst hend
  have hsnd : (feedEnd s.events.aggressivePartialCoalescing samples.length (u, st)).2 = status :=
    congrArg Prod.snd hend
  rw [feedEnd_status] at hsnd
  obtain rfl : st = status := hsnd
  rw [← hfst]
  rcases hstatus with rfl | rfl | rfl
  · refine ⟨hu.congr rfl rfl rfl rfl, ?_, fun hcreated => ?_, fun hcreated => ?_⟩
    · rw [hcells]
      simp [feedEnd, clearError, hrunning]
    · exact absurd (hrunning.symm.trans hcreated) (by decide)
    · exact absurd (hrunning.symm.trans hcreated) (by decide)
  · refine ⟨hu.congr rfl rfl rfl rfl, ?_, fun hcreated => ?_, fun hcreated => ?_⟩
    · rw [hcells]
      simp [feedEnd, hrunning]
    · exact absurd (hrunning.symm.trans hcreated) (by decide)
    · exact absurd (hrunning.symm.trans hcreated) (by decide)
  · refine FeedMove.of_same (hu.congr rfl rfl rfl rfl) hcourse.state hcourse.totalReceived ?_ ?_
    · exact backendError_mem_feedCells _ _
    · exact fun _ => Or.inr rfl

/-- A feed behind its resume pump. -/
lemma feedAdmit_move {buf : FeedBuffer} (h : Ongoing s) (hopen : s.Open)
    (hfeed : feedAdmit eng s buf = some (s', status)) : FeedMove s buf.count s' status := by
  have hreject : ∀ {st : Status} {msg : String}, (st, s.lifecycle.state) ∈
      feedCells buf.count s.lifecycle.state → some (setError s st msg, st) = some (s', status) →
      FeedMove s buf.count s' status := by
    intro st msg hcell hresult
    obtain ⟨rfl, rfl⟩ := Prod.mk.inj (Option.some.inj hresult)
    exact FeedMove.of_same (h.congr rfl rfl rfl rfl) rfl rfl hcell Or.inl
  have hempty : buf.count = 0 →
      some ({ clearError s with lifecycle := { (clearError s).lifecycle with
        feedCalls := (clearError s).lifecycle.feedCalls + 1 } }, Status.ok) = some (s', status) →
      FeedMove s buf.count s' status := by
    intro hzero hresult
    obtain ⟨rfl, rfl⟩ := Prod.mk.inj (Option.some.inj hresult)
    refine FeedMove.of_same (h.congr rfl rfl rfl rfl) rfl rfl ?_ Or.inl
    rw [hzero]
    simp [feedCells]
  cases buf with
  | null count =>
    cases count with
    | zero => exact hempty rfl hfeed
    | succ count => exact hreject (by simp [feedCells, FeedBuffer.count]) hfeed
  | data samples =>
    cases samples with
    | nil => exact hempty rfl hfeed
    | cons x xs =>
      simp only [feedAdmit] at hfeed
      split_ifs at hfeed
      · exact hreject (by simp [feedCells, FeedBuffer.count]) hfeed
      · exact hreject (by simp [feedCells, FeedBuffer.count]) hfeed
      · exact hreject (by simp [feedCells, FeedBuffer.count]) hfeed
      · exact hreject (limitExceeded_mem_feedCells _ _) hfeed
      · exact feedAudio_move h hopen (List.cons_ne_nil x xs) hfeed

/-- A feed of an open stream. -/
lemma feedCommon_move {buf : FeedBuffer} (h : Ongoing s) (hopen : s.Open)
    (hfeed : feedCommon eng s buf = some (s', status)) : FeedMove s buf.count s' status := by
  have hpump : GoesOn s (pumpIncremental eng s).1 := GoesOn.pump eng h.within
  have hpumped : Ongoing (pumpIncremental eng s).1 := h.goesOn hpump
  have hstate := hpump.course.state
  have htotal := hpump.course.totalReceived
  unfold feedCommon at hfeed
  rw [if_neg (by rcases hopen with hs | hs <;> rw [hs] <;> decide)] at hfeed
  by_cases hbp : s.events.decoderBackpressured = true
  · rw [if_pos hbp] at hfeed
    dsimp only at hfeed
    split_ifs at hfeed with hlimit hok
    · obtain ⟨rfl, rfl⟩ := Prod.mk.inj (Option.some.inj hfeed)
      refine FeedMove.of_same (hpumped.congr rfl rfl rfl rfl) hstate htotal ?_ fun _ => Or.inl hbp
      exact limitExceeded_mem_feedCells _ _
    · have hfail := ((pumpIncremental_status eng s).resolve_left hok).resolve_left hlimit
      have hresult : pumpIncremental eng s = (s', status) := Option.some.inj hfeed
      rw [hresult] at hfail hpumped hstate htotal
      obtain rfl : status = .backendError := hfail
      refine FeedMove.of_same hpumped hstate htotal ?_ fun _ => Or.inr rfl
      exact backendError_mem_feedCells _ _
    · have hopen' : (pumpIncremental eng s).1.Open := by
        unfold Stream.Open
        rw [hstate]
        exact hopen
      have hmove := feedAdmit_move hpumped hopen' hfeed
      refine ⟨hmove.ongoing, ?_, fun hcreated => ?_, fun _ _ => Or.inl hbp⟩
      · rw [← hstate]
        exact hmove.cell
      · exact (hmove.total hcreated).trans htotal
  · rw [if_neg hbp] at hfeed
    exact feedAdmit_move h hopen hfeed

/-! ## Finishes -/

omit [Zero α] in
/-- Events that are no cancellations do not count. -/
lemma Appends.cancelledEvents {es : List StreamEvent} (h : Appends s s' es)
    (hes : ∀ e ∈ es, e.isCancelled = false) : cancelledEvents s' = cancelledEvents s := by
  have hnone : es.countP StreamEvent.isCancelled = 0 := by
    refine List.countP_eq_zero.mpr fun e he hcancelled => ?_
    rw [hes e he] at hcancelled
    exact absurd hcancelled (by decide)
  unfold Voxtral.cancelledEvents eventHistory
  rw [h.polled, h.queue, ← List.append_assoc, List.countP_append, hnone, Nat.add_zero]

omit [Zero α] in
/-- An event keeps the course. -/
lemma pushEvent_course (s : Stream α φ ε γ κ) (e : StreamEvent) : CourseKept s (pushEvent s e).1 := by
  unfold pushEvent
  split_ifs <;> rfl

omit [Zero α] in
/-- A stream that fails in the middle of a finish. -/
lemma failStream_kept {failed : Prop} (hmid : ∀ e ∈ eventHistory s, e.IsMidStream)
    (hruns : s.lifecycle.inferenceRuns = 0) : LifecycleKept failed (failStream s status) := by
  obtain ⟨es, happ, hes⟩ := failStream_appends s status
  have hstate : (failStream s status).lifecycle.state = .failed := rfl
  refine ⟨fun hopen => ?_, by rw [hstate]; decide, fun hcreated => ?_, fun hcreated => ?_, ?_, ?_⟩
  · rcases hopen with hopen | hopen <;> exact absurd (hstate.symm.trans hopen) (by decide)
  · exact absurd (hstate.symm.trans hcreated) (by decide)
  · exact absurd (hstate.symm.trans hcreated) (by decide)
  · rw [happ.cancelledEvents, cancelledEvents_of_midStream hmid, hstate]
    · rfl
    · intro e he
      rw [hes e he]
      rfl
  · rw [hstate]
    exact (pushEvent_course s _).inferenceRuns.trans hruns

omit [Zero α] in
/-- A stream that completes, with one inference if it has received audio. -/
lemma completeStream_kept {failed : Prop} (hmid : ∀ e ∈ eventHistory s, e.IsMidStream)
    (hruns : s.lifecycle.inferenceRuns = if s.lifecycle.totalSamplesReceived ≠ 0 then 1 else 0) :
    LifecycleKept failed (completeStream s) := by
  obtain ⟨es, happ, hes⟩ := completeStream_appends s
  have hstate : (completeStream s).lifecycle.state = .completed := rfl
  have hcourse : CourseKept s (emitFinalAndCompleted s) :=
    (pushEvent_course s _).trans (pushEvent_course _ _)
  refine ⟨fun hopen => ?_, by rw [hstate]; decide, fun hcreated => ?_, fun hcreated => ?_, ?_, ?_⟩
  · rcases hopen with hopen | hopen <;> exact absurd (hstate.symm.trans hopen) (by decide)
  · exact absurd (hstate.symm.trans hcreated) (by decide)
  · exact absurd (hstate.symm.trans hcreated) (by decide)
  · rw [happ.cancelledEvents, cancelledEvents_of_midStream hmid, hstate]
    · rfl
    · intro e he
      have he' := hes.subset he
      simp only [List.mem_cons, List.not_mem_nil, or_false] at he'
      rcases he' with rfl | rfl <;> rfl
  · rw [hstate, happ.totalReceived]
    simp only [true_and]
    exact hcourse.inferenceRuns.trans hruns

/-- A finish behind its backlog drain ends the stream. -/
lemma finishPath_kept (failed : Prop) (h : Ongoing s)
    (hpath : FinishPath eng s s' status) : LifecycleKept failed s' ∧
      ((status = .ok ∧ s'.lifecycle.state = .completed) ∨
        (status = .backendError ∧ s'.lifecycle.state = .failed ∧
          s.lifecycle.totalSamplesReceived ≠ 0)) := by
  have hw : DecoderWithin (flushStart s) := h.within.of_decoder rfl rfl rfl rfl rfl rfl
  have hfront : ∀ {t : Stream α φ ε γ κ} {out : Option String},
      finishFrontend eng (flushStart s) = some (t, out) → GoesOn (flushStart s) t := fun hflush =>
    GoesOn.frontend hw (finishFrontend_frontendChange hflush).1 (finishFrontend_course hflush)
  have htail : ∀ {t : Stream α φ ε γ κ}, finishFrontend eng (flushStart s) = some (t, none) →
      GoesOn (flushStart s) (pumpIncremental eng (tailStart t)).1 := by
    intro t hflush
    have ht := hfront hflush
    have hwt : DecoderWithin (tailStart t) :=
      ⟨ht.within.floor, ht.within.started, ht.within.fresh, ht.within.stash⟩
    have hstart : GoesOn (flushStart s) (tailStart t) :=
      ⟨ht.course, hwt, ht.polled, ht.maxEvents, ht.flush, ht.midStream, ht.room⟩
    exact hstart.trans (GoesOn.pump eng hwt)
  cases hpath with
  | empty hzero =>
    refine ⟨completeStream_kept h.midStream ?_, Or.inl ⟨rfl, rfl⟩⟩
    change s.lifecycle.inferenceRuns = if s.lifecycle.totalSamplesReceived ≠ 0 then 1 else 0
    rw [if_neg (not_not.mpr hzero)]
    exact h.inferenceRuns
  | @frontendFailed hzero t what hflush =>
    have ht := hfront hflush
    have hruns : t.lifecycle.inferenceRuns = 0 := ht.course.inferenceRuns.trans h.inferenceRuns
    exact ⟨failStream_kept (ht.history h.midStream) hruns, Or.inr ⟨rfl, rfl, hzero⟩⟩
  | @pumpFailed hzero t hflush =>
    have hp := htail hflush
    have hruns := hp.course.inferenceRuns.trans h.inferenceRuns
    exact ⟨failStream_kept (hp.history h.midStream) hruns, Or.inr ⟨rfl, rfl, hzero⟩⟩
  | @completed hzero t hflush =>
    have hp := htail hflush
    have hruns : (pumpIncremental eng (tailStart t)).1.lifecycle.inferenceRuns = 0 :=
      hp.course.inferenceRuns.trans h.inferenceRuns
    have htotal : (pumpIncremental eng (tailStart t)).1.lifecycle.totalSamplesReceived =
        s.lifecycle.totalSamplesReceived := hp.course.totalReceived
    refine ⟨completeStream_kept (hp.history h.midStream) ?_, Or.inl ⟨rfl, rfl⟩⟩
    change _ + 1 = if (pumpIncremental eng (tailStart t)).1.lifecycle.totalSamplesReceived ≠ 0 then 1 else 0
    rw [hruns, htotal, if_pos hzero]

omit [Zero α] in
/-- Polls keep an ongoing stream, and its lifecycle. -/
lemma pollTimes_ongoing (h : Ongoing s) (n : ℕ) : Ongoing (pollTimes s n) ∧
    (pollTimes s n).lifecycle = s.lifecycle := by
  induction n generalizing s with
  | zero => exact ⟨h, rfl⟩
  | succ n ih =>
    rw [pollTimes_succ]
    obtain ⟨ev, hs', -⟩ := streamPollEvent_eq s
    have hlifecycle : (streamPollEvent s).1.lifecycle = s.lifecycle := by rw [hs']
    obtain ⟨hongoing, hsame⟩ := ih h.poll
    exact ⟨hongoing, hsame.trans hlifecycle⟩

/-- A finish moves along the table, or it is the failed finish of a stream in state `created`. -/
lemma finishHooked_kept {clearKv : κ → κ} {failed : Prop}
    {hook : GuardedStream α φ ε γ κ → Option (GuardedStream α φ ε γ κ)}
    (hhook : ActsByCalls eng clearKv hook) (h : LifecycleKept failed s)
    (hfinish : finishHooked eng hook s = some (s', status)) : LifecycleKept failed s' ∧
      ((status, s'.lifecycle.state) ∈ transitionTable .finish s.lifecycle.state ∨
        (s.lifecycle.state = .created ∧ status = .backendError ∧ s'.lifecycle.state = .failed ∧
          failed)) := by
  by_cases hlive : s.Open ∧ Resumes eng s
  · obtain ⟨hopen, hresumes⟩ := hlive
    have hs := h.ongoing hopen
    have hresumed : GoesOn s (resumed eng s) := by
      unfold resumed
      split_ifs
      · exact GoesOn.pump eng hs.within
      · exact GoesOn.refl hs.within
    obtain ⟨n, hn⟩ := finishHooked_live hhook hopen hresumes hfinish
    obtain ⟨hpolled, hsame⟩ := pollTimes_ongoing (hs.goesOn hresumed) n
    obtain ⟨hkept, hend⟩ := finishPath_kept failed hpolled (finishLive_path hn)
    refine ⟨hkept, Or.inl ?_⟩
    rcases hend with ⟨rfl, hstate⟩ | ⟨rfl, hstate, hzero⟩
    · rw [hstate]
      rcases hopen with hs | hs <;> rw [hs] <;> simp [transitionTable]
    · rw [hsame, hresumed.course.totalReceived] at hzero
      rcases hopen with hcreated | hrunning
      · exact absurd (h.created hcreated) hzero
      · rw [hstate, hrunning]
        simp [transitionTable]
  · rw [finishHooked_of_not hlive] at hfinish
    cases finishInternal_call hfinish with
    | ended hended =>
      refine ⟨h, Or.inl ?_⟩
      rcases hended with hs | hs <;> rw [hs] <;> simp [transitionTable]
    | failed hfailed =>
      refine ⟨h.setError _ _, Or.inl ?_⟩
      change (_, s.lifecycle.state) ∈ _
      rw [hfailed]
      simp [transitionTable]
    | finishing hfinishing => exact absurd hfinishing h.settled
    | stalled hopen hbp =>
      have hpump : GoesOn s (pumpIncremental eng s).1 := GoesOn.pump eng (h.ongoing hopen).within
      have hstate := hpump.course.state
      refine ⟨.of_open ((h.ongoing hopen).goesOn hpump) ?_ ?_ ?_, Or.inl ?_⟩
      · unfold Stream.Open
        rw [hstate]
        exact hopen
      · intro hcreated
        exact hpump.course.totalReceived.trans (h.created (hstate.symm.trans hcreated))
      · intro hcreated _
        exact h.stalled (hstate.symm.trans hcreated) hbp
      · rw [hstate]
        rcases hopen with hs | hs <;> rw [hs] <;> simp [transitionTable]
    | pumpFailed hopen hbp =>
      have hpump : GoesOn s (pumpIncremental eng s).1 := GoesOn.pump eng (h.ongoing hopen).within
      have hruns := hpump.course.inferenceRuns.trans (h.ongoing hopen).inferenceRuns
      refine ⟨failStream_kept (hpump.history (h.ongoing hopen).midStream) hruns, ?_⟩
      rcases hopen with hcreated | hrunning
      · exact Or.inr ⟨hcreated, rfl, rfl, h.stalled hcreated hbp⟩
      · refine Or.inl ?_
        rw [hrunning]
        exact List.mem_cons_of_mem _ List.mem_cons_self
    | live hopen hresumes => exact absurd ⟨hopen, hresumes⟩ hlive

/-! ## Cancellations and resets -/

omit [Zero α] in
/-- A cancelled stream queues its CANCELLED event, whatever its queue holds. -/
lemma cancelInternal_open (h : Ongoing s) (hopen : s.Open) :
    (cancelInternal s).2 = .ok ∧ (cancelInternal s).1.lifecycle.state = .cancelled ∧
      (cancelInternal s).1.lifecycle.inferenceRuns = s.lifecycle.inferenceRuns ∧
      eventHistory (cancelInternal s).1 = eventHistory s ++ [cancelledEvent s] := by
  have hroom : ¬ ({ s.events with finalizingFlush := true } : Events).bound ≤ s.events.queue.length := by
    have hle := h.room
    simp only [Events.bound, if_true, terminalEventHeadroom]
    omega
  have hpush : ∀ l : Lifecycle,
      pushEvent { s with lifecycle := l, events := { s.events with finalizingFlush := true } }
        (cancelledEvent s) =
      (enqueueEvent { s with lifecycle := l, events := { s.events with finalizingFlush := true } }
        (cancelledEvent s), true) := fun l => if_neg hroom
  have hemitted := h.cancelledEmitted
  unfold cancelledEvent at hpush
  unfold cancelInternal
  rcases hopen with hstate | hstate
  · simp only [hstate, hemitted, hpush]
    exact ⟨trivial, rfl, rfl, (List.append_assoc _ _ _).symm⟩
  · simp only [hstate, hemitted, hpush]
    exact ⟨trivial, rfl, rfl, (List.append_assoc _ _ _).symm⟩

omit [Zero α] in
/-- A cancellation keeps the invariant, and its answer stands in the table. -/
lemma cancelInternal_kept {failed : Prop} (h : LifecycleKept failed s) :
    LifecycleKept failed (cancelInternal s).1 ∧ ((cancelInternal s).2, (cancelInternal s).1.lifecycle.state)
      ∈ transitionTable .cancel s.lifecycle.state := by
  have hopen : s.Open → LifecycleKept failed (cancelInternal s).1 ∧
      ((cancelInternal s).2, (cancelInternal s).1.lifecycle.state) =
        (Status.ok, StreamState.cancelled) := by
    intro hopen
    have hs := h.ongoing hopen
    obtain ⟨hstatus, hstate, hruns, hhistory⟩ := cancelInternal_open hs hopen
    refine ⟨⟨fun hopen => ?_, by rw [hstate]; decide, fun hcreated => ?_, fun hcreated => ?_, ?_, ?_⟩,
      by rw [hstatus, hstate]⟩
    · rcases hopen with hopen | hopen <;> exact absurd (hstate.symm.trans hopen) (by decide)
    · exact absurd (hstate.symm.trans hcreated) (by decide)
    · exact absurd (hstate.symm.trans hcreated) (by decide)
    · have hnone : (eventHistory s).countP StreamEvent.isCancelled = 0 :=
        cancelledEvents_of_midStream hs.midStream
      rw [cancelledEvents, hhistory, List.countP_append, hnone, hstate]
      rfl
    · rw [hruns, hs.inferenceRuns, hstate]
      rfl
  cases hstate : s.lifecycle.state with
  | created =>
    obtain ⟨hkept, hcell⟩ := hopen (Or.inl hstate)
    exact ⟨hkept, by rw [hcell]; exact List.mem_cons_self⟩
  | running =>
    obtain ⟨hkept, hcell⟩ := hopen (Or.inr hstate)
    exact ⟨hkept, by rw [hcell]; exact List.mem_cons_self⟩
  | finishing => exact absurd hstate h.settled
  | completed =>
    unfold cancelInternal
    simp only [hstate]
    exact ⟨h.setError _ _, by simp [setError, hstate, transitionTable]⟩
  | cancelled =>
    unfold cancelInternal
    simp only [hstate]
    exact ⟨h, List.mem_cons_self⟩
  | failed =>
    unfold cancelInternal
    simp only [hstate]
    exact ⟨h, List.mem_cons_self⟩

omit [Zero α] in
/-- A reset starts a new generation. -/
lemma resetInternal_kept {failed : Prop} (clearKv : κ → κ) (s : Stream α φ ε γ κ) :
    LifecycleKept failed (resetInternal clearKv s) := by
  have hongoing : Ongoing (resetInternal clearKv s) :=
    ⟨⟨le_rfl, nofun, fun _ => ⟨rfl, rfl⟩, nofun⟩, rfl, rfl, nofun, rfl, Nat.zero_le _⟩
  exact .of_open hongoing (Or.inl rfl) (fun _ => rfl) nofun

/-! ## Runs -/

/-- A reset forgets, and a feed that returns `backend_error` is noted. -/
def noteFeed (failed : Bool) : GuardedCall × GuardedResponse → Bool
  | (.call .reset, .status .ok) => false
  | (.call (.feed _), .status .backendError) => true
  | _ => failed

/-- Whether a feed has failed since the last reset. -/
def feedFailed (history : List (GuardedCall × GuardedResponse)) : Bool :=
  history.foldl noteFeed false

/-- The feed failure noted of a history with one call more. -/
lemma feedFailed_concat (history : List (GuardedCall × GuardedResponse))
    (entry : GuardedCall × GuardedResponse) :
    feedFailed (history ++ [entry]) = noteFeed (feedFailed history) entry := by
  rw [feedFailed, List.foldl_append]
  rfl

/-- What a caller can rely on when it has made the calls of `history`. -/
structure LifecycleSafe (eng : Engine α φ ε γ κ) (clearKv : κ → κ)
    (hook : GuardedStream α φ ε γ κ → Option (GuardedStream α φ ε γ κ))
    (history : List (GuardedCall × GuardedResponse)) (g : GuardedStream α φ ε γ κ) : Prop where
  released : g.inOperation = false
  settled : g.stream.lifecycle.state ≠ .finishing
  /-- The one CANCELLED event of a cancelled stream was queued. -/
  cancelled : cancelledEvents g.stream = if g.stream.lifecycle.state = .cancelled then 1 else 0
  runs : g.stream.lifecycle.inferenceRuns = if g.stream.lifecycle.state = .completed ∧
    g.stream.lifecycle.totalSamplesReceived ≠ 0 then 1 else 0
  moves : ∀ call g' status, guardedStep eng clearKv hook g (.call call) = some (g', .status status) →
    (status, g'.stream.lifecycle.state) ∈ transitionTable call g.stream.lifecycle.state ∨
      (call = .finish ∧ g.stream.lifecycle.state = .created ∧ status = .backendError ∧
        g'.stream.lifecycle.state = .failed ∧ feedFailed history = true)
  ended : g.stream.lifecycle.state = .completed ∨ g.stream.lifecycle.state = .cancelled →
    guardedStep eng clearKv hook g (.call .finish) = some (g, .status .ok)
  /-- A call from within the hook changes nothing, unless it polls. -/
  reentrant : ∀ g' status, guardedStep eng clearKv hook g (.call .finish) = some (g', .status status) →
    finishInternal eng g.stream = some (g'.stream, status) ∨
      ∃ n, finishLive eng (pollTimes (resumed eng g.stream) n) = some (g'.stream, status)

section Runs

variable {clearKv : κ → κ} {hook : GuardedStream α φ ε γ κ → Option (GuardedStream α φ ε γ κ)}

omit [Zero α] in
/-- The body of a call that the guard let pass. -/
lemma GuardedStream.operate_released {body : Stream α φ ε γ κ → Option (Stream α φ ε γ κ × Status)}
    {g' : GuardedStream α φ ε γ κ} {o : GuardedResponse}
    (h : GuardedStream.operate { stream := s, inOperation := false } body = some (g', o)) :
    ∃ status, body s = some (g'.stream, status) ∧ g'.inOperation = false ∧ o = .status status := by
  obtain ⟨r, hr, hresult⟩ := Option.map_eq_some_iff.mp h
  obtain ⟨rfl, rfl⟩ := Prod.mk.inj hresult
  exact ⟨r.2, hr, rfl, rfl⟩

/-- A call of a caller keeps the records in agreement and moves along the table. -/
lemma guardedStep_kept {history : List (GuardedCall × GuardedResponse)} {call : LifecycleCall}
    {g' : GuardedStream α φ ε γ κ} {o : GuardedResponse} (hhook : ActsByCalls eng clearKv hook)
    (h : LifecycleKept (feedFailed history = true) s)
    (hstep : guardedStep eng clearKv hook { stream := s, inOperation := false } (.call call) =
      some (g', o)) :
    ∃ status, o = .status status ∧ g'.inOperation = false ∧
      LifecycleKept (feedFailed (history ++ [(.call call, o)]) = true) g'.stream ∧
      ((status, g'.stream.lifecycle.state) ∈ transitionTable call s.lifecycle.state ∨
        (call = .finish ∧ s.lifecycle.state = .created ∧ status = .backendError ∧
          g'.stream.lifecycle.state = .failed ∧ feedFailed history = true)) := by
  cases call with
  | feed buf =>
    have hoperate : GuardedStream.operate { stream := s, inOperation := false }
        (fun s => feedCommon eng s buf) = some (g', o) := hstep
    obtain ⟨status, hfeed, hreleased, rfl⟩ := GuardedStream.operate_released hoperate
    refine ⟨status, rfl, hreleased, ?_⟩
    have hfailed : (feedFailed history = true ∨ status = .backendError) →
        feedFailed (history ++ [(.call (.feed buf), .status status)]) = true := by
      intro hfailed
      rw [feedFailed_concat]
      rcases hfailed with hfailed | rfl
      · cases status <;> first | exact hfailed | rfl
      · rfl
    by_cases hopen : s.Open
    · have hmove := feedCommon_move (h.ongoing hopen) hopen hfeed
      have hopen' : g'.stream.Open := by
        have hcell := hmove.cell
        unfold feedCells at hcell
        unfold Stream.Open at hopen ⊢
        split_ifs at hcell <;> simp only [List.mem_cons, Prod.mk.injEq, List.not_mem_nil, or_false] at hcell <;>
          grind
      have hback : g'.stream.lifecycle.state = .created → s.lifecycle.state = .created := by
        have hcell := hmove.cell
        unfold feedCells at hcell
        intro hcreated
        split_ifs at hcell <;> simp only [List.mem_cons, Prod.mk.injEq, List.not_mem_nil, or_false] at hcell <;>
          grind
      refine ⟨.of_open hmove.ongoing hopen' ?_ ?_, Or.inl ?_⟩
      · intro hcreated
        exact (hmove.total hcreated).trans (h.created (hback hcreated))
      · intro hcreated hbp
        apply hfailed
        exact (hmove.stalled hcreated hbp).imp_left (h.stalled (hback hcreated))
      · rcases hopen with hs | hs
        · have hcell := hmove.cell
          rw [hs] at hcell ⊢
          exact hcell
        · have hcell := hmove.cell
          rw [hs] at hcell ⊢
          exact hcell
    · have hcall := feedCommon_call hfeed
      generalize g'.stream = t at hcall
      cases hcall with
      | closed =>
        refine ⟨(h.setError _ _).mono fun hf => hfailed (Or.inl hf), Or.inl ?_⟩
        change (_, s.lifecycle.state) ∈ _
        have hsettled := h.settled
        unfold Stream.Open at hopen
        cases hs : s.lifecycle.state <;> simp_all [transitionTable]
      | stalled hs => exact absurd hs hopen
      | pumpFailed hs => exact absurd hs hopen
      | refused hs => exact absurd hs hopen
      | admitted hs => exact absurd hs.1 hopen
  | finish =>
    obtain ⟨status, hfinish, hreleased, rfl⟩ := GuardedStream.operate_released hstep
    obtain ⟨hkept, hcell⟩ := finishHooked_kept hhook h hfinish
    have hsame : feedFailed (history ++ [(.call .finish, .status status)]) = feedFailed history :=
      feedFailed_concat history _
    refine ⟨status, rfl, hreleased, ?_, hcell.imp_right fun hc => ⟨rfl, hc⟩⟩
    rw [hsame]
    exact hkept
  | cancel =>
    have hoperate : GuardedStream.operate { stream := s, inOperation := false }
        (fun s => some (cancelInternal s)) = some (g', o) := hstep
    obtain ⟨status, hcancel, hreleased, rfl⟩ := GuardedStream.operate_released hoperate
    obtain ⟨hkept, hcell⟩ := cancelInternal_kept h
    have hsame : feedFailed (history ++ [(.call .cancel, .status status)]) = feedFailed history :=
      feedFailed_concat history _
    have hresult : cancelInternal s = (g'.stream, status) := Option.some.inj hcancel
    rw [hresult] at hkept hcell
    refine ⟨status, rfl, hreleased, ?_, Or.inl hcell⟩
    rw [hsame]
    exact hkept
  | reset =>
    have hoperate : GuardedStream.operate { stream := s, inOperation := false }
        (fun s => some (resetInternal clearKv s, .ok)) = some (g', o) := hstep
    obtain ⟨status, hreset, hreleased, rfl⟩ := GuardedStream.operate_released hoperate
    obtain ⟨hs', rfl⟩ := Prod.mk.inj (Option.some.inj hreset)
    rw [← hs']
    refine ⟨.ok, rfl, hreleased, resetInternal_kept clearKv s, Or.inl ?_⟩
    have hsettled := h.settled
    change (Status.ok, StreamState.created) ∈ _
    cases hs : s.lifecycle.state <;> simp_all [transitionTable]

/-- After every run of calls and polls on a new stream the guard is released and the records agree. -/
lemma lifecycleKept_run (hhook : ActsByCalls eng clearKv hook) {maxEvents : ℕ} {device : Device ε γ κ}
    {calls : List GuardedCall} {g : GuardedStream α φ ε γ κ} {os : List GuardedResponse}
    (hrun : runSteps (guardedStep eng clearKv hook)
      { stream := Stream.create maxEvents device } calls = some (g, os)) :
    g.inOperation = false ∧ LifecycleKept (feedFailed (calls.zip os) = true) g.stream := by
  have hinv := runSteps_induction (P := fun (g : GuardedStream α φ ε γ κ) calls os =>
    os.length = calls.length ∧ g.inOperation = false ∧
      LifecycleKept (feedFailed (calls.zip os) = true) g.stream) ?_ ⟨rfl, rfl, ?_⟩ hrun
  · exact hinv.2
  · rintro ⟨s, released⟩ calls os call g' o ⟨hlength, hreleased, hkept⟩ hstep
    obtain rfl : released = false := hreleased
    have hzip : (calls ++ [call]).zip (os ++ [o]) = calls.zip os ++ [(call, o)] :=
      List.zip_append hlength.symm
    refine ⟨by rw [List.length_append, List.length_append, hlength]; rfl, ?_⟩
    rw [hzip]
    cases call with
    | call call =>
      obtain ⟨_, -, hreleased, hkept', -⟩ := guardedStep_kept hhook hkept hstep
      exact ⟨hreleased, hkept'⟩
    | poll =>
      obtain ⟨rfl, rfl⟩ := Prod.mk.inj (Option.some.inj hstep)
      refine ⟨rfl, ?_⟩
      rw [feedFailed_concat]
      exact hkept.poll
  · exact .of_open (ongoing_create maxEvents device) (Or.inl rfl) (fun _ => rfl) nofun

/-- Lifecycle safety over whole runs: whatever feeds, finishes, cancels, resets and polls a caller makes,
and whatever a finishing hook calls, the guard is released and `finishing` left behind every call; the
stream has queued one CANCELLED event exactly when it is cancelled and run one inference exactly when it
completed with audio; the next call moves it along the transition table, unless it is a finish in state
`created` that fails after a feed of the generation has failed; a finish of a completed or cancelled
stream changes nothing; and of the calls of the hook a finish notices the polls only. -/
theorem lifecycle_of_calls (eng : Engine α φ ε γ κ) (clearKv : κ → κ)
    (hook : GuardedStream α φ ε γ κ → Option (GuardedStream α φ ε γ κ))
    (hhook : ActsByCalls eng clearKv hook) (maxEvents : ℕ) (device : Device ε γ κ)
    (calls : List GuardedCall) (g : GuardedStream α φ ε γ κ) (os : List GuardedResponse)
    (hrun : runSteps (guardedStep eng clearKv hook)
      { stream := Stream.create maxEvents device } calls = some (g, os)) :
    LifecycleSafe eng clearKv hook (calls.zip os) g := by
  obtain ⟨hreleased, hkept⟩ := lifecycleKept_run hhook hrun
  obtain ⟨s, released⟩ := g
  obtain rfl : released = false := hreleased
  refine ⟨rfl, hkept.settled, hkept.cancelled, hkept.runs, ?_, ?_, ?_⟩
  · intro call g' status hstep
    obtain ⟨status', ho, -, -, hcell⟩ := guardedStep_kept hhook hkept hstep
    obtain rfl : status = status' := by injection ho
    exact hcell
  · intro hended
    change (finishHooked eng hook s).map _ = _
    have hfinish : finishHooked eng hook s = some (s, .ok) := by
      unfold finishHooked
      rcases hended with hs | hs <;> rw [hs]
    rw [hfinish]
    rfl
  · intro g' status hstep
    obtain ⟨status', hfinish, -, ho⟩ := GuardedStream.operate_released hstep
    obtain rfl : status = status' := by injection ho
    by_cases hlive : s.Open ∧ Resumes eng s
    · exact Or.inr (finishHooked_live hhook hlive.1 hlive.2 hfinish)
    · rw [finishHooked_of_not hlive] at hfinish
      exact Or.inl hfinish

/-- A hook that calls feed, cancel, reset and finish on the stream it is given. -/
def reentryHook (g : GuardedStream α φ ε γ κ) : Option (GuardedStream α φ ε γ κ) :=
  if g.inOperation then some g else none

/-- The hook that calls the stream again acts by calls. -/
lemma reentryHook_acts (eng : Engine α φ ε γ κ) (clearKv : κ → κ) :
    ActsByCalls eng clearKv reentryHook := by
  intro g g' hhook
  obtain ⟨s, engaged⟩ := g
  cases engaged with
  | false => exact absurd hhook nofun
  | true =>
    obtain rfl := Option.some.inj hhook
    exact ⟨[.call (.feed (.data [1])), .call .cancel, .call .reset, .call .finish], _, rfl⟩

end Runs

end Voxtral
