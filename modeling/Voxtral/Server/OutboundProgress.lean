import Voxtral.Server.OutboundRuns

/-!
# The outbound side drains

With nothing new to send, the steps left to the two threads and the socket are bounded, and after the last of
them the queue is empty, no worker waits, and a requested close has happened.  Only the stop of the
`io_context` breaks this: a worker that waits then waits for ever.
-/

namespace Voxtral

namespace OutboundLoop

open Outbound

variable {π : Type*} {size : π → ℕ} {s s' : OutboundLoop π} {event : OutboundEvent π}

/-! ## The steps that are left -/

/-- A step of work in hand: nothing new is sent or received. -/
def pending : LoopEvent π → Bool
  | .worker .round | .worker .post | .goOn => true
  | .io .maybeWrite | .io (.onWrite _) | .io .closed => true
  | _ => false

/-- No work is in hand. -/
def Settled (size : π → ℕ) (s : OutboundLoop π) : Prop :=
  ∀ e : LoopEvent π, pending e = true → s.loopStep size e = none

/-- The steps a worker still costs. -/
def workerEffort : WorkerAt π → ℕ
  | .absent | .running => 0
  | .entering _ => 11
  | .waiting _ => 10
  | .posting => 7

/-- The steps the handler of the IO thread still costs. -/
def ioEffort : IoAt π → ℕ
  | .free => 0
  | .enqueueFromIo _ _ => 17
  | .requestCloseAfterDrain => 7
  | .maybeWrite => 5
  | .closeTransport => 4
  | .finishSession => 2

/-- A bound for the steps of the work in hand. -/
def effort (s : OutboundLoop π) : ℕ :=
  3 * s.queue.outbound.length + (if s.queue.writeInProgress then 7 else 0) + 6 * s.posted +
    (if s.closePending then 3 else 0) + workerEffort s.worker + ioEffort s.io

/-- Waking a worker costs one more round. -/
lemma workerEffort_notifyAll (s : OutboundLoop π) :
    workerEffort s.notifyAll.worker ≤ workerEffort s.worker + 1 := by
  unfold notifyAll
  split
  · next hw => simp [hw, workerEffort]
  · simp

/-- The work a woken worker makes. -/
lemma effort_notifyAll (s : OutboundLoop π) : s.notifyAll.effort ≤ s.effort + 1 := by
  have hworker := workerEffort_notifyAll s
  simp only [effort, notifyAll_queue, notifyAll_posted, notifyAll_closePending, notifyAll_io]
  omega

variable (size) in
/-- A finished session has nothing queued. -/
lemma length_finishSession (q : Outbound π) :
    (q.finishSession size).outbound.length ≤ q.outbound.length ∧
      (q.finishSession size).writeInProgress = q.writeInProgress := by
  unfold Outbound.finishSession
  split
  · exact ⟨le_rfl, rfl⟩
  · simp

variable (size) in
/-- Nor does `close_transport` put anything into the queue. -/
lemma length_closeTransport (q : Outbound π) (read : Bool) :
    (q.closeTransport size read).outbound.length ≤ q.outbound.length ∧
      (q.closeTransport size read).writeInProgress = q.writeInProgress := by
  unfold Outbound.closeTransport
  split
  · exact ⟨le_rfl, rfl⟩
  · split
    · exact length_finishSession size _
    · exact ⟨le_rfl, rfl⟩

/-- The work in hand of the worker gets less. -/
lemma workerStep_effort {e : WorkerEvent π} (hpending : pending (.worker e) = true)
    (hstep : s.workerStep size e = some (s', event)) : s'.effort < s.effort := by
  unfold workerStep at hstep
  split at hstep
  · cases hpending
  · cases hpending
  · cases hpending
  · next message hw =>
    cases hstep
    obtain ⟨⟨queue, answer⟩, hanswer⟩ : ∃ x, s.queue.enqueueFromWorker size message = x := ⟨_, rfl⟩
    simp only [hanswer]
    rcases enqueueFromWorker_effect hanswer with ⟨rfl, hflags, -, hlength⟩ | ⟨rfl | rfl, rfl⟩
    · simp only [effort, hw, workerAfter, workerEffort, hflags.writeInProgress]
      omega
    · simp only [effort, hw, workerAfter, workerEffort]
      omega
    · simp only [effort, hw, workerAfter, workerEffort]
      omega
  · cases hpending
  · next hw =>
    cases hstep
    simp only [effort, hw, workerEffort]
    omega
  · cases hstep

/-- Starting a handler makes the work in hand less. -/
lemma ioStart_effort (hfree : s.io = .free) {e : IoEvent π} (hpending : pending (.io e) = true)
    (hstep : s.ioStart size e = some s') : s'.effort < s.effort := by
  cases e with
  | maybeWrite =>
    simp only [ioStart] at hstep
    split at hstep
    · cases hstep
    · cases hstep
      simp only [effort, hfree, ioEffort]
      omega
  | onWrite failed =>
    simp only [ioStart] at hstep
    split at hstep
    · next hwriting =>
      have hworker := workerEffort_notifyAll { s with queue := s.queue.onWrite size }
      dsimp only at hworker
      split at hstep
      · cases hstep
        simp only [effort, request, notifyAll_queue, notifyAll_posted, notifyAll_closePending, onWrite,
          hwriting, hfree, ioEffort, if_true, Bool.false_eq_true, if_false] at hworker ⊢
        omega
      · cases hstep
        simp only [effort, notifyAll_queue, notifyAll_posted, notifyAll_closePending, onWrite, hwriting,
          hfree, ioEffort, if_true, Bool.false_eq_true, if_false] at hworker ⊢
        omega
    · cases hstep
  | closed =>
    simp only [ioStart] at hstep
    split at hstep
    · next hclosing =>
      cases hstep
      simp only [effort, hclosing, hfree, ioEffort, if_true, Bool.false_eq_true, if_false]
      omega
    · cases hstep
  | _ => cases hpending

/-- Going on with a handler makes the work in hand less. -/
lemma goOn_effort (hstep : s.goOn size = some (s', event)) : s'.effort < s.effort := by
  unfold goOn at hstep
  split at hstep
  · cases hstep
  · next caller message hio =>
    cases hstep
    obtain ⟨⟨queue, answer⟩, hanswer⟩ : ∃ x, s.queue.enqueueFromIo size message = x := ⟨_, rfl⟩
    have hafter : ∀ b, ioEffort (ioAfter caller b : IoAt π) ≤ 7 := by
      intro b
      cases caller <;> cases b <;> simp [ioAfter, ioEffort]
    simp only [hanswer]
    obtain ⟨hflags, ⟨rfl, -, hlength⟩ | ⟨rfl, hlength⟩⟩ := enqueueFromIo_effect hanswer
    · have hnext := hafter true
      simp only [effort, hio, hflags.writeInProgress, taken, ioEffort, if_true] at hnext ⊢
      omega
    · have hnext := hafter false
      simp only [effort, hio, hflags.writeInProgress, taken, ioEffort, Bool.false_eq_true,
        if_false] at hnext ⊢
      omega
  · next hio =>
    cases hstep
    simp only [effort, hio, ioEffort]
    omega
  · next hio =>
    cases hstep
    cases hcloses : closesNow s.queue with
    | true =>
      have hsame : s.queue.maybeWrite.1 = s.queue := by
        simp only [closesNow, decide_eq_true_eq] at hcloses
        have hempty : s.queue.outbound = [] := by simpa using hcloses.2.2.1
        simp [maybeWrite, hempty]
      simp only [effort, hsame, hio, ioEffort, if_true]
      omega
    | false =>
      simp only [effort, hio, ioEffort, Bool.false_eq_true, if_false, maybeWrite]
      split
      · simp only
        omega
      · next hgo =>
        simp only [not_or, Bool.not_eq_true] at hgo
        split
        · simp only
          omega
        · next front rest hqueue =>
          simp only [hqueue, hgo.2, List.length_cons, Bool.false_eq_true, if_false, if_true]
          omega
  · next hio =>
    cases hstep
    obtain ⟨hlength, hwriting⟩ := length_closeTransport size s.queue s.readInProgress
    split
    · next hends =>
      -- the session is finished: there is no close handshake to wait for
      have hfinished : effort { s with queue := s.queue.closeTransport size s.readInProgress, io := .free } +
          4 ≤ s.effort := by
        simp only [effort, hwriting, hio, ioEffort]
        omega
      have hwoken := effort_notifyAll
        { s with queue := s.queue.closeTransport size s.readInProgress, io := .free }
      simp only [hends.2, Bool.not_true, Bool.and_false, Bool.or_false] at hfinished hwoken ⊢
      omega
    · simp only [effort, hwriting, hio, ioEffort]
      split <;> split <;> omega
  · next hio =>
    cases hstep
    obtain ⟨hlength, hwriting⟩ := length_finishSession size s.queue
    have hfinished : effort { s with queue := s.queue.finishSession size, io := .free } + 2 ≤ s.effort := by
      simp only [effort, hwriting, hio, ioEffort]
      omega
    split
    · omega
    · have hwoken := effort_notifyAll { s with queue := s.queue.finishSession size, io := .free }
      omega

/-- Every step of the work in hand makes it less. -/
lemma loopStep_effort {e : LoopEvent π} (hpending : pending e = true)
    (hstep : s.loopStep size e = some (s', event)) : s'.effort < s.effort := by
  cases e with
  | worker e => exact workerStep_effort hpending hstep
  | io e =>
    simp only [loopStep] at hstep
    split at hstep
    · next hfree =>
      obtain ⟨t, ht, heq⟩ := Option.map_eq_some_iff.mp hstep
      cases heq
      exact ioStart_effort hfree hpending ht
    · cases hstep
  | goOn =>
    simp only [loopStep] at hstep
    split at hstep
    · cases hstep
    · exact goOn_effort hstep
  | stop => cases hpending

/-- Where no work is in hand, nobody attends to the queue any more, and no close handshake is under way. -/
lemma Settled.idle (h : Settled size s) (hrunning : s.stopped = false) :
    ¬ s.Attended ∧ s.io = .free ∧ s.closePending = false := by
  have hio : s.io = .free := by
    have hgo := h .goOn rfl
    simp only [loopStep, hrunning, Bool.false_eq_true, if_false] at hgo
    unfold goOn at hgo
    split at hgo
    · assumption
    all_goals cases hgo
  have hstart : ∀ e : IoEvent π, pending (.io e) = true → s.ioStart size e = none := by
    intro e he
    have hnone := h (.io e) he
    simpa [loopStep, hrunning, hio] using hnone
  refine ⟨?_, hio, ?_⟩
  · rintro (hwriting | hposted | hposting | hhandler)
    · have hnone := hstart (.onWrite false) rfl
      simp [ioStart, hwriting] at hnone
    · have hnone := hstart .maybeWrite rfl
      simp only [ioStart, ite_eq_left_iff, reduceCtorEq, imp_false, not_not] at hnone
      omega
    · have hnone := h (.worker .post) rfl
      simp [loopStep, workerStep, hposting] at hnone
    · simp [hio] at hhandler
  · have hnone := hstart .closed rfl
    simpa [ioStart] using hnone

/-- Where no work is in hand, an open session is not to be closed. -/
lemma Settled.not_closing (h : Settled size s) (hmoving : Moving size s) (hrunning : s.stopped = false)
    (hopen : s.queue.closed = false) (hclose : s.queue.closeAfterDrain = true) : False := by
  obtain ⟨hattended, hio, hpending⟩ := h.idle hrunning
  rcases hmoving.closing hopen hclose with ha | ha | ha
  · exact hattended ha
  · simp [hio] at ha
  · simp [hpending] at ha

/-! ## The worker after the stop -/

/-- The worker is in the wait of `enqueue_from_worker`, or about to look at the queue again, and the queue has
no room. -/
def Blocked (size : π → ℕ) (message : OutboundMessage π) (s : OutboundLoop π) : Prop :=
  s.stopped = true ∧ (s.queue.enqueueFromWorker size message).2 = .waits ∧
    (s.worker = .waiting message ∨ s.worker = .entering message)

/-- No step after the stop of the `io_context` lets a blocked worker go. -/
lemma loopStep_blocked {message : OutboundMessage π} (h : Blocked size message s) {e : LoopEvent π}
    (hstep : s.loopStep size e = some (s', event)) : Blocked size message s' := by
  obtain ⟨hstopped, hfull, hworker⟩ := h
  cases e with
  | worker e =>
    simp only [loopStep] at hstep
    unfold workerStep at hstep
    split at hstep
    · simp_all
    · simp_all
    · simp_all
    · next m hw =>
      cases hstep
      have hm : m = message := by simpa [hw] using hworker
      subst hm
      obtain ⟨⟨queue, answer⟩, hanswer⟩ : ∃ x, s.queue.enqueueFromWorker size m = x := ⟨_, rfl⟩
      rw [hanswer] at hfull
      simp only at hfull
      subst hfull
      obtain rfl : queue = s.queue := by simpa using enqueueFromWorker_effect hanswer
      exact ⟨hstopped, by rw [hanswer, hanswer], .inl (by rw [hanswer]; rfl)⟩
    · next m hw =>
      cases hstep
      have hm : m = message := by simpa [hw] using hworker
      subst hm
      exact ⟨hstopped, hfull, .inr rfl⟩
    · simp_all
    · cases hstep
  | io e =>
    simp [loopStep, hstopped] at hstep
  | goOn =>
    simp [loopStep, hstopped] at hstep
  | stop =>
    simp only [loopStep] at hstep
    split at hstep
    · cases hstep
      exact ⟨rfl, hfull, hworker⟩
    · cases hstep

/-! ## The theorem -/

/-- What holds of a session after steps that did `events`. -/
structure Progress (size : π → ℕ) (events : List (OutboundEvent π)) (s : OutboundLoop π) : Prop where
  /-- The work in hand is bounded, whatever the order in which it is done. -/
  bounded : ∀ calls t os, (∀ e ∈ calls, pending e = true) →
    runSteps (loopStep size) s calls = some (t, os) → calls.length ≤ s.effort
  /-- When it is done, no worker waits, a requested close has been made, and while the session is open every
  token and mandatory message that was accepted has been written. -/
  settled : s.stopped = false → Settled size s →
    (∀ message, s.worker ≠ .waiting message) ∧
      (s.queue.closeAfterDrain = true → s.queue.closed = true) ∧
      (s.queue.closed = false → s.queue.outbound = [] ∧
        events.flatMap acceptedKept = events.flatMap writtenKept)
  /-- A requested close goes on only when all of them have been handed to the socket. -/
  closes : ∀ s' event, s.io = .maybeWrite → s.goOn size = some (s', event) → s'.io = .closeTransport →
    events.flatMap acceptedKept = events.flatMap writtenKept
  /-- A worker that waits for room when the `io_context` is stopped never gets on. -/
  stuck : ∀ message, Blocked size message s → ∀ calls t os,
    runSteps (loopStep size) s calls = some (t, os) → Blocked size message t

/-- **The outbound side drains.**  After any steps of the worker, the IO thread and the socket the work left
is bounded, and when it is done the queue is empty or the session is finished, no worker waits, and a
requested close has been made, after everything accepted was written.  But a worker that waits for room when
the `io_context` is stopped waits in every run. -/
theorem outbound_drains (size : π → ℕ) {calls : List (LoopEvent π)} {events : List (OutboundEvent π)}
    {s : OutboundLoop π} (hrun : runSteps (loopStep size) ({} : OutboundLoop π) calls = some (s, events)) :
    Progress size events s := by
  have hinv : Moving size s ∧ ∃ dropped, events.flatMap acceptedKept =
      events.flatMap writtenKept ++ s.queue.keptQueue ++ dropped ∧
        (s.queue.outboundClosed = false → dropped = []) := by
    refine runSteps_induction (P := fun s _ events => Moving size s ∧ ∃ dropped,
      events.flatMap acceptedKept = events.flatMap writtenKept ++ s.queue.keptQueue ++ dropped ∧
        (s.queue.outboundClosed = false → dropped = [])) ?_ ?_ hrun
    · rintro s calls events call s' event ⟨hmoving, horder⟩ hstep
      have hkept := loopStep_kept hmoving.accounted hstep
      exact ⟨loopStep_moving hmoving hstep, hkept.order hmoving.accounted horder⟩
    · exact ⟨.start, [], rfl, fun _ => rfl⟩
  obtain ⟨hmoving, dropped, horder, hdropped⟩ := hinv
  have hwritten : s.queue.closed = false → s.queue.outbound = [] →
      events.flatMap acceptedKept = events.flatMap writtenKept := by
    intro hopen hempty
    rw [horder, hdropped (hmoving.accounted.closing.trans hopen)]
    simp [keptQueue, hempty]
  refine ⟨fun calls t os hpending hcalls => ?_, fun hrunning hsettled => ⟨fun message hw => ?_, ?_, ?_⟩,
    fun s' event hio hgo hcloses => ?_, fun message hblocked calls t os hcalls => ?_⟩
  · have hlength := runSteps_length_le (fun _ _ _ _ hp => loopStep_effort hp) hpending hcalls
    omega
  · obtain ⟨hattended, hio, -⟩ := hsettled.idle hrunning
    obtain ⟨hopen, hwhy⟩ := hmoving.waiting message hw
    -- every reason to wait is a reason for somebody to act
    have hclose : s.queue.closeAfterDrain = true := by
      rcases hwhy with hne | hwriting | hclose | hhandler
      · exact absurd (hmoving.queued hopen hne) hattended
      · exact absurd (.inl hwriting) hattended
      · exact hclose
      · simp [hio] at hhandler
    exact hsettled.not_closing hmoving hrunning hopen hclose
  · intro hclose
    by_contra hopen
    exact hsettled.not_closing hmoving hrunning (Bool.eq_false_iff.mpr hopen) hclose
  · intro hopen
    have hempty : s.queue.outbound = [] := by
      by_contra hne
      exact (hsettled.idle hrunning).1 (hmoving.queued hopen hne)
    exact ⟨hempty, hwritten hopen hempty⟩
  · have hnow : closesNow s.queue = true := by
      simp only [goOn, hio] at hgo
      cases hgo
      by_contra hno
      simp [hno] at hcloses
    simp only [closesNow, decide_eq_true_eq, Bool.not_eq_true, List.isEmpty_iff] at hnow
    exact hwritten hnow.1 hnow.2.2.1
  · exact runSteps_induction (P := fun t _ _ => Blocked size message t)
      (fun _ _ _ _ _ _ hb hstep => loopStep_blocked hb hstep) hblocked hcalls

/-- A first message of 4 MiB is being written, a second waits for room, and the `io_context` is stopped. -/
theorem outbound_drains_stopped : ∃ (s : OutboundLoop ℕ) (events : List (OutboundEvent ℕ)),
    Blocked id ⟨1, .token⟩ s ∧ s.queue.writeInProgress = true ∧ Progress id events s := by
  refine ⟨_, _, ?_, ?_, outbound_drains id (show runSteps (loopStep id) {}
    [.io (.startInferenceWorker {}), .worker (.enqueueFromWorker ⟨4 * 1024 * 1024, .token⟩),
      .worker .round, .worker .post, .io .maybeWrite, .goOn, .worker (.enqueueFromWorker ⟨1, .token⟩),
      .worker .round, .io (.initiateShutdown ⟨2, .mandatory⟩), .goOn, .goOn, .worker .round,
      .stop] = some (_, _) from rfl)⟩
  · exact ⟨rfl, rfl, .inl rfl⟩
  · rfl

end OutboundLoop

end Voxtral
