import Voxtral.Server.OutboundLoop

/-!
# Nobody at the outbound queue is forgotten

A queue that holds something is written, a requested close is made, and a waiting worker is woken: whatever
the order of the steps, somebody is left who will do it.  `Moving` says who, and every step of the two
threads and of the socket keeps it.
-/

namespace Voxtral

namespace Outbound

variable {π : Type*} {size : π → ℕ} {s s' : Outbound π} {event : OutboundEvent π}

/-- The cancellation token is no part of what a critical section keeps. -/
lemma KeptStep.cancellation (h : KeptStep size s s' event) (token : Option Cancellation) :
    KeptStep size s { s' with cancellation := token } event :=
  ⟨h.accounted.cancellation token, h.closed, h.moved⟩

/-- A critical section keeps the order: what was accepted is what was written and what is queued, but for
what closing dropped. -/
lemma KeptStep.order (h : KeptStep size s s' event) (haccounted : Accounted size s)
    {events : List (OutboundEvent π)}
    (horder : ∃ dropped, events.flatMap acceptedKept =
      events.flatMap writtenKept ++ s.keptQueue ++ dropped ∧ (s.outboundClosed = false → dropped = [])) :
    ∃ dropped, (events ++ [event]).flatMap acceptedKept =
      (events ++ [event]).flatMap writtenKept ++ s'.keptQueue ++ dropped ∧
        (s'.outboundClosed = false → dropped = []) := by
  obtain ⟨dropped, horder, hdropped⟩ := horder
  obtain ⟨haccounted', hclosed, dropped', hmoved, hdropped'⟩ := h
  rw [List.flatMap_append, List.flatMap_append, List.flatMap_singleton, List.flatMap_singleton]
  cases hc : s.outboundClosed with
  | true =>
    -- nothing moves any more
    obtain ⟨hc', ha, hw⟩ := hclosed hc
    have hempty : s.keptQueue = [] := by
      simp [keptQueue, haccounted.drained (haccounted.closing.symm.trans hc)]
    have hempty' : s'.keptQueue = [] := by
      simp [keptQueue, haccounted'.drained (haccounted'.closing.symm.trans hc')]
    refine ⟨dropped, ?_, fun hopen => ?_⟩
    · rw [ha, hw, hempty', horder, hempty]
      simp
    · rw [hc'] at hopen
      cases hopen
  | false =>
    refine ⟨dropped', ?_, hdropped'⟩
    rw [horder, hdropped hc, List.append_nil, List.append_assoc, hmoved]
    simp

/-- A queue that is left alone. -/
lemma KeptStep.refl (h : Accounted size s) : KeptStep size s s .quiet := .of_quiet h rfl rfl

end Outbound

namespace OutboundLoop

open Outbound

variable {π : Type*} {size : π → ℕ} {s s' : OutboundLoop π} {event : OutboundEvent π}

/-! ## The queue through the steps -/

/-- A step of the worker keeps the account and the order of the messages. -/
lemma workerStep_kept (h : Accounted size s.queue) {e : WorkerEvent π}
    (hstep : s.workerStep size e = some (s', event)) : KeptStep size s.queue s'.queue event := by
  unfold workerStep at hstep
  split at hstep
  · cases hstep
    exact .refl h
  · cases hstep
    exact .of_quiet h.closeAfterDrain rfl rfl
  · cases hstep
    exact (KeptStep.refl h).cancellation _
  · next message _ =>
    cases hstep
    exact outboundStep_kept h
      (show outboundStep size s.queue (.enqueueFromWorker message) = some _ from rfl)
  · cases hstep
    exact .refl h
  · cases hstep
    exact .refl h
  · cases hstep

/-- So does the first step of a handler. -/
lemma ioStart_kept (h : Accounted size s.queue) {e : IoEvent π} (hstep : s.ioStart size e = some s') :
    KeptStep size s.queue s'.queue .quiet := by
  cases e with
  | startInferenceWorker token =>
    simp only [ioStart] at hstep
    split at hstep
    · cases hstep
      exact (KeptStep.refl h).cancellation _
    · cases hstep
  | acceptFailed =>
    cases hstep
    exact .refl h
  | readNext =>
    simp only [ioStart] at hstep
    split at hstep
    · cases hstep
    · cases hstep
      exact .refl h
  | onRead outcome =>
    simp only [ioStart] at hstep
    split at hstep
    · cases outcome with
      | message =>
        cases hstep
        exact .refl h
      | disconnected =>
        cases hstep
        exact (KeptStep.refl h).cancellation _
      | aborted =>
        cases hstep
        exact .refl h
    · cases hstep
  | reply message =>
    cases hstep
    exact .refl h
  | cancel =>
    cases hstep
    rw [notifyAll_queue]
    exact (KeptStep.refl h).cancellation _
  | protocolFailure message reason =>
    simp only [ioStart] at hstep
    split at hstep
    · cases hstep
      exact .refl h
    · cases hstep
      rw [notifyAll_queue]
      exact (KeptStep.refl h).cancellation _
  | initiateShutdown message =>
    simp only [ioStart] at hstep
    split at hstep
    · cases hstep
      exact .refl h
    · cases hstep
      rw [notifyAll_queue]
      exact (KeptStep.refl h).cancellation _
  | maybeWrite =>
    simp only [ioStart] at hstep
    split at hstep
    · cases hstep
    · cases hstep
      exact .refl h
  | onWrite failed =>
    simp only [ioStart] at hstep
    split at hstep
    · next hwriting =>
      have hkept : KeptStep size s.queue (s.queue.onWrite size) .quiet :=
        .of_quiet (h.onWrite hwriting) rfl rfl
      split at hstep
      · cases hstep
        simp only [request, notifyAll_queue]
        exact hkept.cancellation _
      · cases hstep
        rw [notifyAll_queue]
        exact hkept
    · cases hstep
  | closed =>
    simp only [ioStart] at hstep
    split at hstep
    · cases hstep
      exact .refl h
    · cases hstep

/-- So does the next call of a handler. -/
lemma goOn_kept (h : Accounted size s.queue) (hstep : s.goOn size = some (s', event)) :
    KeptStep size s.queue s'.queue event := by
  unfold goOn at hstep
  split at hstep
  · cases hstep
  · next message _ =>
    cases hstep
    exact outboundStep_kept h (show outboundStep size s.queue (.enqueueFromIo message) = some _ from rfl)
  · cases hstep
    exact .of_quiet h.closeAfterDrain rfl rfl
  · cases hstep
    exact outboundStep_kept h (show outboundStep size s.queue .maybeWrite = some _ from rfl)
  · cases hstep
    have hkept := outboundStep_kept h
      (show outboundStep size s.queue (.closeTransport s.readInProgress) = some _ from rfl)
    split
    · rw [notifyAll_queue]
      exact hkept
    · exact hkept
  · cases hstep
    have hkept := KeptStep.finishSession h
    split
    · exact hkept
    · rw [notifyAll_queue]
      exact hkept

/-- Every step of the session keeps the account and the order of the messages. -/
lemma loopStep_kept (h : Accounted size s.queue) {e : LoopEvent π}
    (hstep : s.loopStep size e = some (s', event)) : KeptStep size s.queue s'.queue event := by
  cases e with
  | worker e => exact workerStep_kept h hstep
  | io e =>
    simp only [loopStep] at hstep
    split at hstep
    · obtain ⟨t, ht, heq⟩ := Option.map_eq_some_iff.mp hstep
      cases heq
      exact ioStart_kept h ht
    · cases hstep
  | goOn =>
    simp only [loopStep] at hstep
    split at hstep
    · cases hstep
    · exact goOn_kept h hstep
  | stop =>
    simp only [loopStep] at hstep
    split at hstep
    · cases hstep
      exact .refl h
    · cases hstep

/-! ## Nobody is forgotten -/

/-- Somebody will look at the queue. -/
def Attended (s : OutboundLoop π) : Prop :=
  s.queue.writeInProgress = true ∨ 0 < s.posted ∨ s.worker = .posting ∨ s.io = .maybeWrite ∨
    s.io = .requestCloseAfterDrain ∨ s.io = .finishSession

/-- What is queued is attended to, a requested close is under way, and a worker waits for something that
will happen. -/
structure Moving (size : π → ℕ) (s : OutboundLoop π) : Prop where
  accounted : Accounted size s.queue
  queued : s.queue.closed = false → s.queue.outbound ≠ [] → s.Attended
  closing : s.queue.closed = false → s.queue.closeAfterDrain = true →
    s.Attended ∨ s.io = .closeTransport ∨ s.closePending = true
  started : s.queue.closed = false → s.queue.closeStarted = true →
    s.closePending = true ∨ s.io = .finishSession
  waiting : ∀ message, s.worker = .waiting message → s.queue.closed = false ∧
    (s.queue.outbound ≠ [] ∨ s.queue.writeInProgress = true ∨ s.queue.closeAfterDrain = true ∨
      s.io = .requestCloseAfterDrain ∨ s.io = .finishSession)

/-- A new session has nothing to do. -/
lemma Moving.start : Moving size ({} : OutboundLoop π) := by
  refine ⟨⟨rfl, Nat.zero_le _, Nat.zero_le _, rfl, rfl, fun _ => rfl⟩, ?_, ?_, ?_, ?_⟩
  · exact fun _ hne => absurd rfl hne
  · intro _ hclose
    cases hclose
  · intro _ hstarted
    cases hstarted
  · intro message hw
    cases hw

/-- A step that leaves the queue alone, takes nothing posted away, and puts the worker to sleep only where
the queue is open and busy. -/
lemma Moving.of_same (h : Moving size s) (token : Option Cancellation)
    (hqueue : s'.queue = { s.queue with cancellation := token }) (hposted : s.posted ≤ s'.posted)
    (hpending : s'.closePending = s.closePending) (hio : s.io = .free ∨ s'.io = s.io)
    (hposting : s.worker = .posting → s'.worker = .posting ∨ 0 < s'.posted)
    (hwaiting : ∀ message, s'.worker = .waiting message → s.worker = .waiting message ∨
      s.queue.closed = false ∧ (s.queue.outbound ≠ [] ∨ s.queue.writeInProgress = true)) :
    Moving size s' := by
  have hattended : s.Attended → s'.Attended := by
    intro ha
    unfold Attended at ha ⊢
    rw [hqueue]
    rcases ha with ha | ha | ha | ha
    · exact .inl ha
    · exact .inr (.inl (by omega))
    · rcases hposting ha with hp | hp
      · exact .inr (.inr (.inl hp))
      · exact .inr (.inl hp)
    · rcases hio with hfree | hsame
      · simp [hfree] at ha
      · rw [hsame]
        exact .inr (.inr (.inr ha))
  have hkeeps : ∀ x : IoAt π, x ≠ .free → s.io = x → s'.io = x := by
    intro x hx hsx
    rcases hio with hfree | hsame
    · exact absurd (hsx.symm.trans hfree) hx
    · exact hsame.trans hsx
  refine ⟨hqueue ▸ h.accounted.cancellation token, ?_, ?_, ?_, ?_⟩
  · rw [hqueue]
    intro hopen hne
    exact hattended (h.queued hopen hne)
  · rw [hqueue, hpending]
    intro hopen hclose
    rcases h.closing hopen hclose with ha | ha | ha
    · exact .inl (hattended ha)
    · exact .inr (.inl (hkeeps _ (by simp) ha))
    · exact .inr (.inr ha)
  · rw [hqueue, hpending]
    intro hopen hstarted
    exact (h.started hopen hstarted).imp_right (hkeeps _ (by simp))
  · rw [hqueue]
    intro message hw
    rcases hwaiting message hw with hw | ⟨hopen, hbusy⟩
    · obtain ⟨hopen, hwhy⟩ := h.waiting message hw
      refine ⟨hopen, ?_⟩
      rcases hwhy with hwhy | hwhy | hwhy | hwhy | hwhy
      · exact .inl hwhy
      · exact .inr (.inl hwhy)
      · exact .inr (.inr (.inl hwhy))
      · exact .inr (.inr (.inr (.inl (hkeeps _ (by simp) hwhy))))
      · exact .inr (.inr (.inr (.inr (hkeeps _ (by simp) hwhy))))
    · refine ⟨hopen, ?_⟩
      rcases hbusy with hne | hwriting
      · exact .inl hne
      · exact .inr (.inl hwriting)

/-- A worker that posts is not asleep. -/
lemma Attended.of_posting (h : s.worker = .posting) : s.Attended := .inr (.inr (.inl h))

/-- Notifying forgets nobody. -/
lemma Moving.notifyAll (h : Moving size s) : Moving size s.notifyAll := by
  apply h.of_same s.queue.cancellation
  · simp
  · simp
  · simp
  · exact .inr (notifyAll_io s)
  · exact fun hp => .inl (notifyAll_posting s hp)
  · exact fun message hw => absurd hw (notifyAll_worker_ne s message)

/-- Nor does a requested cancellation. -/
lemma Moving.request (h : Moving size s) (reason : CancelReason) : Moving size (s.request reason) :=
  h.of_same _ rfl le_rfl rfl (.inr rfl) .inl fun _ => .inl

/-- The IO thread enters a handler. -/
lemma Moving.enter (h : Moving size s) (hfree : s.io = .free) (read : Bool) (io : IoAt π) :
    Moving size { s with readInProgress := read, io := io } :=
  h.of_same s.queue.cancellation rfl le_rfl rfl (.inl hfree) .inl fun _ => .inl

/-- A step of the worker forgets nobody. -/
lemma workerStep_moving (h : Moving size s) {e : WorkerEvent π}
    (hstep : s.workerStep size e = some (s', event)) : Moving size s' := by
  have hkept := workerStep_kept h.accounted hstep
  unfold workerStep at hstep
  split at hstep
  · next message hw =>
    cases hstep
    exact h.of_same _ rfl le_rfl rfl (.inr rfl) (by simp [hw]) (by simp)
  · next hw =>
    cases hstep
    refine ⟨hkept.accounted, fun _ _ => .of_posting rfl, fun _ _ => .inl (.of_posting rfl), h.started, ?_⟩
    simp
  · cases hstep
    exact h.request _
  · next message hw =>
    cases hstep
    obtain ⟨⟨queue, answer⟩, hanswer⟩ : ∃ x, s.queue.enqueueFromWorker size message = x := ⟨_, rfl⟩
    simp only [hanswer] at hkept ⊢
    rcases enqueueFromWorker_effect hanswer with ⟨rfl, hflags, hne, -⟩ | ⟨rfl | rfl, rfl⟩
    · refine ⟨hkept.accounted, fun _ _ => .of_posting rfl, fun _ _ => .inl (.of_posting rfl), ?_, ?_⟩
      · rw [hflags.closed, hflags.closeStarted]
        exact h.started
      · simp [workerAfter]
    · exact h.of_same _ rfl le_rfl rfl (.inr rfl) (by simp [hw]) (by simp [workerAfter])
    · have hwaits := h.accounted.of_waits hanswer
      exact h.of_same _ rfl le_rfl rfl (.inr rfl) (by simp [hw]) fun _ _ => .inr hwaits
  · next message hw =>
    cases hstep
    exact h.of_same _ rfl le_rfl rfl (.inr rfl) (by simp [hw]) (by simp)
  · next hw =>
    cases hstep
    exact h.of_same _ rfl (by simp) rfl (.inr rfl) (by simp) (by simp)
  · cases hstep

/-- The first step of a handler forgets nobody. -/
lemma ioStart_moving (h : Moving size s) (hfree : s.io = .free) {e : IoEvent π}
    (hstep : s.ioStart size e = some s') : Moving size s' := by
  have hkept := ioStart_kept h.accounted hstep
  cases e with
  | startInferenceWorker token =>
    simp only [ioStart] at hstep
    split at hstep
    · next hw =>
      cases hstep
      exact h.of_same _ rfl le_rfl rfl (.inr rfl) (by simp [hw]) (by simp)
    · cases hstep
  | acceptFailed =>
    cases hstep
    exact h.enter hfree s.readInProgress _
  | readNext =>
    simp only [ioStart] at hstep
    split at hstep
    · cases hstep
    · cases hstep
      exact h.of_same s.queue.cancellation rfl le_rfl rfl (.inr rfl) .inl fun _ => .inl
  | onRead outcome =>
    simp only [ioStart] at hstep
    split at hstep
    · cases outcome with
      | message =>
        cases hstep
        exact h.of_same s.queue.cancellation rfl le_rfl rfl (.inr rfl) .inl fun _ => .inl
      | disconnected =>
        cases hstep
        exact (h.request .disconnect).enter hfree false _
      | aborted =>
        cases hstep
        exact h.enter hfree false _
    · cases hstep
  | reply message =>
    cases hstep
    exact h.enter hfree s.readInProgress _
  | cancel =>
    cases hstep
    exact (h.request _).notifyAll
  | protocolFailure message reason =>
    simp only [ioStart] at hstep
    split at hstep
    · cases hstep
      exact h
    · cases hstep
      exact (h.request _).notifyAll.enter ((notifyAll_io _).trans hfree) _ _
  | initiateShutdown message =>
    simp only [ioStart] at hstep
    split at hstep
    · cases hstep
      exact h
    · cases hstep
      exact (h.request _).notifyAll.enter ((notifyAll_io _).trans hfree) _ _
  | maybeWrite =>
    simp only [ioStart] at hstep
    split at hstep
    · cases hstep
    · cases hstep
      have hattended : Attended { s with posted := s.posted - 1, io := .maybeWrite } := by
        simp [Attended]
      refine ⟨hkept.accounted, fun _ _ => hattended, fun _ _ => .inl hattended, ?_, ?_⟩
      · intro hopen hstarted
        rcases h.started hopen hstarted with hp | hf
        · exact .inl hp
        · rw [hfree] at hf
          cases hf
      · intro message hw
        have hwhy := h.waiting message hw
        simpa [hfree] using hwhy
  | onWrite failed =>
    simp only [ioStart] at hstep
    split at hstep
    · have hnot : ∀ message, s'.worker ≠ .waiting message := by
        intro message
        split at hstep
        · cases hstep
          exact notifyAll_worker_ne _ message
        · cases hstep
          exact notifyAll_worker_ne _ message
      have hio : s'.io = .maybeWrite ∨ s'.io = .finishSession := by
        split at hstep
        · cases hstep
          exact .inr rfl
        · cases hstep
          exact .inl rfl
      have hattended : s'.Attended := by
        rcases hio with hio | hio
        · simp [Attended, hio]
        · simp [Attended, hio]
      have hflags : s'.queue.closed = s.queue.closed ∧ s'.queue.closeStarted = s.queue.closeStarted ∧
          s'.closePending = s.closePending := by
        split at hstep
        · cases hstep
          simp [request, onWrite]
        · cases hstep
          simp [onWrite]
      refine ⟨hkept.accounted, fun _ _ => hattended, fun _ _ => .inl hattended, ?_, ?_⟩
      · rw [hflags.1, hflags.2.1, hflags.2.2]
        intro hopen hstarted
        rcases h.started hopen hstarted with hp | hf
        · exact .inl hp
        · rw [hfree] at hf
          cases hf
      · exact fun message hw => absurd hw (hnot message)
    · cases hstep
  | closed =>
    simp only [ioStart] at hstep
    split at hstep
    · cases hstep
      have hattended : Attended { s with closePending := false, io := .finishSession } := by
        simp [Attended]
      refine ⟨hkept.accounted, fun _ _ => hattended, fun _ _ => .inl hattended, fun _ _ => .inr rfl, ?_⟩
      intro message hw
      have hwhy := h.waiting message hw
      simpa [hfree] using hwhy.1
    · cases hstep

/-- A finished session owes nothing but the wakeup of its worker. -/
lemma Moving.of_closed (h : Accounted size s'.queue) (hclosed : s'.queue.closed = true)
    (hwaiting : ∀ message, s'.worker ≠ .waiting message) : Moving size s' := by
  refine ⟨h, ?_, ?_, ?_, fun message hw => absurd hw (hwaiting message)⟩
  all_goals
    intro hopen
    rw [hclosed] at hopen
    cases hopen

/-- In a finished session nobody waits. -/
lemma Moving.not_waiting (h : Moving size s) (hclosed : s.queue.closed = true)
    (message : OutboundMessage π) : s.worker ≠ .waiting message := by
  intro hw
  have hopen := (h.waiting message hw).1
  rw [hclosed] at hopen
  cases hopen

/-- `maybe_write` forgets nobody: it writes, or somebody else does, or it goes on to close. -/
lemma maybeWrite_moving (h : Moving size s) (hio : s.io = .maybeWrite)
    (hstep : s.goOn size = some (s', event)) : Moving size s' := by
  have hkept := goOn_kept h.accounted hstep
  simp only [goOn, hio] at hstep
  cases hstep
  have hstarted : s.queue.closed = false → s.queue.closeStarted = true → s.closePending = true := by
    intro hopen hs
    rcases h.started hopen hs with hp | hf
    · exact hp
    · rw [hio] at hf
      cases hf
  cases hclosed : s.queue.closed with
  | true =>
    refine .of_closed hkept.accounted ?_ ?_
    · simp [maybeWrite, hclosed]
    · exact h.not_waiting hclosed
  | false =>
    cases hwriting : s.queue.writeInProgress with
    | true =>
      have hsame : s.queue.maybeWrite.1 = s.queue := by simp [maybeWrite, hwriting]
      have hno : closesNow s.queue = false := by simp [closesNow, hwriting]
      simp only [hsame, hno, Bool.false_eq_true, if_false]
      refine ⟨h.accounted, fun _ _ => .inl hwriting, fun _ _ => .inl (.inl hwriting),
        fun _ hs => .inl (hstarted hclosed hs), fun message hw => ⟨hclosed, .inr (.inl hwriting)⟩⟩
    | false =>
      cases hqueue : s.queue.outbound with
      | nil =>
        have hsame : s.queue.maybeWrite.1 = s.queue := by simp [maybeWrite, hclosed, hwriting, hqueue]
        simp only [hsame]
        refine ⟨h.accounted, fun _ hne => absurd hqueue hne, fun _ hclose => ?_,
          fun _ hs => .inl (hstarted hclosed hs), fun message hw => ⟨hclosed, ?_⟩⟩
        · have hyes : closesNow s.queue = true := by
            simpa [closesNow, hclosed, hwriting, hqueue] using hclose
          simp [hyes]
        · have hwhy := (h.waiting message hw).2
          have hclose : s.queue.closeAfterDrain = true := by
            simpa [hqueue, hwriting, hio] using hwhy
          exact .inr (.inr (.inl hclose))
      | cons front rest =>
        have hwrites : s.queue.maybeWrite.1.writeInProgress = true := by
          simp [maybeWrite, hclosed, hwriting, hqueue]
        refine ⟨hkept.accounted, fun _ _ => .inl hwrites, fun _ _ => .inl (.inl hwrites), ?_, ?_⟩
        · simp only [maybeWrite, hclosed, hwriting, hqueue, Bool.false_eq_true, or_self, if_false]
          exact fun _ hs => .inl (hstarted hclosed hs)
        · intro message hw
          refine ⟨?_, .inr (.inl hwrites)⟩
          simp [maybeWrite, hclosed, hwriting, hqueue]

/-- `close_transport` forgets nobody: it ends the session, or waits for the close handshake. -/
lemma closeTransport_moving (h : Moving size s) (hio : s.io = .closeTransport)
    (hstep : s.goOn size = some (s', event)) : Moving size s' := by
  have hkept := goOn_kept h.accounted hstep
  simp only [goOn, hio] at hstep
  cases hclosed : s.queue.closed with
  | true =>
    simp only [hclosed, not_true_eq_false, false_and, if_false] at hstep
    cases hstep
    exact .of_closed hkept.accounted (by simp [closeTransport, hclosed]) (h.not_waiting hclosed)
  | false =>
    have hattended : s.Attended → s.queue.writeInProgress = true ∨ 0 < s.posted ∨ s.worker = .posting := by
      simp [Attended, hio]
    have hwaiting : ∀ message, s.worker = .waiting message → s.queue.outbound ≠ [] ∨
        s.queue.writeInProgress = true ∨ s.queue.closeAfterDrain = true := by
      intro message hw
      simpa [hio] using (h.waiting message hw).2
    cases hstarted : s.queue.closeStarted with
    | true =>
      have hpending : s.closePending = true := by
        simpa [hio] using h.started hclosed hstarted
      simp only [hstarted, not_true_eq_false, and_false, false_and, if_false, closeTransport, or_true,
        if_true] at hstep
      cases hstep
      refine ⟨h.accounted, fun hopen hne => ?_, fun _ _ => .inr (.inr (by simp [hpending])),
        fun _ _ => .inl (by simp [hpending]), fun message hw => ⟨hclosed, ?_⟩⟩
      · rcases hattended (h.queued hopen hne) with ha | ha | ha
        · exact .inl ha
        · exact .inr (.inl ha)
        · exact .of_posting ha
      · rcases hwaiting message hw with hwhy | hwhy | hwhy
        · exact .inl hwhy
        · exact .inr (.inl hwhy)
        · exact .inr (.inr (.inl hwhy))
    | false =>
      cases hread : s.readInProgress with
      | true =>
        simp only [hclosed, hstarted, hread, Bool.false_eq_true, not_false_eq_true, and_self,
          if_true] at hstep
        cases hstep
        refine .of_closed hkept.accounted ?_ (notifyAll_worker_ne _)
        simp [closeTransport, finishSession, hclosed, hstarted]
      | false =>
        simp only [hclosed, hstarted, hread, Bool.false_eq_true, not_false_eq_true, and_self, and_false,
          if_false, closeTransport, or_self, decide_true, Bool.not_false, Bool.and_self,
          Bool.or_true] at hstep
        cases hstep
        refine ⟨hkept.accounted, fun _ hne => ?_, fun _ _ => .inr (.inr rfl), fun _ _ => .inl rfl,
          fun message hw => ⟨rfl, ?_⟩⟩
        · rcases hattended (h.queued hclosed hne) with ha | ha | ha
          · exact .inl ha
          · exact .inr (.inl ha)
          · exact .of_posting ha
        · rcases hwaiting message hw with hwhy | hwhy | hwhy
          · exact .inl hwhy
          · exact .inr (.inl hwhy)
          · exact .inr (.inr (.inl hwhy))

variable (π) in
/-- A refused call of `enqueue_from_io` leads to the end of the session. -/
lemma ioAfter_false (caller : EnqueueCaller) :
    (ioAfter caller false : IoAt π) = .requestCloseAfterDrain ∨
      (ioAfter caller false : IoAt π) = .finishSession := by
  cases caller with
  | reply => exact .inr rfl
  | protocolFailure => exact .inr rfl
  | initiateShutdown => exact .inl rfl

/-- `enqueue_from_io` forgets nobody: it posts, or it ends the session. -/
lemma enqueueFromIo_moving (h : Moving size s) {caller : EnqueueCaller} {message : OutboundMessage π}
    (hio : s.io = .enqueueFromIo caller message) (hstep : s.goOn size = some (s', event)) :
    Moving size s' := by
  have hkept := goOn_kept h.accounted hstep
  simp only [goOn, hio] at hstep
  obtain ⟨⟨queue, answer⟩, hanswer⟩ : ∃ x, s.queue.enqueueFromIo size message = x := ⟨_, rfl⟩
  simp only [hanswer] at hstep
  cases hstep
  obtain ⟨hflags, heffect⟩ := enqueueFromIo_effect hanswer
  have hstarted : queue.closed = false → queue.closeStarted = true → s.closePending = true := by
    rw [hflags.closed, hflags.closeStarted]
    intro hopen hs
    simpa [hio] using h.started hopen hs
  rcases heffect with ⟨rfl, hne, -⟩ | ⟨rfl, -⟩
  · have hattended : 0 < s.posted + if taken (.accepted message) then 1 else 0 := by simp [taken]
    refine ⟨hkept.accounted, fun _ _ => .inr (.inl hattended), fun _ _ => .inl (.inr (.inl hattended)),
      fun hopen hs => .inl (hstarted hopen hs), fun m hw => ⟨?_, .inl hne⟩⟩
    exact hflags.closed.trans (h.waiting m hw).1
  · simp only [taken, Bool.false_eq_true, if_false] at hkept ⊢
    have hattended : Attended { s with
        queue := queue, posted := s.posted + 0, io := ioAfter caller false } := by
      unfold Attended
      rcases ioAfter_false π caller with hafter | hafter
      · simp [hafter]
      · simp [hafter]
    refine ⟨hkept.accounted, fun _ _ => hattended, fun _ _ => .inl hattended,
      fun hopen hs => .inl (hstarted hopen hs), fun m hw => ⟨?_, ?_⟩⟩
    · exact hflags.closed.trans (h.waiting m hw).1
    · rcases ioAfter_false π caller with hafter | hafter
      · exact .inr (.inr (.inr (.inl hafter)))
      · exact .inr (.inr (.inr (.inr hafter)))

/-- The next call of a handler forgets nobody. -/
lemma goOn_moving (h : Moving size s) (hstep : s.goOn size = some (s', event)) : Moving size s' := by
  have hkept := goOn_kept h.accounted hstep
  cases hio : s.io with
  | free =>
    simp only [goOn, hio] at hstep
    cases hstep
  | enqueueFromIo caller message => exact enqueueFromIo_moving h hio hstep
  | requestCloseAfterDrain =>
    simp only [goOn, hio] at hstep
    cases hstep
    have hattended : 0 < s.posted + 1 := Nat.succ_pos _
    refine ⟨hkept.accounted, fun _ _ => .inr (.inl hattended), fun _ _ => .inl (.inr (.inl hattended)),
      fun hopen hs => .inl ?_, fun message hw => ⟨(h.waiting message hw).1, .inr (.inr (.inl rfl))⟩⟩
    simpa [hio] using h.started hopen hs
  | maybeWrite => exact maybeWrite_moving h hio hstep
  | closeTransport => exact closeTransport_moving h hio hstep
  | finishSession =>
    simp only [goOn, hio] at hstep
    cases hclosed : s.queue.closed with
    | true =>
      simp only [hclosed, if_true] at hstep
      cases hstep
      exact .of_closed hkept.accounted (by simp [Outbound.finishSession, hclosed]) (h.not_waiting hclosed)
    | false =>
      simp only [hclosed, Bool.false_eq_true, if_false] at hstep
      cases hstep
      refine .of_closed hkept.accounted ?_ (notifyAll_worker_ne _)
      simp [Outbound.finishSession, hclosed]

/-- No step forgets anybody. -/
lemma loopStep_moving (h : Moving size s) {e : LoopEvent π}
    (hstep : s.loopStep size e = some (s', event)) : Moving size s' := by
  cases e with
  | worker e => exact workerStep_moving h hstep
  | io e =>
    simp only [loopStep] at hstep
    split at hstep
    · next hfree =>
      obtain ⟨t, ht, heq⟩ := Option.map_eq_some_iff.mp hstep
      cases heq
      exact ioStart_moving h hfree ht
    · cases hstep
  | goOn =>
    simp only [loopStep] at hstep
    split at hstep
    · cases hstep
    · exact goOn_moving h hstep
  | stop =>
    simp only [loopStep] at hstep
    split at hstep
    · cases hstep
      exact h.of_same s.queue.cancellation rfl le_rfl rfl (.inr rfl) .inl fun _ => .inl
    · cases hstep

end OutboundLoop

end Voxtral
