import Voxtral.Server.Outbound

/-!
# The handlers around the outbound queue

`maybe_write` runs only where somebody posts or calls it, a worker that found no room sleeps in
`outbound_space_.wait` until somebody notifies it, and the transport is closed by the `maybe_write` that finds
the queue empty.  Here the posted handlers, the sleeping worker and the handler the IO thread is in are part
of the state, and every critical section is a step of its own, so that a run is any interleaving of the two
threads with the completions of the socket.
-/

namespace Voxtral

/-- Where the worker stands between two critical sections. -/
inductive WorkerAt (π : Type*)
  /-- `inference_worker` is not started. -/
  | absent
  | running
  /-- At the head of the loop of `enqueue_from_worker`. -/
  | entering (message : OutboundMessage π)
  /-- In `outbound_space_.wait`. -/
  | waiting (message : OutboundMessage π)
  /-- The lock is released and `boost::asio::post` comes next. -/
  | posting
  deriving DecidableEq, Repr

/-- Who calls `enqueue_from_io`. -/
inductive EnqueueCaller
  /-- `handle_configuration` and the answer to a ping. -/
  | reply
  | protocolFailure
  | initiateShutdown
  deriving DecidableEq, Repr

/-- Where the IO thread stands between two critical sections: the call that comes next. -/
inductive IoAt (π : Type*)
  /-- Between two handlers. -/
  | free
  | enqueueFromIo (caller : EnqueueCaller) (message : OutboundMessage π)
  | requestCloseAfterDrain
  | maybeWrite
  | closeTransport
  | finishSession
  deriving DecidableEq, Repr

/-- The outbound side of a `RealtimeSession` with what its threads and the executor hold. -/
structure OutboundLoop (π : Type*) where
  queue : Outbound π := {}
  /-- The posted calls of `maybe_write` that have not run. -/
  posted : ℕ := 0
  /-- `async_close` has not called back. -/
  closePending : Bool := false
  readInProgress : Bool := false
  worker : WorkerAt π := .absent
  io : IoAt π := .free
  /-- `io_context_.stop()` was called: no handler runs any more. -/
  stopped : Bool := false
  deriving DecidableEq, Repr

/-- How `on_read` ends. -/
inductive ReadEnd
  | message
  /-- The peer closed the connection, or it broke. -/
  | disconnected
  /-- `operation_aborted`. -/
  | aborted
  deriving DecidableEq, Repr

/-- What the worker does next. -/
inductive WorkerEvent (π : Type*)
  | enqueueFromWorker (message : OutboundMessage π)
  | requestCloseAfterDrain
  /-- The cancellation is requested: `observe_lag`. -/
  | request (reason : CancelReason)
  /-- One round of the loop of `enqueue_from_worker`. -/
  | round
  /-- `wait` returns although nobody notified. -/
  | wake
  /-- `boost::asio::post`. -/
  | post
  deriving DecidableEq, Repr

/-- The handler the IO thread starts. -/
inductive IoEvent (π : Type*)
  | startInferenceWorker (token : Cancellation)
  | acceptFailed
  | readNext
  | onRead (outcome : ReadEnd)
  /-- A message of the client is answered. -/
  | reply (message : OutboundMessage π)
  /-- `handle_control` for `cancel`. -/
  | cancel
  | protocolFailure (message : OutboundMessage π) (reason : CancelReason)
  | initiateShutdown (message : OutboundMessage π)
  /-- A posted `maybe_write`. -/
  | maybeWrite
  | onWrite (failed : Bool)
  /-- `async_close` calls back. -/
  | closed
  deriving DecidableEq, Repr

/-- One step of the session. -/
inductive LoopEvent (π : Type*)
  | worker (event : WorkerEvent π)
  | io (event : IoEvent π)
  /-- The IO thread makes the next call of the handler it is in. -/
  | goOn
  /-- `io_context_.stop()`, between two handlers. -/
  | stop
  deriving DecidableEq, Repr

namespace OutboundLoop

variable {π : Type*}

/-- `outbound_space_.notify_all()`. -/
def notifyAll (s : OutboundLoop π) : OutboundLoop π :=
  match s.worker with
  | .waiting message => { s with worker := .entering message }
  | _ => s

/-- `cancellation_->request(reason)`, where there is a token. -/
def request (s : OutboundLoop π) (reason : CancelReason) : OutboundLoop π :=
  { s with queue := { s.queue with cancellation := s.queue.cancellation.map (·.request reason) } }

/-- Where a round of `enqueue_from_worker` leaves the worker. -/
def workerAfter (message : OutboundMessage π) : OutboundEvent π → WorkerAt π
  | .accepted _ => .posting
  | .waits => .waiting message
  | _ => .running

/-- Where the answer of `enqueue_from_io` leads its caller. -/
def ioAfter : EnqueueCaller → Bool → IoAt π
  | .reply, true => .free
  | .reply, false => .finishSession
  | .protocolFailure, true => .requestCloseAfterDrain
  | .protocolFailure, false => .finishSession
  -- the answer is ignored
  | .initiateShutdown, _ => .requestCloseAfterDrain

/-- `enqueue_from_io` returned `true`. -/
def taken : OutboundEvent π → Bool
  | .accepted _ => true
  | _ => false

variable (size : π → ℕ)

/-- A step of the worker. -/
def workerStep (s : OutboundLoop π) (event : WorkerEvent π) :
    Option (OutboundLoop π × OutboundEvent π) :=
  match s.worker, event with
  | .running, .enqueueFromWorker message => some ({ s with worker := .entering message }, .quiet)
  | .running, .requestCloseAfterDrain =>
    some ({ s with queue := { s.queue with closeAfterDrain := true }, worker := .posting }, .quiet)
  | .running, .request reason => some (s.request reason, .quiet)
  | .entering message, .round =>
    let answer := s.queue.enqueueFromWorker size message
    some ({ s with queue := answer.1, worker := workerAfter message answer.2 }, answer.2)
  | .waiting message, .wake => some ({ s with worker := .entering message }, .quiet)
  | .posting, .post => some ({ s with posted := s.posted + 1, worker := .running }, .quiet)
  | _, _ => none

/-- The first step of a handler. -/
def ioStart (s : OutboundLoop π) : IoEvent π → Option (OutboundLoop π)
  | .startInferenceWorker token =>
    match s.worker with
    | .absent =>
      some { s with queue := { s.queue with cancellation := some token }, worker := .running }
    | _ => none
  | .acceptFailed => some { s with io := .finishSession }
  | .readNext =>
    if s.queue.closed ∨ s.queue.closeAfterDrain ∨ s.readInProgress then none
    else some { s with readInProgress := true }
  | .onRead outcome =>
    if s.readInProgress then
      match outcome with
      | .message => some { s with readInProgress := false }
      | .disconnected => some { s.request .disconnect with readInProgress := false, io := .finishSession }
      | .aborted => some { s with readInProgress := false, io := .finishSession }
    else none
  | .reply message => some { s with io := .enqueueFromIo .reply message }
  | .cancel => some (s.request .client).notifyAll
  | .protocolFailure message reason =>
    if s.queue.closed then some s
    else some { (s.request reason).notifyAll with io := .enqueueFromIo .protocolFailure message }
  | .initiateShutdown message =>
    if s.queue.closed then some s
    else some { (s.request .shutdown).notifyAll with io := .enqueueFromIo .initiateShutdown message }
  | .maybeWrite =>
    if s.posted = 0 then none else some { s with posted := s.posted - 1, io := .maybeWrite }
  | .onWrite failed =>
    if s.queue.writeInProgress then
      let s' := notifyAll { s with queue := s.queue.onWrite size }
      if failed then some { s'.request .disconnect with io := .finishSession }
      else some { s' with io := .maybeWrite }
    else none
  | .closed => if s.closePending then some { s with closePending := false, io := .finishSession } else none

/-- `maybe_write` finds nothing to write and the close requested. -/
def closesNow (queue : Outbound π) : Bool :=
  ¬ queue.closed ∧ ¬ queue.writeInProgress ∧ queue.outbound.isEmpty ∧ queue.closeAfterDrain

/-- The next call of the handler the IO thread is in. -/
def goOn (s : OutboundLoop π) : Option (OutboundLoop π × OutboundEvent π) :=
  match s.io with
  | .free => none
  | .enqueueFromIo caller message =>
    let answer := s.queue.enqueueFromIo size message
    some ({ s with
      queue := answer.1
      posted := s.posted + if taken answer.2 then 1 else 0
      io := ioAfter caller (taken answer.2) }, answer.2)
  | .requestCloseAfterDrain =>
    some ({ s with
      queue := { s.queue with closeAfterDrain := true }
      posted := s.posted + 1
      io := .free }, .quiet)
  | .maybeWrite =>
    some ({ s with
      queue := s.queue.maybeWrite.1
      io := if closesNow s.queue then .closeTransport else .free }, s.queue.maybeWrite.2)
  | .closeTransport =>
    let starts := ¬ s.queue.closed ∧ ¬ s.queue.closeStarted
    let s' := { s with
      queue := s.queue.closeTransport size s.readInProgress
      closePending := s.closePending || (decide starts && !s.readInProgress)
      io := .free }
    -- `finish_session` notifies
    some (if starts ∧ s.readInProgress then s'.notifyAll else s', .quiet)
  | .finishSession =>
    let s' := { s with queue := s.queue.finishSession size, io := .free }
    some (if s.queue.closed then s' else s'.notifyAll, .quiet)

/-- One step of the session. -/
def loopStep (s : OutboundLoop π) : LoopEvent π → Option (OutboundLoop π × OutboundEvent π)
  | .worker event => s.workerStep size event
  | .io event =>
    match s.stopped, s.io with
    | false, .free => (s.ioStart size event).map fun s' => (s', .quiet)
    | _, _ => none
  | .goOn => if s.stopped then none else s.goOn size
  | .stop =>
    match s.io with
    | .free => some ({ s with stopped := true }, .quiet)
    | _ => none

end OutboundLoop

/-! ## What the calls do to the queue -/

namespace Outbound

variable {π : Type*} {size : π → ℕ} {s s' : Outbound π} {message : OutboundMessage π}
  {event : OutboundEvent π}

/-- The members that no call of `enqueue` changes. -/
structure SameFlags (s s' : Outbound π) : Prop where
  closed : s'.closed = s.closed
  writeInProgress : s'.writeInProgress = s.writeInProgress
  closeAfterDrain : s'.closeAfterDrain = s.closeAfterDrain
  closeStarted : s'.closeStarted = s.closeStarted

/-- The flags of a state are its own. -/
lemma SameFlags.refl (s : Outbound π) : SameFlags s s := ⟨rfl, rfl, rfl, rfl⟩

/-- Two changes that leave the flags alone. -/
lemma SameFlags.trans {s'' : Outbound π} (h : SameFlags s s') (h' : SameFlags s' s'') :
    SameFlags s s'' :=
  ⟨h'.closed.trans h.closed, h'.writeInProgress.trans h.writeInProgress,
    h'.closeAfterDrain.trans h.closeAfterDrain, h'.closeStarted.trans h.closeStarted⟩

/-- A replaced partial leaves a queue of the same length. -/
lemma coalescePartial_effect (h : s.coalescePartial size message = some s') :
    SameFlags s s' ∧ s'.outbound ≠ [] ∧ s'.outbound.length = s.outbound.length := by
  unfold Outbound.coalescePartial at h
  split at h
  · cases h
  · split at h
    · cases h
    · next before existing behind hsplit =>
      obtain ⟨hqueue, -, -⟩ := splitAtPartial_spec hsplit
      dsimp only at h
      split at h
      · cases h
        refine ⟨⟨rfl, rfl, rfl, rfl⟩, by simp, ?_⟩
        rw [hqueue]
        simp
      · cases h

/-- A dropped partial makes the queue shorter. -/
lemma removeOptionalPartial_effect (h : s.removeOptionalPartial size = some s') :
    SameFlags s s' ∧ s'.outbound.length ≤ s.outbound.length := by
  unfold Outbound.removeOptionalPartial at h
  split at h
  · cases h
  · next before existing behind hsplit =>
    cases h
    obtain ⟨hqueue, -, -⟩ := splitAtPartial_spec hsplit
    refine ⟨⟨rfl, rfl, rfl, rfl⟩, ?_⟩
    rw [hqueue]
    simp

/-- Making room makes the queue shorter. -/
lemma makeRoom_effect (size : π → ℕ) (s : Outbound π) (bytes rounds : ℕ) :
    SameFlags s (s.makeRoom size bytes rounds) ∧
      (s.makeRoom size bytes rounds).outbound.length ≤ s.outbound.length := by
  induction rounds generalizing s with
  | zero => exact ⟨.refl s, le_rfl⟩
  | succ rounds ih =>
    rw [Outbound.makeRoom]
    split
    · exact ⟨.refl s, le_rfl⟩
    · cases hr : s.removeOptionalPartial size with
      | none => exact ⟨.refl s, le_rfl⟩
      | some s' =>
        obtain ⟨hflags, hlength⟩ := removeOptionalPartial_effect hr
        obtain ⟨hflags', hlength'⟩ := ih s'
        exact ⟨hflags.trans hflags', hlength'.trans hlength⟩

/-- A round of `enqueue_from_worker` takes the message, or leaves the queue as it is. -/
lemma enqueueFromWorker_effect (h : s.enqueueFromWorker size message = (s', event)) :
    (event = .accepted message ∧ SameFlags s s' ∧ s'.outbound ≠ [] ∧
        s'.outbound.length ≤ s.outbound.length + 1) ∨
      ((event = .refused ∨ event = .waits) ∧ s' = s) := by
  have hcases := @enqueueFromWorker_cases π size s message
  rw [h] at hcases
  rcases hcases with heq | heq | ⟨t, hc, heq⟩ | heq
  · cases heq
    exact .inr ⟨.inl rfl, rfl⟩
  · cases heq
    exact .inr ⟨.inr rfl, rfl⟩
  · cases heq
    obtain ⟨hflags, hne, hlength⟩ := coalescePartial_effect hc
    exact .inl ⟨rfl, hflags, hne, by omega⟩
  · cases heq
    exact .inl ⟨rfl, ⟨rfl, rfl, rfl, rfl⟩, by simp [Outbound.push], by simp [Outbound.push]⟩

/-- The worker waits only at an open queue that holds something, or beside a write. -/
lemma Accounted.of_waits (h : Accounted size s)
    (hwaits : s.enqueueFromWorker size message = (s', .waits)) :
    s.closed = false ∧ (s.outbound ≠ [] ∨ s.writeInProgress = true) := by
  unfold Outbound.enqueueFromWorker at hwaits
  split at hwaits
  · cases hwaits
  · next hgo =>
    split at hwaits
    · cases hwaits
    · split at hwaits
      · cases hwaits
      · next hfull =>
        split at hwaits
        · cases hwaits
        · next hsize =>
          constructor
          · rw [← h.closing]
            exact Bool.eq_false_iff.mpr fun hclosed => hgo (.inl hclosed)
          · by_contra hidle
            simp only [ne_eq, not_or, not_not, Bool.not_eq_true] at hidle
            -- an idle empty queue has room for every message of the allowed size
            have hbytes := h.bytes
            have hactive := h.writing
            rw [hidle.2] at hactive
            have hnone : s.activeWritePayload = none := by simpa using hactive.symm
            apply hfull
            simp only [hasQueueCapacity, hidle.1, hidle.2, activeBytes, hnone, queuedBytes_nil,
              Option.map_none, Option.getD_none] at hbytes ⊢
            simp only [hbytes, decide_eq_true_eq]
            exact ⟨Nat.le_of_not_lt hsize, by simp [kMaxOutboundMessages], Nat.zero_le _⟩

/-- `enqueue_from_io` takes the message, or makes the queue shorter. -/
lemma enqueueFromIo_effect (h : s.enqueueFromIo size message = (s', event)) :
    SameFlags s s' ∧ ((event = .accepted message ∧ s'.outbound ≠ [] ∧
        s'.outbound.length ≤ s.outbound.length + 1) ∨
      (event = .refused ∧ s'.outbound.length ≤ s.outbound.length)) := by
  unfold Outbound.enqueueFromIo at h
  split at h
  · cases h
    exact ⟨.refl s, .inr ⟨rfl, le_rfl⟩⟩
  · split at h
    · next hc =>
      cases h
      obtain ⟨hflags, hne, hlength⟩ := coalescePartial_effect hc
      exact ⟨hflags, .inl ⟨rfl, hne, by omega⟩⟩
    · obtain ⟨hflags, hlength⟩ := makeRoom_effect size s (size message.payload) s.outbound.length
      dsimp only at h
      split at h
      · cases h
        refine ⟨hflags.trans ⟨rfl, rfl, rfl, rfl⟩, .inl ⟨rfl, by simp [Outbound.push], ?_⟩⟩
        simpa [Outbound.push] using hlength
      · cases h
        exact ⟨hflags, .inr ⟨rfl, hlength⟩⟩

/-- The cancellation token is no part of the account. -/
lemma Accounted.cancellation (h : Accounted size s) (token : Option Cancellation) :
    Accounted size { s with cancellation := token } :=
  ⟨h.bytes, h.bounded, h.count, h.writing, h.closing, h.drained⟩

/-- A requested close is no part of the account. -/
lemma Accounted.closeAfterDrain (h : Accounted size s) :
    Accounted size { s with closeAfterDrain := true } :=
  ⟨h.bytes, h.bounded, h.count, h.writing, h.closing, h.drained⟩

end Outbound

/-! ## Notifying -/

namespace OutboundLoop

variable {π : Type*} (s : OutboundLoop π)

/-- A notification leaves the queue. -/
@[simp] lemma notifyAll_queue : s.notifyAll.queue = s.queue := by
  unfold notifyAll
  split <;> rfl

/-- A notification leaves what was posted. -/
@[simp] lemma notifyAll_posted : s.notifyAll.posted = s.posted := by
  unfold notifyAll
  split <;> rfl

/-- A notification leaves the pending close. -/
@[simp] lemma notifyAll_closePending : s.notifyAll.closePending = s.closePending := by
  unfold notifyAll
  split <;> rfl

/-- A notification leaves the IO thread where it is. -/
@[simp] lemma notifyAll_io : s.notifyAll.io = s.io := by
  unfold notifyAll
  split <;> rfl

/-- Nobody waits who was notified. -/
lemma notifyAll_worker_ne (message : OutboundMessage π) : s.notifyAll.worker ≠ .waiting message := by
  unfold notifyAll
  split
  · intro h
    cases h
  · next hne => exact hne message

/-- Only a waiting worker is touched. -/
lemma notifyAll_posting (h : s.worker = .posting) : s.notifyAll.worker = .posting := by
  unfold notifyAll
  rw [h]
  exact h

end OutboundLoop

end Voxtral
