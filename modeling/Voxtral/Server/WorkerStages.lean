import Voxtral.Server.SessionThreads

/-!
# The stages of the worker

What the steps of the worker come to for the end of a session.  The points of the worker are sorted into
stages by what it is about to enqueue, and `workerStep_stageStep` says which stage follows which, with
what messages.
-/

namespace Voxtral

/-- What the worker of a session is about to do about its end. -/
inductive WorkerStage
  | feeding
  | finishing
  /-- Up to the check in `worker_failure`, behind it, and behind its message. -/
  | failing
  | reporting
  | reported
  /-- Behind the last drain, behind the final transcript, and behind `session.completed`. -/
  | completing
  | finalSent
  | completed
  /-- The final transcript is refused. -/
  | refused
  | interrupted
  | cancelling
  | cancelled
  /-- Behind the request for `Capacity`, and behind its message. -/
  | overloaded
  | rejected
  | done
  deriving DecidableEq

namespace SessionThreads

/-- The stage of the caller of `resume_backpressure`. -/
def callerStage : ResumeCaller → WorkerStage
  | .feed _ => .feeding
  | .finish => .finishing

/-- The stage of a call of `drain_events`. -/
def siteStage : DrainSite → WorkerStage
  | .afterFeed _ => .feeding
  | .resume caller => callerStage caller
  | .resumed caller => callerStage caller
  | .last => .finishing

/-- The stage of a point of the worker. -/
def pointStage : WorkerPoint → WorkerStage
  | .createStream | .pop | .feedCheck | .observeLag | .warn => .feeding
  | .popCheck ended => if ended then .finishing else .feeding
  | .drain site | .drainEnqueue site _ | .cancelledEvent site => siteStage site
  | .resumeCheck caller | .resumeFeed caller => callerStage caller
  | .finishCheck => .finishing
  | .feedFailed | .handleCancellation => .interrupted
  | .lagEnqueue => .overloaded
  | .lagClose => .rejected
  | .readFinal | .enqueueFinal _ => .completing
  | .enqueueCompleted => .finalSent
  | .finalRefused => .refused
  | .completedClose => .completed
  | .cancelledEnqueue => .cancelling
  | .cancellationClose _ => .cancelled
  | .failure _ _ => .failing
  | .failureEnqueue _ _ => .reporting
  | .failureClose => .reported
  | .done => .done

/-- The stage of the worker. -/
def stage (s : SessionThreads) : WorkerStage := pointStage s.worker

/-- A message about a polled event, or a warning. -/
def Passing (message : ServerMessage) : Prop :=
  message.isTerminal = false ∧ message.isFinal = false

/-- From one stage of the worker to the next: the messages it enqueues, and whether it requests the
close. -/
inductive StageStep (s : SessionThreads) : WorkerStage → WorkerStage → List ServerMessage → Bool → Prop
  /-- The worker goes on where it is, with at most one message about an event. -/
  | stay {stage : WorkerStage} {messages : List ServerMessage} (h : ∀ m ∈ messages, Passing m)
      (hstage : stage = .feeding ∨ stage = .finishing) : StageStep s stage stage messages false
  | ended (h : s.inputFinishing = true) : StageStep s .feeding .finishing [] false
  | drained (h : s.requested = false) : StageStep s .finishing .completing [] false
  | fail {stage : WorkerStage}
      (hstage : stage = .feeding ∨ stage = .finishing ∨ stage = .completing) :
      StageStep s stage .failing [] false
  | interrupt {stage : WorkerStage} (h : s.requested = true ∨ s.refuses = true ∨ s.inputCancelled = true)
      (hstage : stage = .feeding ∨ stage = .finishing) : StageStep s stage .interrupted [] false
  | abandon (h : s.requested = true ∨ s.refuses = true) : StageStep s .finishing .done [] false
  | suppress (h : s.requested = true) : StageStep s .failing .done [] false
  | goAhead (h : s.requested = false) : StageStep s .failing .reporting [] false
  | report (h : s.refuses = false) (code message : String) :
      StageStep s .reporting .reported [.error code message true] false
  | reportRefused (h : s.refuses = true) : StageStep s .reporting .reported [] false
  | reportClose : StageStep s .reported .done [] true
  | final : StageStep s .completing .completing [] false
  | sendFinal (h : s.refuses = false) (sequence : ℕ) (text : Bytes) (audioEndMs : ℕ) :
      StageStep s .completing .finalSent [.final sequence text audioEndMs] false
  | refuseFinal : StageStep s .completing .refused [] false
  | refuseCompleted (h : s.refuses = true) : StageStep s .finalSent .refused [] false
  | sendCompleted (h : s.refuses = false) (sequence : ℕ) :
      StageStep s .finalSent .completed [.completed sequence] false
  | completedClose : StageStep s .completed .done [] true
  | giveUp (h : s.requested = true) : StageStep s .refused .done [] false
  | refusedFails (h : s.requested = false) : StageStep s .refused .failing [] false
  | handle (h : s.requested = true) : StageStep s .interrupted .interrupted [] false
  | leave (h : s.cancellation.reason ≠ .client ∧ s.cancellation.reason ≠ .capacity) :
      StageStep s .interrupted .done [] false
  | client (h : s.cancellation.reason = .client) : StageStep s .interrupted .cancelling [] false
  | capacity (h : s.cancellation.reason = .capacity) : StageStep s .interrupted .cancelled [] false
  | cancel (h : s.refuses = false) : StageStep s .cancelling .cancelled [.cancelled] false
  | cancelRefused (h : s.refuses = true) : StageStep s .cancelling .cancelled [] false
  | cancelClose : StageStep s .cancelled .done [] true
  | reject (h : s.refuses = false) : StageStep s .overloaded .rejected [capacityExceeded] false
  | rejectRefused (h : s.refuses = true) : StageStep s .overloaded .rejected [] false
  | rejectClose : StageStep s .rejected .interrupted [] true

/-- The worker finds the lag above the hard limit. -/
def FindsHardLag (s : SessionThreads) (answer : WorkerAnswer) : Prop :=
  s.worker = .observeLag ∧ answer = .hardLag

/-- What a step of the worker does about the end of the session, and what it keeps. -/
structure WorkerMove (s s' : SessionThreads) (messages : List ServerMessage) (closes : Bool) : Prop where
  step : StageStep s s.stage s'.stage messages closes
  enqueued : s'.enqueued = s.enqueued ++ messages
  closeAfterDrain : s'.closeAfterDrain = (s.closeAfterDrain || closes)
  cancellation : s'.cancellation = s.cancellation
  inputFinishing : s'.inputFinishing = s.inputFinishing
  inputCancelled : s'.inputCancelled = s.inputCancelled
  inputEnded : s'.inputEnded = s.inputEnded
  readInProgress : s'.readInProgress = s.readInProgress
  closed : s'.closed = s.closed
  io : s'.io = s.io

/-! ## The shapes of a step -/

section Shapes

variable {s : SessionThreads} {point : WorkerPoint}

/-- A message is taken by a session that is open and whose client is there. -/
lemma refuses_eq_false : s.refuses = false ↔ s.closed = false ∧ s.cancellation.reason ≠ .disconnect := by
  simp [refuses]

/-- The worker goes on without a message. -/
lemma WorkerMove.of_goTo (h : StageStep s s.stage (pointStage point) [] false) :
    WorkerMove s (s.goTo point) [] false :=
  ⟨h, by simp [goTo], by simp [goTo], rfl, rfl, rfl, rfl, rfl, rfl, rfl⟩

/-- The worker notes a terminal event. -/
lemma WorkerMove.of_observe {terminal : TerminalEvents}
    (h : StageStep s s.stage (pointStage point) [] false) :
    WorkerMove s ({ s with terminal := terminal }.goTo point) [] false :=
  ⟨h, by simp [goTo], by simp [goTo], rfl, rfl, rfl, rfl, rfl, rfl, rfl⟩

/-- The worker enqueues a message. -/
lemma WorkerMove.of_enqueue {message : ServerMessage} (hrefuses : s.refuses = false)
    (h : StageStep s s.stage (pointStage point) [message] false) :
    WorkerMove s ((s.enqueue message).goTo point) [message] false := by
  have hclosed : s.closed = false := (refuses_eq_false.mp hrefuses).1
  have henqueue : s.enqueue message =
      { s with enqueued := s.enqueued ++ [message], outbound := s.outbound ++ [message] } := by
    simp [enqueue, hclosed]
  rw [henqueue]
  exact ⟨h, rfl, by simp [goTo], rfl, rfl, rfl, rfl, rfl, rfl, rfl⟩

/-- The worker requests the close. -/
lemma WorkerMove.of_close {code : CloseCode} (h : StageStep s s.stage (pointStage point) [] true) :
    WorkerMove s ((s.requestCloseAfterDrain code).goTo point) [] true := by
  cases hclose : s.closeAfterDrain with
  | true =>
    have hsame : s.requestCloseAfterDrain code = s := by simp [requestCloseAfterDrain, hclose]
    rw [hsame]
    exact ⟨h, by simp [goTo], by simp [goTo, hclose], rfl, rfl, rfl, rfl, rfl, rfl, rfl⟩
  | false =>
    have hset : s.requestCloseAfterDrain code =
        { s with closeAfterDrain := true, closeCode := code } := by
      simp [requestCloseAfterDrain, hclose]
    rw [hset]
    exact ⟨h, by simp [goTo], by simp [goTo], rfl, rfl, rfl, rfl, rfl, rfl, rfl⟩

end Shapes

/-! ## The stages behind a drain -/

/-- Events are drained while the worker feeds or while it finishes. -/
lemma siteStage_or (site : DrainSite) : siteStage site = .feeding ∨ siteStage site = .finishing := by
  rcases site with answer | (more | _) | (more | _) | _ <;> simp [siteStage, callerStage]

/-- So is a stream resumed. -/
lemma callerStage_or (caller : ResumeCaller) :
    callerStage caller = .feeding ∨ callerStage caller = .finishing := by
  cases caller <;> simp [callerStage]

/-- The worker feeds as long as there are samples. -/
@[simp] lemma pointStage_nextFeed (more : Bool) : pointStage (nextFeed more) = .feeding := by
  cases more <;> rfl

/-- Behind a refused resume the worker returns, or leaves the chunk. -/
lemma stageStep_resumeRefused {s : SessionThreads} (caller : ResumeCaller)
    (h : s.requested = true ∨ s.refuses = true) :
    StageStep s (callerStage caller) (pointStage (resumeRefused caller)) [] false := by
  cases caller with
  | feed more => exact .interrupt (by tauto) (Or.inl rfl)
  | finish => exact .abandon h

/-- Behind a refused drain the worker returns, or leaves the chunk. -/
lemma stageStep_drainRefused {s : SessionThreads} (site : DrainSite)
    (h : s.requested = true ∨ s.refuses = true) :
    StageStep s (siteStage site) (pointStage (drainRefused site)) [] false := by
  cases site with
  | afterFeed answer => exact .interrupt (by tauto) (Or.inl rfl)
  | resume caller => exact stageStep_resumeRefused caller h
  | resumed caller => exact stageStep_resumeRefused caller h
  | last => exact .abandon h

/-- Behind a drain that emptied the queue. -/
lemma stageStep_drained {s : SessionThreads} (site : DrainSite) (h : s.requested = false) :
    StageStep s (siteStage site) (pointStage (drained site)) [] false := by
  have hstay : ∀ {stage : WorkerStage}, stage = .feeding ∨ stage = .finishing →
      StageStep s stage stage [] false := fun hstage => .stay (by simp) hstage
  cases site with
  | afterFeed answer =>
    cases answer with
    | ok more => simpa [siteStage, drained] using hstay (Or.inl rfl)
    | queueFull more => exact hstay (Or.inl rfl)
    | failed code message => exact .fail (Or.inl rfl)
  | resume caller => exact hstay (callerStage_or caller)
  | resumed caller =>
    cases caller with
    | feed more => simpa [siteStage, callerStage, drained] using hstay (Or.inl rfl)
    | finish => exact hstay (Or.inr rfl)
  | last => exact .drained h

/-! ## The step lemma -/

section Step

variable {config : RealtimeConfiguration} {s s' : SessionThreads} {answer : WorkerAnswer}

/-- A message about an event ends nothing. -/
lemma passing_eventMessage {event : PublicEvent} {message : OutboundMessage ServerMessage}
    (h : eventMessage config event = some message) : Passing message.payload := by
  unfold eventMessage at h
  split at h
  · split at h <;> cases h
    exact ⟨rfl, rfl⟩
  · split at h <;> cases h
    exact ⟨rfl, rfl⟩
  · cases h

/-- A polled event. -/
lemma drainEvent_move {site : DrainSite} (hw : s.worker = .drain site) (event : PublicEvent) :
    WorkerMove s (drainEvent config s site event) [] false := by
  have hstage : s.stage = siteStage site := by rw [stage, hw]; rfl
  have hstay : StageStep s s.stage (siteStage site) [] false := by
    rw [hstage]
    exact .stay (by simp) (siteStage_or site)
  have hfail : ∀ {code message}, StageStep s s.stage (pointStage (.failure code message)) [] false := by
    intro code message
    rw [hstage]
    exact .fail (by have := siteStage_or site; tauto)
  have hpassed : WorkerMove s
      (if (eventMessage config event).isSome then
        { s with terminal := s.terminal.observe event }.goTo (.drainEnqueue site event)
      else { s with terminal := s.terminal.observe event }) [] false := by
    split
    · exact .of_observe hstay
    · have hsame : ({ s with terminal := s.terminal.observe event } : SessionThreads) =
          { s with terminal := s.terminal.observe event }.goTo (.drain site) := by
        rw [goTo, ← hw]
      rw [hsame]
      exact .of_observe hstay
  have hended : WorkerMove s
      (s.goTo (if event.status = .cancelled then .cancelledEvent site else engineError event.status))
      [] false := by
    apply WorkerMove.of_goTo
    split
    · exact hstay
    · exact hfail
  unfold drainEvent
  cases event.type with
  | error => exact hended
  | cancelled => exact hended
  | _ => exact hpassed

/-- The steps of `drain_events`. -/
lemma workerStep_move_of_drain {site : DrainSite} (hw : s.worker = .drain site)
    (h : s.workerStep config answer = some s') : ∃ messages closes, WorkerMove s s' messages closes := by
  have hstage : s.stage = siteStage site := by rw [stage, hw]; rfl
  have hrefused : s.requested = true → WorkerMove s (s.goTo (drainRefused site)) [] false := by
    intro hrequested
    apply WorkerMove.of_goTo
    rw [hstage]
    exact stageStep_drainRefused site (Or.inl hrequested)
  have hdrained : s.requested = false → WorkerMove s (s.goTo (drained site)) [] false := by
    intro hrequested
    apply WorkerMove.of_goTo
    rw [hstage]
    exact stageStep_drained site hrequested
  have hfail : ∀ {code message}, WorkerMove s (s.goTo (.failure code message)) [] false := by
    intro code message
    apply WorkerMove.of_goTo
    rw [hstage]
    exact .fail (by have := siteStage_or site; tauto)
  unfold workerStep at h
  rw [hw] at h
  refine ⟨[], false, ?_⟩
  cases hrequested : s.requested with
  | true =>
    have heq : s' = s.goTo (drainRefused site) := by
      cases answer <;> simp [hrequested] at h <;> exact h.symm
    exact heq ▸ hrefused hrequested
  | false =>
    cases answer with
    | notReady =>
      simp only [hrequested, Bool.false_eq_true, if_false, Option.some.injEq] at h
      exact h ▸ hdrained hrequested
    | failed code message =>
      simp only [hrequested, Bool.false_eq_true, if_false, Option.some.injEq] at h
      exact h ▸ hfail
    | event event =>
      simp only [hrequested, Bool.false_eq_true, if_false, Option.some.injEq] at h
      exact h ▸ drainEvent_move hw event
    | _ => cases h

/-- A step that only goes on. -/
lemma exists_move_of_goTo {point : WorkerPoint} (heq : some (s.goTo point) = some s')
    (h : StageStep s s.stage (pointStage point) [] false) :
    ∃ messages closes, WorkerMove s s' messages closes := by
  have hsame : s.goTo point = s' := Option.some.inj heq
  exact ⟨[], false, hsame ▸ WorkerMove.of_goTo h⟩

/-- An `enqueue_from_worker` whose result only the next point depends on. -/
lemma exists_move_of_enqueue {message : ServerMessage} {refused sent : WorkerPoint}
    (heq : some (if s.refuses then s.goTo refused else (s.enqueue message).goTo sent) = some s')
    (hrefused : s.refuses = true → StageStep s s.stage (pointStage refused) [] false)
    (hsent : s.refuses = false → StageStep s s.stage (pointStage sent) [message] false) :
    ∃ messages closes, WorkerMove s s' messages closes := by
  cases hrefuses : s.refuses with
  | true =>
    rw [hrefuses, if_pos rfl] at heq
    exact exists_move_of_goTo heq (hrefused hrefuses)
  | false =>
    rw [hrefuses, if_neg Bool.false_ne_true] at heq
    have hsame : (s.enqueue message).goTo sent = s' := Option.some.inj heq
    exact ⟨[message], false, hsame ▸ WorkerMove.of_enqueue hrefuses (hsent hrefuses)⟩

/-- A `request_close_after_drain`. -/
lemma exists_move_of_close {code : CloseCode} {point : WorkerPoint}
    (heq : some ((s.requestCloseAfterDrain code).goTo point) = some s')
    (h : StageStep s s.stage (pointStage point) [] true) :
    ∃ messages closes, WorkerMove s s' messages closes := by
  have hsame : (s.requestCloseAfterDrain code).goTo point = s' := Option.some.inj heq
  exact ⟨[], true, hsame ▸ WorkerMove.of_close h⟩

/-- A check of the cancellation. -/
lemma exists_move_of_check {yes no : WorkerPoint}
    (heq : some (s.goTo (if s.requested then yes else no)) = some s')
    (hyes : s.requested = true → StageStep s s.stage (pointStage yes) [] false)
    (hno : s.requested = false → StageStep s s.stage (pointStage no) [] false) :
    ∃ messages closes, WorkerMove s s' messages closes := by
  cases hrequested : s.requested with
  | true =>
    rw [hrequested, if_pos rfl] at heq
    exact exists_move_of_goTo heq (hyes hrequested)
  | false =>
    rw [hrequested, if_neg Bool.false_ne_true] at heq
    exact exists_move_of_goTo heq (hno hrequested)

/-- The steps of the loop over the chunks. -/
lemma workerStep_move_of_feeding
    (hw : s.worker = .createStream ∨ s.worker = .pop ∨ s.worker = .feedCheck ∨ s.worker = .observeLag ∨
      s.worker = .warn)
    (hlag : ¬ FindsHardLag s answer) (h : s.workerStep config answer = some s') :
    ∃ messages closes, WorkerMove s s' messages closes := by
  have hstage : s.stage = .feeding := by
    rcases hw with hw | hw | hw | hw | hw <;> rw [stage, hw] <;> rfl
  have hstay : ∀ {messages}, (∀ m ∈ messages, Passing m) →
      StageStep s s.stage .feeding messages false := by
    intro messages hpassing
    rw [hstage]
    exact .stay hpassing (Or.inl rfl)
  have hfail : StageStep s s.stage .failing [] false := by
    rw [hstage]
    exact .fail (Or.inl rfl)
  have hinterrupt : s.requested = true ∨ s.refuses = true ∨ s.inputCancelled = true →
      StageStep s s.stage .interrupted [] false := by
    intro hwhy
    rw [hstage]
    exact .interrupt hwhy (Or.inl rfl)
  unfold workerStep at h
  rcases hw with hw | hw | hw | hw | hw <;> rw [hw] at h
  · -- the stream is created
    cases answer with
    | ok => exact exists_move_of_goTo h (hstay (by simp))
    | failed code message => exact exists_move_of_goTo h hfail
    | _ => cases h
  · -- `input_queue_.pop`
    cases answer with
    | audio =>
      cases hcancelled : s.inputCancelled with
      | true =>
        simp only [hcancelled, if_true] at h
        exact exists_move_of_goTo h (hinterrupt (by tauto))
      | false =>
        simp only [hcancelled, Bool.false_eq_true, if_false] at h
        exact exists_move_of_goTo h (hstay (by simp))
    | finish =>
      cases hcancelled : s.inputCancelled with
      | true =>
        simp only [hcancelled, if_true] at h
        exact exists_move_of_goTo h (hinterrupt (by tauto))
      | false =>
        cases hfinishing : s.inputFinishing with
        | true =>
          simp only [hcancelled, hfinishing, Bool.false_eq_true, if_false, if_true] at h
          refine exists_move_of_goTo h ?_
          rw [hstage]
          exact .ended hfinishing
        | false => simp [hcancelled, hfinishing] at h
    | _ => cases h
  · -- a slice of the chunk is fed
    cases answer with
    | feed answer =>
      exact exists_move_of_check h (fun hrequested => hinterrupt (Or.inl hrequested))
        fun _ => hstay (by simp)
    | _ => cases h
  · -- `observe_lag`
    cases answer with
    | ok => exact exists_move_of_goTo h (hstay (by simp))
    | softLag => exact exists_move_of_goTo h (hstay (by simp))
    | failed code message => exact exists_move_of_goTo h hfail
    | hardLag => exact absurd ⟨hw, rfl⟩ hlag
    | _ => cases h
  · -- the warning
    cases answer with
    | ok =>
      exact exists_move_of_enqueue h (fun hrefuses => hinterrupt (Or.inr (Or.inl hrefuses)))
        fun _ => hstay (by simp [Passing, ServerMessage.isTerminal, ServerMessage.isFinal])
    | _ => cases h

/-- The check behind a pop, and the step of `finish`. -/
lemma workerStep_move_of_check (hw : (∃ ended, s.worker = .popCheck ended) ∨ s.worker = .finishCheck)
    (h : s.workerStep config answer = some s') : ∃ messages closes, WorkerMove s s' messages closes := by
  have hstage : s.stage = .feeding ∨ s.stage = .finishing := by
    rcases hw with ⟨ended, hw⟩ | hw
    · rw [stage, hw]
      cases ended <;> simp [pointStage]
    · rw [stage, hw]
      exact Or.inr rfl
  have hcancel : s.requested = true → StageStep s s.stage .interrupted [] false := by
    intro hrequested
    exact .interrupt (Or.inl hrequested) hstage
  unfold workerStep at h
  rcases hw with ⟨ended, hw⟩ | hw <;> rw [hw] at h
  · cases answer with
    | ok =>
      refine exists_move_of_check h hcancel fun _ => ?_
      have hsame : s.stage = pointStage (if ended then .finishCheck else .feedCheck) := by
        rw [stage, hw]
        cases ended <;> rfl
      rw [← hsame]
      exact .stay (by simp) hstage
    | _ => cases h
  · have hfinishing : s.stage = .finishing := by rw [stage, hw]; rfl
    cases hrequested : s.requested with
    | true =>
      have heq : some (s.goTo .handleCancellation) = some s' := by
        cases answer <;> simp [hrequested] at h ⊢ <;> exact h
      exact exists_move_of_goTo heq (hcancel hrequested)
    | false =>
      simp only [hrequested, Bool.false_eq_true, if_false] at h
      cases answer with
      | ok => exact exists_move_of_goTo h (hfinishing ▸ .stay (by simp) (Or.inr rfl))
      | queueFull => exact exists_move_of_goTo h (hfinishing ▸ .stay (by simp) (Or.inr rfl))
      | failed code message => exact exists_move_of_goTo h (hfinishing ▸ .fail (Or.inr (Or.inl rfl)))
      | _ => cases h

/-- The steps of `resume_backpressure`. -/
lemma workerStep_move_of_resume {caller : ResumeCaller}
    (hw : s.worker = .resumeCheck caller ∨ s.worker = .resumeFeed caller)
    (h : s.workerStep config answer = some s') : ∃ messages closes, WorkerMove s s' messages closes := by
  have hstage : s.stage = callerStage caller := by
    rcases hw with hw | hw <;> rw [stage, hw] <;> rfl
  have hstay : StageStep s s.stage (callerStage caller) [] false := by
    rw [hstage]
    exact .stay (by simp) (callerStage_or caller)
  unfold workerStep at h
  rcases hw with hw | hw <;> rw [hw] at h
  · cases answer with
    | ok =>
      exact exists_move_of_check h
        (fun hrequested => hstage ▸ stageStep_resumeRefused caller (Or.inl hrequested)) fun _ => hstay
    | _ => cases h
  · cases answer with
    | ok => exact exists_move_of_goTo h hstay
    | queueFull => exact exists_move_of_goTo h hstay
    | failed code message =>
      refine exists_move_of_goTo h ?_
      rw [hstage]
      exact .fail (by have := callerStage_or caller; tauto)
    | _ => cases h

/-- The messages about events. -/
lemma workerStep_move_of_event {site : DrainSite}
    (hw : (∃ event, s.worker = .drainEnqueue site event) ∨ s.worker = .cancelledEvent site)
    (h : s.workerStep config answer = some s') : ∃ messages closes, WorkerMove s s' messages closes := by
  have hstage : s.stage = siteStage site := by
    rcases hw with ⟨event, hw⟩ | hw <;> rw [stage, hw] <;> rfl
  have hstay : ∀ {messages}, (∀ m ∈ messages, Passing m) →
      StageStep s s.stage (siteStage site) messages false := by
    intro messages hpassing
    rw [hstage]
    exact .stay hpassing (siteStage_or site)
  unfold workerStep at h
  rcases hw with ⟨event, hw⟩ | hw <;> rw [hw] at h
  · cases answer with
    | ok =>
      cases hmessage : eventMessage config event with
      | none =>
        simp only [hmessage] at h
        exact exists_move_of_goTo h (hstay (by simp))
      | some message =>
        simp only [hmessage] at h
        exact exists_move_of_enqueue h
          (fun hrefuses => hstage ▸ stageStep_drainRefused site (Or.inr hrefuses))
          fun _ => hstay (by simpa using passing_eventMessage hmessage)
    | _ => cases h
  · cases answer with
    | ok =>
      refine exists_move_of_check h
        (fun hrequested => hstage ▸ stageStep_drainRefused site (Or.inl hrequested)) fun _ => ?_
      rw [hstage]
      exact .fail (by have := siteStage_or site; tauto)
    | _ => cases h

/-- The steps of `handle_worker_cancellation`. -/
lemma workerStep_move_of_cancellation
    (hw : s.worker = .feedFailed ∨ s.worker = .handleCancellation ∨ s.worker = .cancelledEnqueue ∨
      ∃ code, s.worker = .cancellationClose code)
    (h : s.workerStep config answer = some s') : ∃ messages closes, WorkerMove s s' messages closes := by
  unfold workerStep at h
  rcases hw with hw | hw | hw | ⟨code, hw⟩ <;> rw [hw] at h <;> cases answer <;> try cases h; done
  · have hstage : s.stage = .interrupted := by rw [stage, hw]; rfl
    refine exists_move_of_check h (fun hrequested => hstage ▸ .handle hrequested) fun hrequested => ?_
    have hnone : s.cancellation.reason = .none := by
      simpa [requested, Cancellation.requested] using hrequested
    exact hstage ▸ .leave (by simp [hnone])
  · have hstage : s.stage = .interrupted := by rw [stage, hw]; rfl
    refine exists_move_of_goTo h ?_
    rw [hstage]
    cases hreason : s.cancellation.reason with
    | client => exact .client hreason
    | capacity => exact .capacity hreason
    | _ => exact .leave (by simp [hreason])
  · have hstage : s.stage = .cancelling := by rw [stage, hw]; rfl
    exact exists_move_of_enqueue h (fun hrefuses => hstage ▸ .cancelRefused hrefuses)
      fun hrefuses => hstage ▸ .cancel hrefuses
  · have hstage : s.stage = .cancelled := by rw [stage, hw]; rfl
    exact exists_move_of_close h (hstage ▸ .cancelClose)

/-- The steps behind a lag above the hard limit. -/
lemma workerStep_move_of_lag (hw : s.worker = .lagEnqueue ∨ s.worker = .lagClose)
    (h : s.workerStep config answer = some s') : ∃ messages closes, WorkerMove s s' messages closes := by
  unfold workerStep at h
  rcases hw with hw | hw <;> rw [hw] at h <;> cases answer <;> try cases h; done
  · have hstage : s.stage = .overloaded := by rw [stage, hw]; rfl
    exact exists_move_of_enqueue h (fun hrefuses => hstage ▸ .rejectRefused hrefuses)
      fun hrefuses => hstage ▸ .reject hrefuses
  · have hstage : s.stage = .rejected := by rw [stage, hw]; rfl
    exact exists_move_of_close h (hstage ▸ .rejectClose)

/-- The steps of `worker_failure`. -/
lemma workerStep_move_of_failure
    (hw : (∃ code message, s.worker = .failure code message) ∨
      (∃ code message, s.worker = .failureEnqueue code message) ∨ s.worker = .failureClose)
    (h : s.workerStep config answer = some s') : ∃ messages closes, WorkerMove s s' messages closes := by
  unfold workerStep at h
  rcases hw with ⟨code, message, hw⟩ | ⟨code, message, hw⟩ | hw <;> rw [hw] at h <;> cases answer <;>
    try cases h; done
  · have hstage : s.stage = .failing := by rw [stage, hw]; rfl
    exact exists_move_of_check h (fun hrequested => hstage ▸ .suppress hrequested)
      fun hrequested => hstage ▸ .goAhead hrequested
  · have hstage : s.stage = .reporting := by rw [stage, hw]; rfl
    exact exists_move_of_enqueue h (fun hrefuses => hstage ▸ .reportRefused hrefuses)
      fun hrefuses => hstage ▸ .report hrefuses code message
  · have hstage : s.stage = .reported := by rw [stage, hw]; rfl
    exact exists_move_of_close h (hstage ▸ .reportClose)

/-- The steps behind the last drain. -/
lemma workerStep_move_of_completing
    (hw : s.worker = .readFinal ∨ (∃ text, s.worker = .enqueueFinal text) ∨ s.worker = .enqueueCompleted ∨
      s.worker = .finalRefused ∨ s.worker = .completedClose)
    (h : s.workerStep config answer = some s') : ∃ messages closes, WorkerMove s s' messages closes := by
  unfold workerStep at h
  rcases hw with hw | ⟨text, hw⟩ | hw | hw | hw <;> rw [hw] at h
  · have hstage : s.stage = .completing := by rw [stage, hw]; rfl
    have hfail : ∀ {code message}, StageStep s s.stage (pointStage (.failure code message)) [] false := by
      intro code message
      rw [hstage]
      exact .fail (Or.inr (Or.inr rfl))
    cases answer with
    | completed text =>
      refine exists_move_of_goTo h ?_
      split
      · exact hstage ▸ .final
      · exact hfail
    | failed code message => exact exists_move_of_goTo h hfail
    | _ => cases h
  · have hstage : s.stage = .completing := by rw [stage, hw]; rfl
    cases answer with
    | ok =>
      exact exists_move_of_enqueue h (fun _ => hstage ▸ .refuseFinal)
        fun hrefuses => hstage ▸ .sendFinal hrefuses _ _ _
    | tooLarge => exact exists_move_of_goTo h (hstage ▸ .refuseFinal)
    | _ => cases h
  · have hstage : s.stage = .finalSent := by rw [stage, hw]; rfl
    cases answer with
    | ok =>
      exact exists_move_of_enqueue h (fun hrefuses => hstage ▸ .refuseCompleted hrefuses)
        fun hrefuses => hstage ▸ .sendCompleted hrefuses _
    | _ => cases h
  · have hstage : s.stage = .refused := by rw [stage, hw]; rfl
    cases answer with
    | ok =>
      exact exists_move_of_check h (fun hrequested => hstage ▸ .giveUp hrequested)
        fun hrequested => hstage ▸ .refusedFails hrequested
    | _ => cases h
  · have hstage : s.stage = .completed := by rw [stage, hw]; rfl
    cases answer with
    | ok => exact exists_move_of_close h (hstage ▸ .completedClose)
    | _ => cases h

/-- A step of the worker that does not find the lag above the hard limit is a step between stages. -/
theorem workerStep_move (hlag : ¬ FindsHardLag s answer) (h : s.workerStep config answer = some s') :
    ∃ messages closes, WorkerMove s s' messages closes := by
  cases hw : s.worker with
  | createStream => exact workerStep_move_of_feeding (by tauto) hlag h
  | pop => exact workerStep_move_of_feeding (by tauto) hlag h
  | feedCheck => exact workerStep_move_of_feeding (by tauto) hlag h
  | observeLag => exact workerStep_move_of_feeding (by tauto) hlag h
  | warn => exact workerStep_move_of_feeding (by tauto) hlag h
  | popCheck ended => exact workerStep_move_of_check (Or.inl ⟨ended, hw⟩) h
  | finishCheck => exact workerStep_move_of_check (Or.inr hw) h
  | drain site => exact workerStep_move_of_drain hw h
  | drainEnqueue site event => exact workerStep_move_of_event (Or.inl ⟨event, hw⟩) h
  | cancelledEvent site => exact workerStep_move_of_event (Or.inr hw) h
  | resumeCheck caller => exact workerStep_move_of_resume (Or.inl hw) h
  | resumeFeed caller => exact workerStep_move_of_resume (Or.inr hw) h
  | feedFailed => exact workerStep_move_of_cancellation (Or.inl hw) h
  | handleCancellation => exact workerStep_move_of_cancellation (Or.inr (Or.inl hw)) h
  | cancelledEnqueue => exact workerStep_move_of_cancellation (Or.inr (Or.inr (Or.inl hw))) h
  | cancellationClose code =>
    exact workerStep_move_of_cancellation (Or.inr (Or.inr (Or.inr ⟨code, hw⟩))) h
  | lagEnqueue => exact workerStep_move_of_lag (Or.inl hw) h
  | lagClose => exact workerStep_move_of_lag (Or.inr hw) h
  | failure code message => exact workerStep_move_of_failure (Or.inl ⟨code, message, hw⟩) h
  | failureEnqueue code message =>
    exact workerStep_move_of_failure (Or.inr (Or.inl ⟨code, message, hw⟩)) h
  | failureClose => exact workerStep_move_of_failure (Or.inr (Or.inr hw)) h
  | readFinal => exact workerStep_move_of_completing (Or.inl hw) h
  | enqueueFinal text => exact workerStep_move_of_completing (Or.inr (Or.inl ⟨text, hw⟩)) h
  | enqueueCompleted => exact workerStep_move_of_completing (by tauto) h
  | finalRefused => exact workerStep_move_of_completing (by tauto) h
  | completedClose => exact workerStep_move_of_completing (by tauto) h
  | done =>
    unfold workerStep at h
    rw [hw] at h
    cases answer <;> cases h

/-- A step of the worker that finds the lag above the hard limit. -/
theorem workerStep_hardLag (hlag : FindsHardLag s answer) (h : s.workerStep config answer = some s') :
    s' = (s.request .capacity).goTo .lagEnqueue := by
  obtain ⟨hw, rfl⟩ := hlag
  unfold workerStep at h
  rw [hw] at h
  exact (Option.some.inj h).symm

end Step

end SessionThreads

end Voxtral
