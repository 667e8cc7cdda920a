import Voxtral.Lib.Runs
import Voxtral.Server.WorkerStages

/-!
# The terminal message of a realtime session

When no failure of the IO thread meets a session that is already given up or about to end, no lag above
the hard limit meets a request to cancel, and the worker does not fail behind a `session.cancel`, the
worker returns with the close requested and one terminal message enqueued.  Otherwise there can be two
terminal messages, or none and no close.
-/

namespace Voxtral

namespace SessionThreads

/-- The number of terminal messages enqueued so far. -/
def terminalCount (s : SessionThreads) : ℕ := s.enqueued.countP ServerMessage.isTerminal

/-- A `session.completed` stands behind a `transcript.final`. -/
def CompletedBehindFinal (messages : List ServerMessage) : Prop :=
  ∀ front rest sequence, messages = front ++ ServerMessage.completed sequence :: rest →
    ∃ m ∈ front, m.isFinal = true

/-- No cancellation is requested, no terminal message enqueued, and the worker still checks for a
cancellation before it enqueues one. -/
def MayGiveUp (s : SessionThreads) : Prop :=
  s.requested = false ∧ s.terminalCount = 0 ∧
    s.stage ≠ .reporting ∧ s.stage ≠ .completing ∧ s.stage ≠ .finalSent

/-- A step that does not disturb the end of the session. -/
def Undisturbed (s : SessionThreads) : SessionCall → Prop
  | .worker answer =>
    (FindsHardLag s answer → s.requested = false) ∧
      (s.stage = .failing → s.cancellation.reason ≠ .client)
  | .io (.readInvalid _ _) => s.closed = true ∨ s.MayGiveUp
  | .io .idleTimeout => s.closed = true ∨ s.inputEnded = true ∨ s.MayGiveUp
  | .io .shutdown => s.closed = true ∨ s.MayGiveUp
  | .io _ => True

end SessionThreads

/-! ## The invariant -/

namespace WorkerStage

/-- Behind the last `input_queue_.pop`. -/
def ending : WorkerStage → Bool
  | .finishing | .completing | .finalSent | .completed | .refused => true
  | _ => false

/-- On the way through `handle_worker_cancellation`. -/
def leaving : WorkerStage → Bool
  | .interrupted | .cancelling | .cancelled => true
  | _ => false

/-- On the way out of `observe_lag`. -/
def overloading : WorkerStage → Bool
  | .overloaded | .rejected => true
  | _ => false

/-- Where a terminal message or the close is enqueued without a further check. -/
def committed : WorkerStage → Bool
  | .reporting | .reported | .completing | .finalSent | .completed | .cancelling | .cancelled => true
  | _ => false

/-- The terminal messages the worker has enqueued on its way to a stage. -/
def written : WorkerStage → ℕ
  | .reported | .completed | .cancelled | .rejected | .done => 1
  | _ => 0

/-- Without a terminal message, the stages that go on to one are left. -/
lemma committed_eq_false {stage : WorkerStage} (hleaving : stage.leaving = false)
    (hwritten : stage.written = 0) (hreporting : stage ≠ .reporting) (hcompleting : stage ≠ .completing)
    (hfinalSent : stage ≠ .finalSent) : stage.committed = false := by
  cases stage <;> simp_all [committed, written, leaving]

end WorkerStage

namespace SessionThreads

/-- The terminal messages and the close behind a failure of the IO thread. -/
def IoAgrees : IoPoint → ℕ → Bool → Prop
  | .cancelInput (some _), count, close => count = 0 ∧ close = false
  | .enqueueFailure _, count, close => count = 0 ∧ close = false
  | .requestClose _, count, close => count = 1 ∧ close = false
  | _, count, close => count = 1 ∧ close = true

/-- The IO thread does not give the session up. -/
def IoCalm (io : IoPoint) : Prop := io = .idle ∨ io = .cancelInput none

/-- How the stage of the worker, the point of the IO thread, the terminal messages and the close fit
together, for each reason to cancel. -/
def Agrees : CancelReason → WorkerStage → IoPoint → ℕ → Bool → Prop
  | .none, stage, io, count, close =>
    io = .idle ∧ stage.leaving = false ∧ stage.overloading = false ∧ count = stage.written ∧
      (close = true ↔ stage = .done)
  | .client, stage, io, count, close =>
    IoCalm io ∧ stage.ending = false ∧ stage.overloading = false ∧ count = stage.written ∧
      (close = true ↔ stage = .done)
  | .capacity, stage, io, count, close =>
    IoCalm io ∧
      (stage = .overloaded ∧ count = 0 ∧ close = false ∨ stage = .rejected ∧ count = 1 ∧ close = false ∨
        (stage = .interrupted ∨ stage = .cancelled ∨ stage = .done) ∧ count = 1 ∧ close = true)
  | .protocol, stage, io, count, close =>
    stage.committed = false ∧ stage.overloading = false ∧ IoAgrees io count close
  | .shutdown, stage, io, count, close =>
    stage.committed = false ∧ stage.overloading = false ∧ IoAgrees io count close
  | .disconnect, _, _, _, _ => False

/-- What holds in every state of a session that is not disturbed. -/
structure Consistent (s : SessionThreads) : Prop where
  finishing : s.inputFinishing = true → s.inputEnded = true ∧ s.readInProgress = false
  ending : s.stage.ending = true → s.inputFinishing = true
  cancelled : s.inputCancelled = true → s.requested = true ∨ s.closed = true
  closed : s.closed = true → s.closeAfterDrain = true
  client : s.cancellation.reason = .client →
    s.inputEnded = true ∧ s.readInProgress = false ∧ s.inputFinishing = false
  behindFinal : CompletedBehindFinal s.enqueued
  finalSent : s.stage = .finalSent → ∃ m ∈ s.enqueued, m.isFinal = true
  agrees : Agrees s.cancellation.reason s.stage s.io s.terminalCount s.closeAfterDrain

/-- A session begins consistent. -/
lemma consistent_init : Consistent {} where
  finishing := by simp
  ending := by simp [stage, pointStage, WorkerStage.ending]
  cancelled := by simp
  closed := by simp
  client := by simp
  behindFinal := by simp [CompletedBehindFinal]
  finalSent := by simp [stage, pointStage]
  agrees := by
    simp [Agrees, stage, pointStage, WorkerStage.leaving, WorkerStage.overloading, WorkerStage.written,
      terminalCount]

/-! ## Messages -/

/-- Messages behind messages, where each completion has a final text in front of it. -/
lemma CompletedBehindFinal.append {messages more : List ServerMessage}
    (h : CompletedBehindFinal messages)
    (hmore : ∀ front rest sequence, more = front ++ ServerMessage.completed sequence :: rest →
      ∃ m ∈ messages ++ front, m.isFinal = true) :
    CompletedBehindFinal (messages ++ more) := by
  intro front rest sequence heq
  rcases List.append_eq_append_iff.mp heq with ⟨added, hfront, hmore'⟩ | ⟨added, hmessages, hrest⟩
  · obtain ⟨m, hm, hfinal⟩ := hmore added rest sequence hmore'
    exact ⟨m, hfront ▸ hm, hfinal⟩
  · cases added with
    | nil =>
      obtain ⟨m, hm, hfinal⟩ := hmore [] rest sequence (by simpa using hrest.symm)
      exact ⟨m, by simpa [hmessages] using hm, hfinal⟩
    | cons first added =>
      rw [List.cons_append, List.cons.injEq] at hrest
      exact h front added sequence (by rw [hmessages, hrest.1])

/-- Messages without a `session.completed`. -/
lemma CompletedBehindFinal.append_of_not_mem {messages more : List ServerMessage}
    (h : CompletedBehindFinal messages) (hmore : ∀ sequence, ServerMessage.completed sequence ∉ more) :
    CompletedBehindFinal (messages ++ more) := by
  apply h.append
  intro front rest sequence heq
  exact absurd (by simp [heq]) (hmore sequence)

/-! ## Steps of the worker -/

/-- A session without a failure of the IO thread is open until the worker has returned. -/
lemma Consistent.not_interrupted {s : SessionThreads} (hs : Consistent s)
    (hnone : s.cancellation.reason = .none) (hstage : s.stage ≠ .done) :
    s.requested = false ∧ s.refuses = false ∧ s.inputCancelled = false := by
  have hagrees : Agrees .none s.stage s.io s.terminalCount s.closeAfterDrain := hnone ▸ hs.agrees
  have hclose : s.closeAfterDrain ≠ true := fun hclose => hstage (hagrees.2.2.2.2.mp hclose)
  have hclosed : s.closed = false := by
    cases hclosed : s.closed with
    | true => exact absurd (hs.closed hclosed) hclose
    | false => rfl
  have hrequested : s.requested = false := by simp [requested, Cancellation.requested, hnone]
  refine ⟨hrequested, refuses_eq_false.mpr ⟨hclosed, by simp [hnone]⟩, ?_⟩
  cases hcancelled : s.inputCancelled with
  | true => rcases hs.cancelled hcancelled with h | h <;> simp_all
  | false => rfl

/-- Behind a client's cancel, or without one, the queue is open until the worker has returned. -/
lemma Consistent.refuses_eq_false {s : SessionThreads} (hs : Consistent s)
    (hclose : s.closeAfterDrain = false) : s.refuses = false := by
  have hclosed : s.closed = false := by
    cases hclosed : s.closed with
    | true => exact absurd (hs.closed hclosed) (by simp [hclose])
    | false => rfl
  refine SessionThreads.refuses_eq_false.mpr ⟨hclosed, ?_⟩
  intro hdisconnect
  have hagrees := hs.agrees
  rw [hdisconnect] at hagrees
  exact hagrees

/-- Passing messages are not terminal. -/
lemma countP_passing {messages : List ServerMessage} (h : ∀ m ∈ messages, Passing m) :
    messages.countP ServerMessage.isTerminal = 0 := by
  rw [List.countP_eq_zero]
  intro m hm
  simp [(h m hm).1]

section StageSteps

variable {s : SessionThreads} {here next : WorkerStage} {messages : List ServerMessage} {closes : Bool}
  {io : IoPoint} {count : ℕ} {close : Bool}

/-- Without a request to cancel. -/
lemma Agrees.step_none (hreason : s.cancellation.reason = .none)
    (hopen : here ≠ .done → s.refuses = false ∧ s.inputCancelled = false)
    (h : Agrees .none here io count close) (hstep : StageStep s here next messages closes) :
    Agrees .none next io (count + messages.countP ServerMessage.isTerminal) (close || closes) := by
  obtain ⟨hio, hleaving, hoverloading, hcount, hclose⟩ := h
  have hrequested : s.requested = false := by simp [requested, Cancellation.requested, hreason]
  refine ⟨hio, ?_⟩
  cases hstep with
  | stay hpassing hstage =>
    rw [countP_passing hpassing]
    simpa [hleaving, hoverloading, hcount] using hclose
  | fail hstage =>
    rcases hstage with rfl | rfl | rfl <;>
      simp_all [WorkerStage.leaving, WorkerStage.overloading, WorkerStage.written]
  | interrupt hwhy hstage =>
    have hne : here ≠ .done := by rintro rfl; simp at hstage
    simp [hrequested, hopen hne] at hwhy
  | _ => simp_all [WorkerStage.leaving, WorkerStage.overloading, WorkerStage.written,
      ServerMessage.isTerminal, List.countP_cons, List.countP_nil]

/-- Behind a `session.cancel`. -/
lemma Agrees.step_client (hreason : s.cancellation.reason = .client) (hinput : s.inputFinishing = false)
    (hopen : here ≠ .done → s.refuses = false) (hfailing : here ≠ .failing)
    (h : Agrees .client here io count close) (hstep : StageStep s here next messages closes) :
    Agrees .client next io (count + messages.countP ServerMessage.isTerminal) (close || closes) := by
  obtain ⟨hio, hending, hoverloading, hcount, hclose⟩ := h
  have hrequested : s.requested = true := by simp [requested, Cancellation.requested, hreason]
  refine ⟨hio, ?_⟩
  cases hstep with
  | stay hpassing hstage =>
    rw [countP_passing hpassing]
    simpa [hending, hoverloading, hcount] using hclose
  | fail hstage =>
    rcases hstage with rfl | rfl | rfl <;>
      simp_all [WorkerStage.ending, WorkerStage.overloading, WorkerStage.written]
  | interrupt hwhy hstage =>
    rcases hstage with rfl | rfl <;>
      simp_all [WorkerStage.ending, WorkerStage.overloading, WorkerStage.written]
  | _ => simp_all [WorkerStage.ending, WorkerStage.overloading, WorkerStage.written,
      ServerMessage.isTerminal, List.countP_cons, List.countP_nil]

/-- Behind a lag above the hard limit. -/
lemma Agrees.step_capacity (hreason : s.cancellation.reason = .capacity)
    (hopen : close = false → s.refuses = false)
    (h : Agrees .capacity here io count close) (hstep : StageStep s here next messages closes) :
    Agrees .capacity next io (count + messages.countP ServerMessage.isTerminal) (close || closes) := by
  obtain ⟨hio, hplace⟩ := h
  have hrequested : s.requested = true := by simp [requested, Cancellation.requested, hreason]
  refine ⟨hio, ?_⟩
  cases hstep with
  | stay hpassing hstage => rcases hstage with rfl | rfl <;> simp at hplace
  | fail hstage => rcases hstage with rfl | rfl | rfl <;> simp at hplace
  | interrupt hwhy hstage => rcases hstage with rfl | rfl <;> simp at hplace
  | _ => simp_all [ServerMessage.isTerminal, capacityExceeded, List.countP_cons, List.countP_nil]

/-- Behind a failure of the IO thread. -/
lemma Agrees.step_given_up (hclient : s.cancellation.reason ≠ .client)
    (hcapacity : s.cancellation.reason ≠ .capacity) (hrequested : s.requested = true)
    (h : here.committed = false ∧ here.overloading = false ∧ IoAgrees io count close)
    (hstep : StageStep s here next messages closes) :
    next.committed = false ∧ next.overloading = false ∧
      IoAgrees io (count + messages.countP ServerMessage.isTerminal) (close || closes) := by
  obtain ⟨hcommitted, hoverloading, hio⟩ := h
  cases hstep with
  | stay hpassing hstage =>
    rw [countP_passing hpassing]
    simpa [hcommitted, hoverloading] using hio
  | _ => simp_all [WorkerStage.committed, WorkerStage.overloading]

/-- The input has ended in every stage behind the last pop. -/
lemma StageStep.ending_or (hstep : StageStep s here next messages closes)
    (hending : next.ending = true) : here.ending = true ∨ s.inputFinishing = true := by
  cases hstep with
  | ended hfinishing => exact Or.inr hfinishing
  | _ => simp_all [WorkerStage.ending]

/-- Only the stage behind the final transcript enqueues `session.completed`. -/
lemma StageStep.finalSent_of_completed (hstep : StageStep s here next messages closes) {sequence : ℕ}
    (h : ServerMessage.completed sequence ∈ messages) :
    here = .finalSent ∧ messages = [.completed sequence] := by
  cases hstep with
  | stay hpassing => simpa [Passing, ServerMessage.isTerminal] using (hpassing _ h).1
  | sendCompleted hrefuses sent =>
    rw [List.mem_singleton.mp h]
    exact ⟨rfl, rfl⟩
  | _ => simp_all [capacityExceeded]

/-- The final transcript is enqueued on the way to its stage. -/
lemma StageStep.exists_final (hstep : StageStep s here next messages closes)
    (hnext : next = .finalSent) : ∃ m ∈ messages, m.isFinal = true := by
  subst hnext
  cases hstep with
  | stay hpassing hstage => simp at hstage
  | sendFinal hrefuses sequence text audioEndMs => exact ⟨.final sequence text audioEndMs, by simp, rfl⟩

end StageSteps

/-- A step of the worker keeps the agreement. -/
lemma Consistent.agrees_stageStep {s : SessionThreads} {next : WorkerStage}
    {messages : List ServerMessage} {closes : Bool} (hs : Consistent s)
    (hfailing : s.stage = .failing → s.cancellation.reason ≠ .client)
    (hstep : StageStep s s.stage next messages closes) :
    Agrees s.cancellation.reason next s.io (s.terminalCount + messages.countP ServerMessage.isTerminal)
      (s.closeAfterDrain || closes) := by
  have hagrees := hs.agrees
  cases hreason : s.cancellation.reason <;> rw [hreason] at hagrees
  case none =>
    exact hagrees.step_none hreason (fun hne => (hs.not_interrupted hreason hne).2) hstep
  case client =>
    have hinput := (hs.client hreason).2.2
    have hopen : s.stage ≠ .done → s.refuses = false := by
      intro hne
      apply hs.refuses_eq_false
      cases hclose : s.closeAfterDrain with
      | true => exact absurd (hagrees.2.2.2.2.mp hclose) hne
      | false => rfl
    exact hagrees.step_client hreason hinput hopen (fun h => hfailing h hreason) hstep
  case capacity => exact hagrees.step_capacity hreason hs.refuses_eq_false hstep
  case disconnect => exact hagrees.elim
  all_goals
    exact Agrees.step_given_up (by simp [hreason]) (by simp [hreason])
      (by simp [requested, Cancellation.requested, hreason]) hagrees hstep

/-- A step of the worker between stages. -/
lemma Consistent.worker {s s' : SessionThreads} {messages : List ServerMessage} {closes : Bool}
    (hs : Consistent s) (hfailing : s.stage = .failing → s.cancellation.reason ≠ .client)
    (hmove : WorkerMove s s' messages closes) : Consistent s' where
  finishing := by
    rw [hmove.inputFinishing, hmove.inputEnded, hmove.readInProgress]
    exact hs.finishing
  ending := by
    intro hending
    rw [hmove.inputFinishing]
    rcases hmove.step.ending_or hending with hending | hfinishing
    · exact hs.ending hending
    · exact hfinishing
  cancelled := by
    rw [requested, hmove.inputCancelled, hmove.cancellation, hmove.closed]
    exact hs.cancelled
  closed := by
    intro hclosed
    rw [hmove.closed] at hclosed
    rw [hmove.closeAfterDrain, hs.closed hclosed]
    rfl
  client := by
    rw [hmove.cancellation, hmove.inputEnded, hmove.readInProgress, hmove.inputFinishing]
    exact hs.client
  behindFinal := by
    rw [hmove.enqueued]
    apply hs.behindFinal.append
    intro front rest sequence heq
    have hmem : ServerMessage.completed sequence ∈ messages := by simp [heq]
    obtain ⟨hstage, -⟩ := hmove.step.finalSent_of_completed hmem
    obtain ⟨m, hm, hfinal⟩ := hs.finalSent hstage
    exact ⟨m, List.mem_append_left _ hm, hfinal⟩
  finalSent := by
    intro hstage
    obtain ⟨m, hm, hfinal⟩ := hmove.step.exists_final hstage
    rw [hmove.enqueued]
    exact ⟨m, List.mem_append_right _ hm, hfinal⟩
  agrees := by
    have hagrees := hs.agrees_stageStep hfailing hmove.step
    have hcount : s'.terminalCount = s.terminalCount + messages.countP ServerMessage.isTerminal := by
      rw [terminalCount, hmove.enqueued, List.countP_append, terminalCount]
    rw [hmove.cancellation, hmove.io, hcount, hmove.closeAfterDrain]
    exact hagrees

/-- A lag above the hard limit, without a request to cancel. -/
lemma Consistent.hardLag {s : SessionThreads} {answer : WorkerAnswer} (hs : Consistent s)
    (hlag : FindsHardLag s answer) (hrequested : s.requested = false) :
    Consistent ((s.request .capacity).goTo .lagEnqueue) := by
  have hnone : s.cancellation.reason = .none := by
    simpa [requested, Cancellation.requested] using hrequested
  have hstage : s.stage = .feeding := by rw [stage, hlag.1]; rfl
  have hcapacity : ((s.request .capacity).goTo .lagEnqueue).cancellation.reason = .capacity := by
    simp [goTo, request, Cancellation.request, hnone]
  have hagrees := hs.agrees
  rw [hnone, hstage] at hagrees
  obtain ⟨hio, -, -, hcount, hclose⟩ := hagrees
  have hopen : s.closeAfterDrain = false := by simpa using hclose
  exact
    { finishing := hs.finishing
      ending := by simp [stage, goTo, pointStage, WorkerStage.ending]
      cancelled := by
        intro _
        exact Or.inl (by rw [requested, Cancellation.requested, hcapacity]; rfl)
      closed := hs.closed
      client := by simp [hcapacity]
      behindFinal := hs.behindFinal
      finalSent := by simp [stage, goTo, pointStage]
      agrees := by
        rw [hcapacity]
        exact ⟨Or.inl hio, Or.inl ⟨rfl, hcount, hopen⟩⟩ }

/-! ## Steps of the IO thread -/

section IoSteps

variable {s s' : SessionThreads}

/-- A message of an open session is counted if it is terminal. -/
lemma terminalCount_enqueue {message : ServerMessage} (hclosed : s.closed = false) :
    (s.enqueue message).terminalCount =
      s.terminalCount + if message.isTerminal = true then 1 else 0 := by
  simp [terminalCount, enqueue, hclosed, List.countP_append, List.countP_singleton]

/-- The end of a read without a message to the session's end. -/
lemma Consistent.readDone (hs : Consistent s) : Consistent s.readDone where
  finishing := fun h => ⟨(hs.finishing h).1, rfl⟩
  ending := hs.ending
  cancelled := hs.cancelled
  closed := hs.closed
  client := fun h => ⟨(hs.client h).1, rfl, (hs.client h).2.2⟩
  behindFinal := hs.behindFinal
  finalSent := hs.finalSent
  agrees := hs.agrees

/-- `pong`. -/
lemma Consistent.enqueuePong (hs : Consistent s) (id : String) : Consistent (s.enqueue (.pong id)) := by
  cases hclosed : s.closed with
  | true =>
    have hsame : s.enqueue (.pong id) = s := by simp [enqueue, hclosed]
    rw [hsame]
    exact hs
  | false =>
    have hcount : (s.enqueue (.pong id)).terminalCount = s.terminalCount + 0 :=
      terminalCount_enqueue hclosed
    have henqueue : s.enqueue (.pong id) =
        { s with enqueued := s.enqueued ++ [.pong id], outbound := s.outbound ++ [.pong id] } := by
      simp [enqueue, hclosed]
    rw [henqueue] at hcount ⊢
    exact
      { finishing := hs.finishing
        ending := hs.ending
        cancelled := hs.cancelled
        closed := hs.closed
        client := hs.client
        behindFinal := hs.behindFinal.append_of_not_mem (by simp)
        finalSent := by
          intro hstage
          obtain ⟨m, hm, hfinal⟩ := hs.finalSent hstage
          exact ⟨m, List.mem_append_left _ hm, hfinal⟩
        agrees := by
          rw [hcount]
          exact hs.agrees }

/-- `input_audio.end`. -/
lemma Consistent.readFinish (hs : Consistent s) (hread : s.readInProgress = true) :
    Consistent { s.readDone with inputEnded := true, inputFinishing := true } where
  finishing := fun _ => ⟨rfl, rfl⟩
  ending := fun _ => rfl
  cancelled := hs.cancelled
  closed := hs.closed
  client := fun h => absurd hread (by simp [(hs.client h).2.1])
  behindFinal := hs.behindFinal
  finalSent := hs.finalSent
  agrees := hs.agrees

/-- The input has not ended while a read is in progress. -/
lemma Consistent.ending_eq_false (hs : Consistent s) (hread : s.readInProgress = true) :
    s.inputFinishing = false ∧ s.stage.ending = false := by
  have hfinishing : s.inputFinishing = false := by
    cases hfinishing : s.inputFinishing with
    | true => exact absurd hread (by simp [(hs.finishing hfinishing).2])
    | false => rfl
  refine ⟨hfinishing, ?_⟩
  cases hending : s.stage.ending with
  | true => exact absurd (hs.ending hending) (by simp [hfinishing])
  | false => rfl

/-- `session.cancel`. -/
lemma Consistent.readCancel (hs : Consistent s) (hio : s.io = .idle) (hread : s.readInProgress = true) :
    Consistent { s.readDone.request .client with inputEnded := true, io := .cancelInput none } := by
  have hended := hs.ending_eq_false hread
  have hagrees := hs.agrees
  rw [hio] at hagrees
  exact
    { finishing := fun _ => ⟨rfl, rfl⟩
      ending := hs.ending
      cancelled := by
        intro hcancelled
        refine Or.inl ?_
        by_cases hnone : s.cancellation.reason = .none <;>
          simp [requested, Cancellation.requested, request, Cancellation.request, SessionThreads.readDone, hnone]
      closed := hs.closed
      client := fun _ => ⟨rfl, rfl, hended.1⟩
      behindFinal := hs.behindFinal
      finalSent := hs.finalSent
      agrees := by
        show Agrees (s.cancellation.request .client).reason s.stage (.cancelInput none) s.terminalCount
          s.closeAfterDrain
        cases hreason : s.cancellation.reason <;> rw [hreason] at hagrees
        case none =>
          obtain ⟨-, -, hoverloading, hcount, hclose⟩ := hagrees
          have hclient : (s.cancellation.request .client).reason = .client := by
            simp [Cancellation.request, hreason]
          rw [hclient]
          exact ⟨Or.inr rfl, hended.2, hoverloading, hcount, hclose⟩
        case disconnect => exact hagrees.elim
        all_goals
          have hsame : (s.cancellation.request .client).reason = s.cancellation.reason := by
            simp [Cancellation.request, hreason]
          rw [hsame, hreason]
        case client => exact ⟨Or.inr rfl, hagrees.2⟩
        case capacity => exact ⟨Or.inr rfl, hagrees.2⟩
        case protocol => exact hagrees
        case shutdown => exact hagrees }

/-- `protocol_failure` or `initiate_shutdown` of a session that may be given up. -/
lemma Consistent.beginFailure (hs : Consistent s) (failure : IoFailure)
    (h : s.closed = true ∨ s.MayGiveUp) : Consistent (s.beginFailure failure) := by
  cases hclosed : s.closed with
  | true =>
    have hsame : s.beginFailure failure = s := by simp [SessionThreads.beginFailure, hclosed]
    rw [hsame]
    exact hs
  | false =>
    obtain ⟨hrequested, hcount, hreporting, hcompleting, hfinalSent⟩ :=
      h.resolve_left (by simp [hclosed])
    have hnone : s.cancellation.reason = .none := by
      simpa [requested, Cancellation.requested] using hrequested
    have hagrees := hs.agrees
    rw [hnone] at hagrees
    obtain ⟨-, hleaving, hoverloading, hwritten, hclose⟩ := hagrees
    have hcommitted : s.stage.committed = false :=
      WorkerStage.committed_eq_false hleaving (hcount ▸ hwritten.symm) hreporting hcompleting hfinalSent
    have hopen : s.closeAfterDrain = false := by
      cases hclosing : s.closeAfterDrain with
      | true =>
        rw [hclose.mp hclosing, hcount] at hwritten
        cases hwritten
      | false => rfl
    have hreason : (s.cancellation.request (failureReason failure)).reason = failureReason failure := by
      cases failure <;> simp [Cancellation.request, failureReason, hnone]
    have hbegin : s.beginFailure failure =
        { s.request (failureReason failure) with
          inputEnded := s.inputEnded ∨ failure ≠ .shutdown
          io := .cancelInput (some failure) } := by
      simp [SessionThreads.beginFailure, hclosed]
    rw [hbegin]
    exact
      { finishing := by
          intro hfinishing
          exact ⟨by simp [(hs.finishing hfinishing).1], (hs.finishing hfinishing).2⟩
        ending := hs.ending
        cancelled := by
          intro _
          refine Or.inl ?_
          show decide ((s.cancellation.request (failureReason failure)).reason ≠ .none) = true
          rw [hreason]
          cases failure <;> rfl
        closed := hs.closed
        client := by
          intro hclient
          have : failureReason failure = .client := hreason ▸ hclient
          cases failure <;> cases this
        behindFinal := hs.behindFinal
        finalSent := hs.finalSent
        agrees := by
          show Agrees (s.cancellation.request (failureReason failure)).reason s.stage
            (.cancelInput (some failure)) s.terminalCount s.closeAfterDrain
          rw [hreason]
          cases failure <;> exact ⟨hcommitted, hoverloading, hcount, hopen⟩ }

/-- Only a failure of the IO thread, or a cancel, puts the handler behind its first access. -/
lemma Consistent.ioAgrees (hs : Consistent s) (hio : ¬ IoCalm s.io) :
    (s.cancellation.reason = .protocol ∨ s.cancellation.reason = .shutdown) ∧
      s.stage.committed = false ∧ s.stage.overloading = false ∧
      IoAgrees s.io s.terminalCount s.closeAfterDrain := by
  have hagrees := hs.agrees
  cases hreason : s.cancellation.reason <;> rw [hreason] at hagrees
  case none => exact absurd (Or.inl hagrees.1) hio
  case client => exact absurd hagrees.1 hio
  case capacity => exact absurd hagrees.1 hio
  case disconnect => exact hagrees.elim
  case protocol => exact ⟨Or.inl rfl, hagrees⟩
  case shutdown => exact ⟨Or.inr rfl, hagrees⟩

/-- `input_queue_.cancel()`. -/
lemma Consistent.cancelInput (hs : Consistent s) {failure : Option IoFailure}
    (hio : s.io = .cancelInput failure) {next : IoPoint}
    (hnext : next = match failure with
      | none => .idle
      | some failure => .enqueueFailure failure) :
    Consistent { s with inputCancelled := true, io := next } where
  finishing := hs.finishing
  ending := hs.ending
  cancelled := by
    intro _
    refine Or.inl ?_
    have hagrees := hs.agrees
    rw [hio] at hagrees
    cases hreason : s.cancellation.reason with
    | none =>
      rw [hreason] at hagrees
      exact absurd hagrees.1 (by simp)
    | _ => simp [requested, Cancellation.requested, hreason]
  closed := hs.closed
  client := hs.client
  behindFinal := hs.behindFinal
  finalSent := hs.finalSent
  agrees := by
    have hagrees := hs.agrees
    rw [hio] at hagrees
    show Agrees s.cancellation.reason s.stage next s.terminalCount s.closeAfterDrain
    subst hnext
    cases failure <;> cases hreason : s.cancellation.reason <;> rw [hreason] at hagrees <;>
      simp [Agrees, IoCalm, IoAgrees] at hagrees ⊢ <;> exact hagrees

/-- Behind a failure of the IO thread, the agreement is the one of its handler. -/
lemma agrees_of_io {stage : WorkerStage} {io : IoPoint} {count : ℕ} {close : Bool} {reason : CancelReason}
    (hreason : reason = .protocol ∨ reason = .shutdown) (hcommitted : stage.committed = false)
    (hoverloading : stage.overloading = false) (hio : IoAgrees io count close) :
    Agrees reason stage io count close := by
  rcases hreason with rfl | rfl <;> exact ⟨hcommitted, hoverloading, hio⟩

/-- The fatal error of a failure. -/
lemma Consistent.enqueueFailure (hs : Consistent s) {failure : IoFailure}
    (hio : s.io = .enqueueFailure failure) :
    Consistent { s.enqueue (failureMessage failure) with io := .requestClose failure } := by
  obtain ⟨hreason, hcommitted, hoverloading, hagrees⟩ := hs.ioAgrees (by simp [IoCalm, hio])
  rw [hio] at hagrees
  obtain ⟨hcount, hclose⟩ := hagrees
  have hclosed : s.closed = false := by
    cases hclosed : s.closed with
    | true => exact absurd (hs.closed hclosed) (by simp [hclose])
    | false => rfl
  have hterminal : (failureMessage failure).isTerminal = true := by cases failure <;> rfl
  have hterminals : (s.enqueue (failureMessage failure)).terminalCount = 1 := by
    rw [terminalCount_enqueue hclosed, hcount, hterminal, if_pos rfl]
  have henqueue : s.enqueue (failureMessage failure) =
      { s with enqueued := s.enqueued ++ [failureMessage failure]
               outbound := s.outbound ++ [failureMessage failure] } := by
    simp [enqueue, hclosed]
  rw [henqueue] at hterminals ⊢
  exact
    { finishing := hs.finishing
      ending := hs.ending
      cancelled := hs.cancelled
      closed := hs.closed
      client := hs.client
      behindFinal := by
        apply hs.behindFinal.append_of_not_mem
        intro sequence
        cases failure <;> simp [failureMessage]
      finalSent := by
        intro hstage
        obtain ⟨m, hm, hfinal⟩ := hs.finalSent hstage
        exact ⟨m, List.mem_append_left _ hm, hfinal⟩
      agrees := agrees_of_io hreason hcommitted hoverloading ⟨hterminals, hclose⟩ }

/-- The close behind the fatal error of a failure. -/
lemma Consistent.requestClose (hs : Consistent s) {failure : IoFailure}
    (hio : s.io = .requestClose failure) (code : CloseCode) :
    Consistent { s.requestCloseAfterDrain code with io := .idle } := by
  obtain ⟨hreason, hcommitted, hoverloading, hagrees⟩ := hs.ioAgrees (by simp [IoCalm, hio])
  rw [hio] at hagrees
  obtain ⟨hcount, hclose⟩ := hagrees
  have hrequest : s.requestCloseAfterDrain code =
      { s with closeAfterDrain := true, closeCode := code } := by
    simp [requestCloseAfterDrain, hclose]
  rw [hrequest]
  exact
    { finishing := hs.finishing
      ending := hs.ending
      cancelled := hs.cancelled
      closed := fun _ => rfl
      client := hs.client
      behindFinal := hs.behindFinal
      finalSent := hs.finalSent
      agrees := agrees_of_io hreason hcommitted hoverloading ⟨hcount, rfl⟩ }

/-- The accesses of a handler behind its first one. -/
lemma Consistent.proceed (hs : Consistent s) (h : s.proceed = some s') : Consistent s' := by
  unfold SessionThreads.proceed at h
  split at h
  case h_1 => cases h
  case h_2 hio =>
    rw [← Option.some.inj h]
    exact hs.cancelInput hio rfl
  case h_3 failure hio =>
    rw [← Option.some.inj h]
    exact hs.cancelInput hio rfl
  case h_4 failure hio =>
    rw [← Option.some.inj h]
    exact hs.enqueueFailure hio
  case h_5 failure hio =>
    rw [← Option.some.inj h]
    exact hs.requestClose hio _

/-- The queue is drained, and the transport closed. -/
lemma Consistent.finishSession (hs : Consistent s) (hclose : s.closeAfterDrain = true) :
    Consistent s.finishSession where
  finishing := hs.finishing
  ending := hs.ending
  cancelled := fun _ => Or.inr rfl
  closed := fun _ => hclose
  client := hs.client
  behindFinal := hs.behindFinal
  finalSent := hs.finalSent
  agrees := hs.agrees

/-- The next read begins. -/
lemma Consistent.readNext (hs : Consistent s) (hended : s.inputEnded = false) :
    Consistent { s with readInProgress := true } where
  finishing := fun h => absurd (hs.finishing h).1 (by simp [hended])
  ending := hs.ending
  cancelled := hs.cancelled
  closed := hs.closed
  client := fun h => absurd (hs.client h).1 (by simp [hended])
  behindFinal := hs.behindFinal
  finalSent := hs.finalSent
  agrees := hs.agrees

/-- A write completes. -/
lemma Consistent.write (hs : Consistent s) (outbound : List ServerMessage) :
    Consistent { s with outbound := outbound } where
  finishing := hs.finishing
  ending := hs.ending
  cancelled := hs.cancelled
  closed := hs.closed
  client := hs.client
  behindFinal := hs.behindFinal
  finalSent := hs.finalSent
  agrees := hs.agrees

/-- A handler that does not disturb the session begins. -/
lemma Consistent.handle (hs : Consistent s) (hidle : s.io = .idle) {call : IoCall}
    (hcalm : s.Undisturbed (.io call)) (h : s.handle call = some s') : Consistent s' := by
  unfold SessionThreads.handle at h
  cases call with
  | readAudio =>
    obtain ⟨-, h⟩ := Option.ite_none_right_eq_some.mp h
    rw [← Option.some.inj h]
    exact hs.readDone
  | readPing id =>
    obtain ⟨-, h⟩ := Option.ite_none_right_eq_some.mp h
    rw [← Option.some.inj h]
    exact hs.readDone.enqueuePong id
  | readFinish =>
    obtain ⟨⟨hread, -⟩, h⟩ := Option.ite_none_right_eq_some.mp h
    rw [← Option.some.inj h]
    exact hs.readFinish hread
  | readCancel =>
    obtain ⟨⟨hread, -⟩, h⟩ := Option.ite_none_right_eq_some.mp h
    rw [← Option.some.inj h]
    exact hs.readCancel hidle hread
  | readInvalid code message =>
    obtain ⟨-, h⟩ := Option.ite_none_right_eq_some.mp h
    rw [← Option.some.inj h]
    exact hs.readDone.beginFailure _ hcalm
  | readNext =>
    obtain ⟨hguard, h⟩ := Option.ite_none_left_eq_some.mp h
    rw [← Option.some.inj h]
    apply hs.readNext
    simpa using fun hended => hguard (Or.inr (Or.inr (Or.inl hended)))
  | idleTimeout =>
    simp only at h
    split at h
    · rw [← Option.some.inj h]
      exact hs
    · rename_i hguard
      rw [← Option.some.inj h]
      apply hs.beginFailure
      rcases hcalm with hclosed | hended | hmay
      · exact Or.inl hclosed
      · exact absurd (Or.inr hended) hguard
      · exact Or.inr hmay
  | shutdown =>
    rw [← Option.some.inj h]
    exact hs.beginFailure _ hcalm
  | write =>
    obtain ⟨-, h⟩ := Option.ite_none_left_eq_some.mp h
    rw [← Option.some.inj h]
    exact hs.write _
  | closeTransport =>
    obtain ⟨⟨hclose, -⟩, h⟩ := Option.ite_none_right_eq_some.mp h
    rw [← Option.some.inj h]
    exact hs.finishSession hclose
  | proceed => cases h

/-- A step of the IO thread that does not disturb the session. -/
lemma Consistent.ioStep (hs : Consistent s) {call : IoCall} (hcalm : s.Undisturbed (.io call))
    (h : s.ioStep call = some s') : Consistent s' := by
  unfold SessionThreads.ioStep at h
  split at h
  · rename_i hidle
    exact hs.handle hidle hcalm h
  · exact hs.proceed h
  · cases h

end IoSteps

/-! ## Runs -/

/-- A step that does not disturb the session. -/
lemma Consistent.step {config : RealtimeConfiguration} {s s' : SessionThreads} {call : SessionCall}
    {o : Unit} (hs : Consistent s) (hcalm : s.Undisturbed call)
    (h : sessionStep config s call = some (s', o)) : Consistent s' := by
  cases call with
  | worker answer =>
    have hstep : s.workerStep config answer = some s' := by
      simpa [sessionStep] using h
    by_cases hlag : FindsHardLag s answer
    · rw [workerStep_hardLag hlag hstep]
      exact hs.hardLag hlag (hcalm.1 hlag)
    · obtain ⟨messages, closes, hmove⟩ := workerStep_move hlag hstep
      exact hs.worker hcalm.2 hmove
  | io call =>
    have hstep : s.ioStep call = some s' := by
      simpa [sessionStep] using h
    exact hs.ioStep hcalm hstep

/-- A run that does not disturb the session. -/
lemma Consistent.of_run {config : RealtimeConfiguration} {calls : List SessionCall} {s : SessionThreads}
    {os : List Unit} (hmeets : RunMeets (sessionStep config) Undisturbed {} calls)
    (hrun : runSteps (sessionStep config) {} calls = some (s, os)) : Consistent s := by
  apply runSteps_induction_of_meets (P := fun s _ _ => Consistent s) _ consistent_init hmeets hrun
  intro s _ _ call s' o hs hcalm hstep
  exact hs.step hcalm hstep

/-- The worker has returned, and no handler of the IO thread is running. -/
lemma Consistent.ended {s : SessionThreads} (hs : Consistent s) (hdone : s.worker = .done)
    (hidle : s.io = .idle) : s.closeAfterDrain = true ∧ s.terminalCount = 1 := by
  have hstage : s.stage = .done := by rw [stage, hdone]; rfl
  have hagrees := hs.agrees
  rw [hstage, hidle] at hagrees
  cases hreason : s.cancellation.reason <;> rw [hreason] at hagrees
  case none => exact ⟨hagrees.2.2.2.2.mpr rfl, hagrees.2.2.2.1⟩
  case client => exact ⟨hagrees.2.2.2.2.mpr rfl, hagrees.2.2.2.1⟩
  case capacity => simpa [Agrees, and_comm] using hagrees.2
  case disconnect => exact hagrees.elim
  case protocol => exact ⟨hagrees.2.2.2, hagrees.2.2.1⟩
  case shutdown => exact ⟨hagrees.2.2.2, hagrees.2.2.1⟩

/-- Once the worker has returned, and no handler of the IO thread is running, the close has been requested
and one terminal message enqueued, `session.completed` only behind the final transcript: in every run whose
steps do not disturb the session. -/
theorem terminal_message_exactly_once {config : RealtimeConfiguration} {calls : List SessionCall}
    {s : SessionThreads} {os : List Unit}
    (hmeets : RunMeets (sessionStep config) Undisturbed {} calls)
    (hrun : runSteps (sessionStep config) {} calls = some (s, os)) (hdone : s.worker = .done)
    (hidle : s.io = .idle) :
    s.closeAfterDrain = true ∧ s.terminalCount = 1 ∧ CompletedBehindFinal s.enqueued := by
  have hs : Consistent s := .of_run hmeets hrun
  obtain ⟨hclose, hcount⟩ := hs.ended hdone hidle
  exact ⟨hclose, hcount, hs.behindFinal⟩

instance (s : SessionThreads) (answer : WorkerAnswer) : Decidable (FindsHardLag s answer) :=
  inferInstanceAs (Decidable (_ ∧ _))

instance (s : SessionThreads) : Decidable s.MayGiveUp := inferInstanceAs (Decidable (_ ∧ _))

instance (s : SessionThreads) (call : SessionCall) : Decidable (s.Undisturbed call) :=
  match call with
  | .worker _ => inferInstanceAs (Decidable (_ ∧ _))
  | .io (.readInvalid _ _) => inferInstanceAs (Decidable (_ ∨ _))
  | .io .idleTimeout => inferInstanceAs (Decidable (_ ∨ _))
  | .io .shutdown => inferInstanceAs (Decidable (_ ∨ _))
  | .io .readAudio => .isTrue trivial
  | .io (.readPing _) => .isTrue trivial
  | .io .readFinish => .isTrue trivial
  | .io .readCancel => .isTrue trivial
  | .io .readNext => .isTrue trivial
  | .io .proceed => .isTrue trivial
  | .io .write => .isTrue trivial
  | .io .closeTransport => .isTrue trivial

/-- A terminal event of the stream. -/
def terminalEvent (type : EventType) (sequence : ℕ) : PublicEvent :=
  ⟨type, sequence, 0, .ok, false, true, false, 0, 0, []⟩

/-- A chunk is fed, and the input ends. -/
def completeCalls : List SessionCall :=
  [.worker .ok, .io .readAudio, .io .readNext, .worker .audio, .worker .ok, .worker (.feed (.ok false)),
    .worker .notReady, .worker .ok, .io .readFinish, .worker .finish, .worker .ok, .worker .ok,
    .worker (.event (terminalEvent .finalText 1)), .worker (.event (terminalEvent .completed 2)),
    .worker .notReady, .worker (.completed []), .worker .ok, .worker .ok, .worker .ok]

/-- A whole session. -/
theorem terminal_message_of_complete_session : ∃ s os,
    runSteps (sessionStep ⟨true, true⟩) {} completeCalls = some (s, os) ∧
    s.enqueued = [.final 1 [] 0, .completed 2] ∧
    s.closeAfterDrain = true ∧ s.terminalCount = 1 ∧ CompletedBehindFinal s.enqueued := by
  obtain ⟨s, os, hrun, hdone, hidle, hsent⟩ : ∃ s os,
      runSteps (sessionStep ⟨true, true⟩) {} completeCalls = some (s, os) ∧ s.worker = .done ∧
        s.io = .idle ∧ s.enqueued = [.final 1 [] 0, .completed 2] := ⟨_, _, rfl, rfl, rfl, rfl⟩
  refine ⟨s, os, hrun, hsent, terminal_message_exactly_once ?_ hrun hdone hidle⟩
  refine RunMeets.mono ?_ (runMeets_of_checkRun (c := fun s call => decide (Undisturbed s call))
    (by decide))
  intro s call hcheck
  exact of_decide_eq_true hcheck

/-- `session.cancel` comes while a chunk is fed, and then the lag is above the hard limit. -/
def cancelThenLag : List SessionCall :=
  [.worker .ok, .io .readAudio, .io .readNext, .worker .audio, .worker .ok, .worker (.feed (.ok false)),
    .worker .notReady, .io .readCancel, .io .proceed, .worker .hardLag, .worker .ok, .worker .ok,
    .worker .ok, .worker .ok, .worker .ok]

/-- `session.cancel` comes while a chunk is fed, and the feed fails. -/
def cancelThenFailure : List SessionCall :=
  [.worker .ok, .io .readAudio, .io .readNext, .worker .audio, .worker .ok,
    .worker (.feed (.failed "backend_error" "The inference backend failed.")), .worker .notReady,
    .io .readCancel, .io .proceed, .worker .ok]

/-- In the first run the client gets a fatal error and then `session.cancelled`; in the second nothing, and
the close is never requested. -/
theorem terminal_message_twice_or_never :
    (∃ s os, runSteps (sessionStep ⟨true, true⟩) {} cancelThenLag = some (s, os) ∧ s.worker = .done ∧
      s.io = .idle ∧ s.enqueued = [capacityExceeded, .cancelled] ∧ s.terminalCount ≠ 1) ∧
    ∃ s os, runSteps (sessionStep ⟨true, true⟩) {} cancelThenFailure = some (s, os) ∧ s.worker = .done ∧
      s.io = .idle ∧ s.enqueued = [] ∧ s.terminalCount ≠ 1 ∧ s.closeAfterDrain = false := by
  refine ⟨⟨_, _, rfl, rfl, rfl, rfl, by decide⟩, ⟨_, _, rfl, rfl, rfl, rfl, by decide, rfl⟩⟩

end SessionThreads

end Voxtral
