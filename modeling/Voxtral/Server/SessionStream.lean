import Voxtral.Lib.Track
import Voxtral.Server.DrainProgress
import Voxtral.Server.WorkerStages

/-!
# The worker of a session on its stream

Here the engine and the input queue no longer answer the worker of a session as they like: the answers are
those of the stream it created and of the chunks its input path hands on.  Left free are what
`observe_lag` finds and whether the outbound queue can hold the final text, and the IO thread runs as before.

Seen without the warnings and pongs, the flags of the IO thread and the close, a worker that nothing disturbs
has one way to go.  It is the way of `inferenceWorker`, whose loops know neither cancellation nor lag.
-/

namespace Voxtral

variable {α φ ε γ κ : Type*}

/-- What the worker works on: the stream it created, the rest of the chunk it feeds, and the chunks it has
still to pop. -/
structure WorkerInput (α φ ε γ κ : Type*) where
  stream : Stream α φ ε γ κ
  samples : List ℤ
  chunks : List (List ℤ)

/-- The threads of a session, and what its worker works on. -/
structure StreamSession (α φ ε γ κ : Type*) where
  threads : SessionThreads
  input : WorkerInput α φ ε γ κ

/-- What the worker makes of the status of a resumption or a finish. -/
def statusAnswer (status : PublicStatus) : WorkerAnswer :=
  if status = .queueFull then .queueFull
  else if status ≠ .ok then .failed (apiErrorCode status) (safeStatusMessage status)
  else .ok

/-- What `feed_audio` makes of the status of a feed, behind which `rest` is left of the chunk. -/
def feedAnswer (status : PublicStatus) (consumed : ℕ) (rest : List ℤ) : FeedAnswer :=
  if status = .queueFull then .queueFull (rest ≠ [])
  else if status ≠ .ok ∨ (consumed = 0 ∧ rest ≠ []) then
    let status := if status = .ok then .internalError else status
    .failed (apiErrorCode status) (safeStatusMessage status)
  else .ok (rest ≠ [])

namespace StreamSession

/-- A session whose worker starts on a new stream. -/
def start (stream : Stream α φ ε γ κ) (chunks : List (List ℤ)) : StreamSession α φ ε γ κ :=
  ⟨{}, stream, [], chunks⟩

variable [Zero α] (config : RealtimeConfiguration) (eng : Engine α φ ε γ κ)

/-- The answer at the next access of the worker; `outside` is the one that does not come from the stream or
the input queue.  Where the access checks for a cancellation first and finds one, nothing is called. -/
def answer (s : StreamSession α φ ε γ κ) (outside : WorkerAnswer) :
    Option (WorkerInput α φ ε γ κ × WorkerAnswer) :=
  let input := s.input
  match s.threads.worker with
  | .pop =>
    match input.chunks with
    | [] => some (input, .finish)
    | chunk :: chunks => some ({ input with samples := chunk, chunks := chunks }, .audio)
  | .feedCheck =>
    if s.threads.requested then some (input, .feed (.ok false))
    else
      (EngineStream.feed eng input.stream (.data input.samples)).map fun (stream, status, consumed) =>
        let rest := input.samples.drop consumed
        ({ input with stream := stream, samples := rest }, .feed (feedAnswer status consumed rest))
  | .drain _ =>
    if s.threads.requested then some (input, .notReady)
    else
      match streamPollEvent input.stream with
      | (stream, .poll (some (_, event))) => some ({ input with stream := stream }, .event event)
      | (stream, _) => some ({ input with stream := stream }, .notReady)
  | .resumeFeed _ =>
    (EngineStream.feed eng input.stream (.null 0)).map fun (stream, status, consumed) =>
      ({ input with stream := stream },
        statusAnswer (if consumed ≠ 0 then .internalError else status))
  | .finishCheck =>
    if s.threads.requested then some (input, .ok)
    else
      (EngineStream.finish eng input.stream).map fun (stream, status) =>
        ({ input with stream := stream }, statusAnswer status)
  | .readFinal =>
    some (input,
      if input.stream.lifecycle.state = .completed then .completed (EngineStream.finalText input.stream)
      else statusAnswer .internalError)
  | .handleCancellation =>
    (streamStep eng input.stream .cancel).map fun (stream, _) => ({ input with stream := stream }, .ok)
  | .observeLag => some (input, outside)
  | .enqueueFinal _ => some (input, outside)
  | _ => some (input, .ok)

/-- One step of a session on its stream. -/
def step (s : StreamSession α φ ε γ κ) : SessionCall → Option (StreamSession α φ ε γ κ × Unit)
  | .worker outside =>
    (s.answer eng outside).bind fun (input, answer) =>
      (s.threads.workerStep config answer).map fun threads => (⟨threads, input⟩, ())
  | .io call => (s.threads.ioStep call).map fun threads => (⟨threads, s.input⟩, ())

/-- The threads make a step of a session. -/
lemma step_threads {s s' : StreamSession α φ ε γ κ} {call : SessionCall}
    (h : s.step config eng call = some (s', ())) :
    ∃ call', sessionStep config s.threads call' = some (s'.threads, ()) := by
  cases call with
  | worker outside =>
    obtain ⟨⟨input, answer⟩, -, h⟩ := Option.bind_eq_some_iff.mp h
    obtain ⟨threads, hthreads, heq⟩ := Option.map_eq_some_iff.mp h
    obtain ⟨rfl, -⟩ := Prod.mk.inj heq
    exact ⟨.worker answer, by rw [sessionStep, hthreads]; rfl⟩
  | io call =>
    obtain ⟨threads, hthreads, heq⟩ := Option.map_eq_some_iff.mp h
    obtain ⟨rfl, -⟩ := Prod.mk.inj heq
    exact ⟨.io call, by rw [sessionStep, hthreads]; rfl⟩

/-- The threads of a run make a run of a session, so what holds in every such run holds of them. -/
theorem run_threads {s s' : StreamSession α φ ε γ κ} {calls : List SessionCall} {os : List Unit}
    (h : runSteps (step config eng) s calls = some (s', os)) :
    ∃ calls', runSteps (sessionStep config) s.threads calls' = some (s'.threads, os) := by
  induction calls generalizing s os with
  | nil =>
    obtain ⟨rfl, rfl⟩ := Prod.mk.inj (Option.some.inj h)
    exact ⟨[], rfl⟩
  | cons call calls ih =>
    obtain ⟨u, ⟨⟩, os', hstep, hrest, rfl⟩ := runSteps_cons_eq_some.mp h
    obtain ⟨call', hstep'⟩ := step_threads config eng hstep
    obtain ⟨calls', hrun⟩ := ih hrest
    exact ⟨call' :: calls', runSteps_cons_eq_some.mpr ⟨u.threads, (), os', hstep', hrun, rfl⟩⟩

end StreamSession

/-! ## The view of the transcript -/

/-- A message beside the course of the transcript. -/
def ServerMessage.isAside : ServerMessage → Bool
  | .pong _ | .warning => true
  | _ => false

namespace SessionThreads

variable {config : RealtimeConfiguration} {s s' : SessionThreads} {answer : WorkerAnswer}

/-- No cancellation is requested, and the session is open. -/
def Calm (s : SessionThreads) : Prop := s.requested = false ∧ s.closed = false

/-- A calm session has no reason to cancel. -/
lemma Calm.reason (hcalm : s.Calm) : s.cancellation.reason = .none := by
  simpa [requested, Cancellation.requested] using hcalm.1

/-- It refuses no message of its worker. -/
lemma Calm.refuses (hcalm : s.Calm) : s.refuses = false := by
  simp [SessionThreads.refuses, hcalm.2, hcalm.reason]

/-- While a session is calm, the IO thread gives nothing up. -/
def CalmIo (s : SessionThreads) : Prop := s.Calm → s.io = .idle ∧ s.inputCancelled = false

/-- What a calm worker goes by, and the messages of the transcript.  A warning is seen as sent already. -/
def view (s : SessionThreads) : SessionThreads where
  worker := if s.worker = .warn then .pop else s.worker
  terminal := s.terminal
  enqueued := s.enqueued.filter fun message => !message.isAside
  inputFinishing := true

/-- What was seen is seen again. -/
@[simp] lemma view_view (s : SessionThreads) : s.view.view = s.view := by
  by_cases hwarn : s.worker = .warn <;> simp [view, hwarn]

/-- A worker that goes on is seen to go on. -/
lemma goTo_view (s : SessionThreads) (point : WorkerPoint) :
    (s.view.goTo point).view = (s.goTo point).view := by
  have hview : ∀ t : SessionThreads, (t.goTo point).view =
    { t.view with worker := if point = .warn then .pop else point } := fun _ => rfl
  rw [hview, hview, view_view]

/-- A message is seen as it is enqueued. -/
lemma enqueue_view (hclosed : s.closed = false) (message : ServerMessage) (point : WorkerPoint) :
    ((s.view.enqueue message).goTo point).view = ((s.enqueue message).goTo point).view := by
  have hview : ∀ t : SessionThreads, t.closed = false → ((t.enqueue message).goTo point).view =
      { t.view with
        worker := if point = .warn then .pop else point
        enqueued := t.view.enqueued ++ [message].filter fun message => !message.isAside } := by
    intro t ht
    have henqueue : t.enqueue message =
        { t with enqueued := t.enqueued ++ [message], outbound := t.outbound ++ [message] } := by
      simp [enqueue, ht]
    rw [henqueue, view, goTo, List.filter_append]
    rfl
  rw [hview _ rfl, hview _ hclosed, view_view]

/-- A request to close is not seen. -/
lemma requestCloseAfterDrain_view (s : SessionThreads) (code : CloseCode) (point : WorkerPoint) :
    ((s.view.requestCloseAfterDrain code).goTo point).view =
      ((s.requestCloseAfterDrain code).goTo point).view := by
  have hview : ∀ t : SessionThreads,
      ((t.requestCloseAfterDrain code).goTo point).view = (t.goTo point).view := by
    intro t
    unfold requestCloseAfterDrain
    split_ifs <;> rfl
  rw [hview, hview, goTo_view]

/-- An event is drained as it is seen. -/
lemma drainEvent_view (s : SessionThreads) (site : DrainSite) (event : PublicEvent) :
    (drainEvent config s.view site event).view = (drainEvent config s site event).view := by
  have hobserve : ∀ terminal : TerminalEvents,
      ({ s.view with terminal := terminal } : SessionThreads).view =
        ({ s with terminal := terminal } : SessionThreads).view := by
    intro terminal
    have hview : ∀ t : SessionThreads, ({ t with terminal := terminal } : SessionThreads).view =
      { t.view with terminal := terminal } := fun _ => rfl
    rw [hview, hview, view_view]
  unfold drainEvent
  split
  · exact goTo_view s _
  · exact goTo_view s _
  · dsimp only
    split_ifs
    · have hsame := hobserve (s.terminal.observe event)
      have hgo : ∀ t : SessionThreads, (t.goTo (.drainEnqueue site event)).view =
        { t.view with worker := .drainEnqueue site event } := fun _ => rfl
      rw [hgo, hgo]
      exact congrArg (fun t : SessionThreads => { t with worker := .drainEnqueue site event }) hsame
    · exact hobserve _

/-- A calm worker that is not at a warning makes the step its view makes. -/
lemma workerStep_view (hcalm : s.Calm) (hinput : s.inputCancelled = false) (hwarn : s.worker ≠ .warn)
    (hfinish : s.worker = .pop → answer = .finish → s.inputFinishing = true) :
    (s.view.workerStep config answer).map view = (s.workerStep config answer).map view := by
  have hreason : s.cancellation.reason = .none := hcalm.reason
  have hrefuses : s.refuses = false := hcalm.refuses
  have hrequested : s.requested = false := hcalm.1
  have hseen : s.view.requested = false ∧ s.view.refuses = false ∧ s.view.inputCancelled = false ∧
      s.view.inputFinishing = true ∧ s.view.terminal = s.terminal ∧
      s.view.cancellation.reason = .none := ⟨rfl, rfl, rfl, rfl, rfl, rfl⟩
  have hworker : s.view.worker = s.worker := if_neg hwarn
  have hlag : ((s.view.request .capacity).goTo .lagEnqueue).view =
      ((s.request .capacity).goTo .lagEnqueue).view := goTo_view s .lagEnqueue
  have henqueue := enqueue_view hcalm.2
  unfold workerStep
  rw [hworker]
  cases hw : s.worker with
  | drainEnqueue site event =>
    cases hmessage : eventMessage config event <;> cases answer <;> simp_all [goTo_view]
  | _ => cases answer <;> simp_all [goTo_view, requestCloseAfterDrain_view, drainEvent_view]

/-- No step of the IO thread is seen, and what gives the session up ends its calm. -/
lemma ioStep_view {call : IoCall} (hcalm : s.Calm) (hio : s.CalmIo) (h : s.ioStep call = some s') :
    s'.view = s.view ∧ s'.worker = s.worker ∧ s'.CalmIo := by
  obtain ⟨hidle, hinput⟩ := hio hcalm
  have hreason : s.cancellation.reason = .none := hcalm.reason
  have hopen : s.closed = false := hcalm.2
  unfold ioStep at h
  rw [hidle] at h
  cases call with
  | proceed => cases h
  | closeTransport =>
    simp only [handle] at h
    split_ifs at h
    obtain rfl := Option.some.inj h
    exact ⟨rfl, rfl, fun hcalm' => absurd hcalm'.2 (by simp [finishSession])⟩
  | _ =>
    simp only [handle] at h
    try split_ifs at h
    all_goals
      obtain rfl := Option.some.inj h
      simp_all [view, CalmIo, Calm, readDone, enqueue, beginFailure, request, requested,
        Cancellation.request, Cancellation.requested, failureReason, ServerMessage.isAside]

/-- Nor does a worker end the calm of a session, unless it finds the lag at its hard limit. -/
lemma workerStep_calm (hlag : ¬ FindsHardLag s answer) (h : s.workerStep config answer = some s') :
    (s'.Calm ↔ s.Calm) ∧ (s.CalmIo → s'.CalmIo) ∧ s'.inputFinishing = s.inputFinishing := by
  obtain ⟨messages, closes, hmove⟩ := workerStep_move hlag h
  have hcalm : s'.Calm ↔ s.Calm := by
    unfold Calm requested
    rw [hmove.cancellation, hmove.closed]
  refine ⟨hcalm, fun hio hcalm' => ?_, hmove.inputFinishing⟩
  rw [hmove.io, hmove.inputCancelled]
  exact hio (hcalm.mp hcalm')

end SessionThreads

/-! ## The way of a calm worker -/

namespace StreamSession

/-- The view of the threads, on what the worker works on. -/
def view (s : StreamSession α φ ε γ κ) : StreamSession α φ ε γ κ := ⟨s.threads.view, s.input⟩

/-- Sessions whose threads look alike look alike on the same work. -/
lemma view_congr {threads threads' : SessionThreads} (h : threads.view = threads'.view)
    (input : WorkerInput α φ ε γ κ) :
    view (⟨threads, input⟩ : StreamSession α φ ε γ κ) = view ⟨threads', input⟩ := by
  rw [view, view, h]

/-- What was seen is seen again. -/
lemma view_view (s : StreamSession α φ ε γ κ) : s.view.view = s.view :=
  view_congr s.threads.view_view s.input

variable [Zero α] (config : RealtimeConfiguration) (eng : Engine α φ ε γ κ)

/-- What a calm worker sees next. -/
def next (m : StreamSession α φ ε γ κ) : Option (StreamSession α φ ε γ κ) :=
  (m.step config eng (.worker .ok)).map fun p => p.1.view

/-- The session is calm, and no answer stops the worker: the metrics can be read, the lag is below its hard
limit and the final text fits the queue. -/
def Undisturbed (s : StreamSession α φ ε γ κ) (call : SessionCall) : Prop :=
  s.threads.Calm ∧
    match call with
    | .worker outside => outside = .ok ∨ outside = .softLag
    | .io _ => True

/-- A step of the worker. -/
def isWorker : SessionCall → Bool
  | .worker _ => true
  | .io _ => false

/-- The warning the worker has still to enqueue. -/
def pause (s : StreamSession α φ ε γ κ) : ℕ := if s.threads.worker = .warn then 1 else 0

variable {config eng} {s s' : StreamSession α φ ε γ κ}

/-- The answers depend on the place of the worker and on whether a cancellation is requested. -/
lemma answer_congr (hworker : s'.threads.worker = s.threads.worker)
    (hrequested : s'.threads.requested = s.threads.requested) (hinput : s'.input = s.input)
    (outside : WorkerAnswer) : s'.answer eng outside = s.answer eng outside := by
  unfold answer
  rw [hworker, hrequested, hinput]

/-- The view of a calm session gets the same answers. -/
lemma answer_view (hcalm : s.threads.Calm) (hwarn : s.threads.worker ≠ .warn) (outside : WorkerAnswer) :
    s.view.answer eng outside = s.answer eng outside := by
  have hworker : s.view.threads.worker = s.threads.worker := if_neg hwarn
  have hrequested : s.view.threads.requested = s.threads.requested := hcalm.1.symm
  exact answer_congr hworker hrequested rfl outside

/-- Enqueuing a warning asks nobody. -/
lemma answer_warn (hworker : s.threads.worker = .warn) (outside : WorkerAnswer) :
    s.answer eng outside = some (s.input, .ok) := by
  unfold answer
  rw [hworker]

/-- The lag is observed outside. -/
lemma answer_observeLag (hworker : s.threads.worker = .observeLag) (outside : WorkerAnswer) :
    s.answer eng outside = some (s.input, outside) := by
  unfold answer
  rw [hworker]

/-- So is the size of the final text. -/
lemma answer_enqueueFinal {text : Bytes} (hworker : s.threads.worker = .enqueueFinal text)
    (outside : WorkerAnswer) : s.answer eng outside = some (s.input, outside) := by
  unfold answer
  rw [hworker]

/-- The parts of a step of the worker. -/
lemma step_worker {outside : WorkerAnswer} (h : s.step config eng (.worker outside) = some (s', ())) :
    ∃ answer, s.answer eng outside = some (s'.input, answer) ∧
      s.threads.workerStep config answer = some s'.threads := by
  obtain ⟨⟨input, answer⟩, hanswer, h⟩ := Option.bind_eq_some_iff.mp h
  obtain ⟨threads, hthreads, heq⟩ := Option.map_eq_some_iff.mp h
  obtain ⟨rfl, -⟩ := Prod.mk.inj heq
  exact ⟨answer, hanswer, hthreads⟩

/-- What is seen next follows from an answer and the step on it. -/
lemma next_eq {input : WorkerInput α φ ε γ κ} {answer : WorkerAnswer} {threads : SessionThreads}
    (hanswer : s.answer eng .ok = some (input, answer))
    (hthreads : (s.threads.workerStep config answer).map SessionThreads.view = some threads) :
    next config eng s = some ⟨threads, input⟩ := by
  obtain ⟨threads', hstep, rfl⟩ := Option.map_eq_some_iff.mp hthreads
  rw [next, step, hanswer, Option.bind_some]
  dsimp only
  rw [hstep]
  rfl

/-- A worker that is not at a warning goes the way of its view. -/
lemma follows_of_ok (hcalm : s.threads.Calm) (hio : s.threads.CalmIo) (hwarn : s.threads.worker ≠ .warn)
    (h : s.step config eng (.worker .ok) = some (s', ())) : next config eng s.view = some s'.view := by
  obtain ⟨answer, hanswer, hthreads⟩ := step_worker h
  refine next_eq ((answer_view hcalm hwarn .ok).trans hanswer) ?_
  change (s.threads.view.workerStep config answer).map SessionThreads.view = _
  rw [SessionThreads.workerStep_view hcalm (hio hcalm).2 hwarn, hthreads]
  · rfl
  · intro hpop hfinish
    -- without the client's `session.finish` the worker would wait
    by_contra hwaits
    unfold SessionThreads.workerStep at hthreads
    rw [hpop, hfinish] at hthreads
    simp only [(hio hcalm).2, hwaits, Bool.false_eq_true, if_false] at hthreads
    exact absurd hthreads nofun

/-- A worker at a warning pauses. -/
lemma pauses_of_warn (hcalm : s.threads.Calm) (hwarn : s.threads.worker = .warn) {outside : WorkerAnswer}
    (h : s.step config eng (.worker outside) = some (s', ())) : s'.view = s.view ∧ pause s' = 0 := by
  obtain ⟨answer, hanswer, hthreads⟩ := step_worker h
  obtain ⟨hinput, rfl⟩ := Prod.mk.inj (Option.some.inj ((answer_warn hwarn outside).symm.trans hanswer))
  have hrefuses : s.threads.refuses = false := hcalm.refuses
  unfold SessionThreads.workerStep at hthreads
  rw [hwarn] at hthreads
  have henqueue : s.threads.enqueue .warning =
      { s.threads with
        enqueued := s.threads.enqueued ++ [.warning]
        outbound := s.threads.outbound ++ [.warning] } := by
    simp [SessionThreads.enqueue, hcalm.2]
  simp only [hrefuses, Bool.false_eq_true, if_false, henqueue, Option.some.injEq] at hthreads
  constructor
  · rw [view, view, ← hthreads, ← hinput]
    simp [SessionThreads.view, SessionThreads.goTo, hwarn, ServerMessage.isAside]
  · rw [pause, ← hthreads]
    rfl

/-- A warning that is due takes the worker on its way like no warning. -/
lemma follows_of_softLag (hcalm : s.threads.Calm) (hio : s.threads.CalmIo)
    (hwarn : s.threads.worker ≠ .warn) (h : s.step config eng (.worker .softLag) = some (s', ())) :
    next config eng s.view = some s'.view := by
  obtain ⟨answer, hanswer, hthreads⟩ := step_worker h
  by_cases hlag : s.threads.worker = .observeLag
  · obtain ⟨hinput, rfl⟩ :=
      Prod.mk.inj (Option.some.inj ((answer_observeLag hlag .softLag).symm.trans hanswer))
    unfold SessionThreads.workerStep at hthreads
    rw [hlag] at hthreads
    have hview : s.view.threads.worker = .observeLag := (if_neg hwarn).trans hlag
    have hseen : next config eng s.view = some ⟨s'.threads.view, s.input⟩ := by
      refine next_eq (answer_observeLag hview .ok) ?_
      unfold SessionThreads.workerStep
      rw [hview, ← Option.some.inj hthreads]
      exact congrArg some (SessionThreads.goTo_view s.threads .pop)
    rw [hseen, hinput]
    rfl
  · refine follows_of_ok hcalm hio hwarn ?_
    have hsame : s.answer eng .ok = s.answer eng .softLag := by
      cases hworker : s.threads.worker with
      | observeLag => exact absurd hworker hlag
      | enqueueFinal text =>
        obtain ⟨-, rfl⟩ :=
          Prod.mk.inj (Option.some.inj ((answer_enqueueFinal hworker .softLag).symm.trans hanswer))
        unfold SessionThreads.workerStep at hthreads
        rw [hworker] at hthreads
        exact absurd hthreads nofun
      | _ =>
        unfold StreamSession.answer
        rw [hworker]
    rw [step, hsame, hanswer, Option.bind_some]
    dsimp only
    rw [hthreads]
    rfl

omit [Zero α] in
/-- There is at most one warning to enqueue. -/
lemma pause_le (s : StreamSession α φ ε γ κ) : pause s ≤ 1 := by
  unfold pause
  split_ifs <;> decide

/-- The steps of an undisturbed session run along the way of its worker. -/
lemma runsAlong : RunsAlong (step config eng) (next config eng) view
    (fun s : StreamSession α φ ε γ κ => s.threads.CalmIo) Undisturbed isWorker pause 1 where
  keeps := by
    rintro s call s' ⟨⟩ hio ⟨hcalm, hcall⟩ h
    cases call with
    | worker outside =>
      obtain ⟨answer, hanswer, hthreads⟩ := step_worker h
      refine (SessionThreads.workerStep_calm ?_ hthreads).2.1 hio
      rintro ⟨hlag, rfl⟩
      obtain ⟨-, rfl⟩ :=
        Prod.mk.inj (Option.some.inj ((answer_observeLag hlag outside).symm.trans hanswer))
      rcases hcall with hcall | hcall <;> exact absurd hcall nofun
    | io call =>
      obtain ⟨threads, hthreads, heq⟩ := Option.map_eq_some_iff.mp h
      obtain ⟨rfl, -⟩ := Prod.mk.inj heq
      exact (SessionThreads.ioStep_view hcalm hio hthreads).2.2
  follows := by
    rintro s call s' ⟨⟩ hio ⟨hcalm, hcall⟩ h
    cases call with
    | worker outside =>
      by_cases hwarn : s.threads.worker = .warn
      · obtain ⟨hview, hpause⟩ := pauses_of_warn hcalm hwarn h
        refine Or.inr ⟨hview, ?_⟩
        rw [hpause, pause, if_pos hwarn]
        exact le_rfl
      · refine Or.inl ⟨?_, pause_le s'⟩
        rcases hcall with rfl | rfl
        · exact follows_of_ok hcalm hio hwarn h
        · exact follows_of_softLag hcalm hio hwarn h
    | io call =>
      obtain ⟨threads, hthreads, heq⟩ := Option.map_eq_some_iff.mp h
      obtain ⟨rfl, -⟩ := Prod.mk.inj heq
      obtain ⟨hview, hworker, -⟩ := SessionThreads.ioStep_view hcalm hio hthreads
      refine Or.inr ⟨?_, ?_⟩
      · exact view_congr hview s.input
      · rw [pause, pause, hworker]
        exact le_rfl

end StreamSession

end Voxtral
