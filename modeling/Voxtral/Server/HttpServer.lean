import Voxtral.Server.HttpRequests
import Voxtral.Server.WorkerSlot

/-!
# The HTTP server

`ServerApp` and its sessions: one IO thread runs the handlers of all connections, of the signals and of
what the worker posts, one after the other; the worker runs beside it.  An event is one handler or one step
of the worker, in any order.  A handler keeps its session alive, as do the operations a session has under
way; a session that nothing keeps alive is what `sessions_` finds expired.

A realtime session takes part with what it shares with the others: its place in `sessions_`, its lease and
the worker.  It is taken to live until `finish_session`; what it exchanges with its client is modelled in
`SessionThreads`.  Allocation does not fail, and no batch task throws.
-/

namespace Voxtral

/-- Why a connection was closed without a response. -/
inductive CloseCause
  | readFailed
  | disconnect
  | cancelled
  | shutdown
  deriving DecidableEq

/-- `HttpSession`, with the responses it has begun to send, or a `RealtimeSession`.  `writing` is
`response_`, kept by its `async_write`. -/
structure Connection where
  realtime : Bool := false
  /-- The `async_read` of the request is under way. -/
  reading : Bool := false
  writing : Option HttpResponse := none
  /-- The `async_wait` of `watch_batch_disconnect` is under way. -/
  watching : Bool := false
  batchRunning : Bool := false
  batchDone : Bool := false
  /-- `batch_cancellation_`, as a position among the tokens of the lease manager. -/
  batchCancellation : Option ℕ := none
  /-- `text_response` and `duration_ms` of the batch request. -/
  asked : Option (Bool × ℕ) := none
  /-- The result of its batch, once the worker has it. -/
  result : Option BatchTranscriptionResult := none
  closed : Bool := false
  transferred : Bool := false
  /-- A realtime session has handed its lease to the worker, or lost it. -/
  workerStarted : Bool := false
  sent : List HttpResponse := []
  cause : Option CloseCause := none

/-- A handler the worker has posted. -/
inductive Posted (ι : Type*)
  | batchResult (c : ι) (result : BatchTranscriptionResult)
  | workerFinished
  deriving DecidableEq

/-- The result of the connection that a posted handler carries. -/
def Posted.resultOf {ι : Type*} [DecidableEq ι] (c : ι) : Posted ι → Option BatchTranscriptionResult
  | .batchResult c' result => if c' = c then some result else none
  | .workerFinished => none

/-- What came of reading a request. -/
inductive ReadOutcome
  | request (request : HttpRequest)
  | bodyLimit
  | failed

/-- A handler of the IO thread or a step of the worker.  Ids are those of the sessions. -/
inductive HttpEvent (ι : Type*)
  | accepted (c : ι)
  | acceptFailed
  /-- `on_read`; `realtime` is the id of the session an upgrade makes, and `starts` says whether a worker
  thread can be made. -/
  | read (c : ι) (outcome : ReadOutcome) (realtime : ι) (starts : Bool)
  | written (c : ι)
  /-- The handler of `watch_batch_disconnect`. -/
  | watched (c : ι) (aborted : Bool)
  | handle (posted : Posted ι)
  /-- `initiate_shutdown` by a signal. -/
  | signal
  /-- `force_shutdown`. -/
  | timeout
  /-- A realtime session is configured and starts its worker. -/
  | realtimeStart (c : ι) (starts : Bool)
  /-- `RealtimeSession::finish_session`. -/
  | realtimeFinish (c : ι)
  /-- The worker's task releases the lease, with the result of a batch.  The task of a realtime session may
  return at any time here; whether it does, `OutboundLoop` tells. -/
  | released (result : BatchTranscriptionResult)
  /-- The worker's task posts its result. -/
  | post
  | clear
  | complete

/-- `ServerApp` with the lease manager, the worker slot and the handlers posted. -/
structure HttpServer (ι : Type*) where
  world : ServerWorld ι := {}
  shuttingDown : Bool := false
  stopped : Bool := false
  accepting : Bool := true
  sessions : List ι := []
  connections : ι → Option Connection := fun _ => none
  /-- What the task of the worker has still to post. -/
  due : Option (ι × BatchTranscriptionResult) := none
  posted : List (Posted ι) := []

namespace HttpServer

variable {ι : Type*} [DecidableEq ι]

/-- Change a connection. -/
def modify (s : HttpServer ι) (c : ι) (f : Connection → Connection) : HttpServer ι :=
  { s with connections := Function.update s.connections c ((s.connections c).map f) }

/-- What keeps the connection for the worker: its task, then its result on the way. -/
def held (s : HttpServer ι) (c : ι) : List (Option BatchTranscriptionResult) :=
  (if s.world.working = some c then [none] else []) ++
    (((s.due.filter (·.1 = c)).map Prod.snd).toList ++
      s.posted.filterMap (Posted.resultOf c)).map some

/-- The weak pointer of the session can be locked. -/
def alive (s : HttpServer ι) (c : ι) : Bool :=
  match s.connections c with
  | none => false
  | some conn =>
    if conn.realtime then !conn.closed
    else conn.reading || conn.writing.isSome || conn.watching || !(s.held c).isEmpty

/-- `maybe_finish_shutdown`. -/
def maybeFinishShutdown (s : HttpServer ι) : HttpServer ι :=
  if ¬ s.shuttingDown then s
  else
    let sessions := s.sessions.filter s.alive
    { s with
      sessions := sessions
      stopped := s.stopped || (!s.world.running && sessions.isEmpty) }

/-- `register_session`. -/
def registerSession (s : HttpServer ι) (c : ι) : HttpServer ι :=
  { s with sessions := s.sessions ++ [c] }

/-- `unregister_session`. -/
def unregisterSession (s : HttpServer ι) (c : ι) : HttpServer ι :=
  maybeFinishShutdown { s with sessions := s.sessions.filter (· ≠ c) }

/-- `HttpSession::close`. -/
def close (s : HttpServer ι) (c : ι) (cause : Option CloseCause) : HttpServer ι :=
  match s.connections c with
  | none => s
  | some conn =>
    if conn.closed || conn.transferred then s
    else
      (s.modify c fun conn => { conn with closed := true, cause := cause }).unregisterSession c

/-- `send_response`. -/
def sendResponse (s : HttpServer ι) (c : ι) (response : HttpResponse) : HttpServer ι :=
  s.modify c fun conn =>
    if conn.closed then conn
    else { conn with writing := some response, sent := conn.sent ++ [response] }

/-- `Cancellation::request` through the token of a batch. -/
def requestCancellation (s : HttpServer ι) (c : ι) (reason : CancelReason) : HttpServer ι :=
  match (s.connections c).bind Connection.batchCancellation with
  | none => s
  | some token => { s with world := { s.world with
      leases := s.world.leases.requestOn token reason } }

/-- `initiate_shutdown` of a session.  A realtime session closes later, by `finish_session`. -/
def initiateSessionShutdown (s : HttpServer ι) (c : ι) : HttpServer ι :=
  match s.connections c with
  | none => s
  | some conn =>
    if conn.realtime then s
    else (s.requestCancellation c .shutdown).close c (some .shutdown)

/-- `ServerApp::initiate_shutdown`. -/
def initiateShutdown (s : HttpServer ι) : Option (HttpServer ι) :=
  if s.shuttingDown then some s
  else
    (s.world.step .beginShutdown).map fun w =>
      let s := { s with world := w.1, shuttingDown := true }
      let live := s.sessions.filter s.alive
      (live.foldl initiateSessionShutdown { s with sessions := live }).maybeFinishShutdown

/-- A step of the worker. -/
def workerStep (s : HttpServer ι) (call : ServerCall ι) : Option (HttpServer ι) :=
  (s.world.step call).map fun w => { s with world := w.1 }

/-- The worker calls the completion, and its thread ends. -/
def complete (s : HttpServer ι) : Option (HttpServer ι) :=
  (s.workerStep .complete).map fun s => { s with posted := s.posted ++ [.workerFinished] }

/-- `thread_.join()` of `WorkerSlot::start`: the last worker has cleared `running_`, and gets to its end. -/
def joinWorker (s : HttpServer ι) : Option (HttpServer ι) :=
  match s.world.worker with
  | some (.cleared _) => s.complete
  | _ => some s

/-- `ServerApp::start_worker` for a session that holds the lease: whether the worker was started; `none`
stands for the exception when no thread can be made.  Without a worker the lease is given up. -/
def startWorker (s : HttpServer ι) (c : ι) (starts : Bool) : Option (HttpServer ι × Option Bool) :=
  if s.world.running then (s.workerStep (.drop c)).map fun s => (s, some false)
  else
    s.joinWorker.bind fun s =>
      if starts then (s.workerStep (.startWorker c)).map fun s => (s, some true)
      else (s.workerStep (.drop c)).map fun s => (s, none)

/-- `start_batch`, for a session that holds the lease. -/
def startBatch (s : HttpServer ι) (c : ι) (audio : AudioData) (text starts : Bool) :
    Option (HttpServer ι) :=
  let token := (s.world.leases.leases c).bind GpuLease.cancellation
  (s.startWorker c starts).map fun r =>
    match r.2 with
    | some true =>
      r.1.modify c fun conn =>
        { conn with
          batchRunning := true
          batchCancellation := token
          asked := some (text, audio.durationMs)
          watching := true }
    | some false => r.1.sendResponse c (busyResponse false)
    | none => r.1.sendResponse c
        (jsonError 500 "internal_error" "The server could not start the inference worker.")

/-- `handle_batch` behind its checks. -/
def acceptBatch (s : HttpServer ι) (c : ι) (audio : AudioData) (text starts : Bool) :
    Option (HttpServer ι) :=
  (s.world.step (.tryAcquire c .batch)).bind fun w =>
    let s := { s with world := w.1 }
    if w.2 = .acquired then s.startBatch c audio text starts
    else (s.workerStep (.drop c)).map fun s => s.sendResponse c (busyResponse s.shuttingDown)

/-- `handle_realtime_upgrade` behind its checks. -/
def acceptRealtime (s : HttpServer ι) (c realtime : ι) : Option (HttpServer ι) :=
  (s.world.step (.tryAcquire realtime .realtime)).bind fun w =>
    let s := { s with world := w.1 }
    if w.2 = .acquired then
      let s := (s.modify c fun conn => { conn with transferred := true }).unregisterSession c
      some ({ s with connections :=
        Function.update s.connections realtime (some { realtime := true }) }.registerSession realtime)
    else
      (s.workerStep (.drop realtime)).map fun s => s.sendResponse c (busyResponse s.shuttingDown)

/-- `on_read`, with `route`. -/
def onRead (config : ServerConfig) (s : HttpServer ι) (c realtime : ι) (starts : Bool) :
    ReadOutcome → Option (HttpServer ι)
  | .bodyLimit => some (s.sendResponse c
      (jsonError 413 "request_too_large" "The request body exceeds the configured upload limit."))
  | .failed => some (s.close c (some .readFailed))
  | .request request =>
    match route config s.shuttingDown request with
    | .respond response => some (s.sendResponse c response)
    | .health => some (s.sendResponse c (healthResponse s.shuttingDown s.world.leases.mode))
    | .batch audio text => s.acceptBatch c audio text starts
    | .upgrade =>
      if (s.connections realtime).isSome then none else s.acceptRealtime c realtime

/-- `on_batch_result`. -/
def onBatchResult (s : HttpServer ι) (c : ι) (result : BatchTranscriptionResult) : HttpServer ι :=
  let s := s.modify c fun conn =>
    { conn with batchRunning := false, batchDone := true, batchCancellation := none }
  match s.connections c with
  | none => s
  | some conn =>
    if conn.closed || s.shuttingDown || result.cancelled then
      if result.cancelled && !conn.closed then s.close c (some .cancelled) else s
    else
      match conn.asked with
      | none => s
      | some (text, durationMs) => s.sendResponse c (batchResponse text durationMs result)

/-- The task of the worker releases its lease; the task of a batch then has a result, cancelled only after
the token was found requested.  The task of a realtime session is let return at any time, also behind
`force_shutdown`, where the source's may wait for ever. -/
def release (s : HttpServer ι) (result : BatchTranscriptionResult) : Option (HttpServer ι) :=
  match s.world.worker with
  | some (.task c) =>
    match s.connections c with
    | none => none
    | some conn =>
      if conn.realtime then s.workerStep .reset
      else
        match (s.world.leases.leases c).bind GpuLease.cancellation with
        | none => none
        | some token =>
          if result.cancelled ∧ s.world.leases.reason token = .none then none
          else
            (s.workerStep .reset).map fun s =>
              { s.modify c fun conn => { conn with result := some result } with due := some (c, result) }
  | _ => none

/-- One event. -/
def step (config : ServerConfig) (s : HttpServer ι) : HttpEvent ι → Option (HttpServer ι × Unit)
  | .accepted c =>
    if s.stopped ∨ s.accepting = false ∨ (s.connections c).isSome then none
    else
      some ({ s with
          connections := Function.update s.connections c (some { reading := true })
          accepting := !s.shuttingDown }.registerSession c, ())
  | .acceptFailed =>
    if s.stopped ∨ s.accepting = false then none
    else some ({ s with accepting := !s.shuttingDown }, ())
  | .read c outcome realtime starts =>
    match s.connections c with
    | none => none
    | some conn =>
      if s.stopped ∨ conn.reading = false then none
      else
        ((s.modify c fun conn => { conn with reading := false }).onRead config c realtime starts
          outcome).map fun s => (s, ())
  | .written c =>
    match s.connections c with
    | none => none
    | some conn =>
      if s.stopped ∨ conn.writing = none then none
      else some ((s.modify c fun conn => { conn with writing := none }).close c none, ())
  | .watched c aborted =>
    match s.connections c with
    | none => none
    | some conn =>
      if s.stopped ∨ conn.watching = false then none
      else
        let s := s.modify c fun conn => { conn with watching := false }
        if conn.batchDone ∨ aborted then some (s, ())
        else some ((s.requestCancellation c .disconnect).close c (some .disconnect), ())
  | .handle posted =>
    if s.stopped ∨ posted ∉ s.posted then none
    else
      match posted with
      | .workerFinished => some ({ s with posted := s.posted.erase posted }.maybeFinishShutdown, ())
      | .batchResult c result =>
        some ({ s with posted := s.posted.erase posted }.onBatchResult c result, ())
  | .signal => if s.stopped then none else s.initiateShutdown.map fun s => (s, ())
  | .timeout =>
    if s.stopped ∨ s.shuttingDown = false then none
    else
      let s := (s.sessions.filter s.alive).foldl initiateSessionShutdown s
      some ({ s with stopped := true }, ())
  | .realtimeStart c starts =>
    match s.connections c with
    | none => none
    | some conn =>
      if s.stopped ∨ conn.realtime = false ∨ conn.closed ∨ conn.workerStarted then none
      else
        (s.startWorker c starts).map fun r =>
          (r.1.modify c fun conn => { conn with workerStarted := true }, ())
  | .realtimeFinish c =>
    match s.connections c with
    | none => none
    | some conn =>
      if s.stopped ∨ conn.realtime = false ∨ conn.closed then none
      else
        let s := s.modify c fun conn => { conn with closed := true }
        if conn.workerStarted then some (s.unregisterSession c, ())
        else (s.workerStep (.drop c)).map fun s => (s.unregisterSession c, ())
  | .released result => (s.release result).map fun s => (s, ())
  | .post =>
    match s.due with
    | none => none
    | some (c, result) =>
      some ({ s with due := none, posted := s.posted ++ [.batchResult c result] }, ())
  | .clear => if s.due.isSome then none else (s.workerStep .clear).map fun s => (s, ())
  | .complete => s.complete.map fun s => (s, ())

end HttpServer

end Voxtral
