import Voxtral.Server.HttpServer
import Voxtral.Server.ServerSteps

/-!
# One session of the server

What concerns one session is its view: the session object, its place in `sessions_`, what the worker keeps
for it, its lease and whether its batch was cancelled.  A handler of one session leaves the views of all
others alone; the stages of a session are the stages of its view.
-/

namespace Voxtral

/-- What concerns one session. -/
structure SessionView where
  conn : Connection
  registered : Bool
  held : List (Option BatchTranscriptionResult)
  lease : Option GpuLease
  requested : Bool
  down : Bool

namespace SessionView

/-- Where a session stands. -/
inductive Phase (v : SessionView) : Prop
  /-- It waits for its request; only a shutdown has closed it. -/
  | reading (http : v.conn.realtime = false) (read : v.conn.reading = true)
      (writing : v.conn.writing = none) (watching : v.conn.watching = false) (held : v.held = [])
      (lease : v.lease = none) (token : v.conn.batchCancellation = none)
      (early : v.conn.batchDone = false) (sent : v.conn.sent = [])
      (transferred : v.conn.transferred = false)
      (closed : v.conn.closed = true → v.down = true ∧ v.conn.cause = some .shutdown)
  /-- The worker has its batch; the session is closed once the batch is cancelled. -/
  | batch (x : Option BatchTranscriptionResult) (http : v.conn.realtime = false)
      (read : v.conn.reading = false) (writing : v.conn.writing = none) (held : v.held = [x])
      (lease : v.lease = some (if x = none then ⟨true, .batch, v.conn.batchCancellation⟩ else {}))
      (asked : v.conn.asked.isSome) (early : v.conn.batchDone = false) (sent : v.conn.sent = [])
      (transferred : v.conn.transferred = false)
      (closed : v.conn.closed = true → v.conn.cause = some .disconnect ∨ v.conn.cause = some .shutdown)
      (down : v.down = true → v.conn.closed = true) (requested : v.requested = true → v.conn.closed = true)
      (result : ∀ r, x = some r → v.conn.result = some r ∧ (r.cancelled = true → v.conn.closed = true))
  /-- Its response is being written. -/
  | answering (response : HttpResponse) (http : v.conn.realtime = false) (read : v.conn.reading = false)
      (writing : v.conn.writing = some response) (held : v.held = []) (lease : ∀ l, v.lease = some l → l = {})
      (token : v.conn.batchCancellation = none) (watching : v.conn.watching = true → v.conn.batchDone = true)
      (sent : v.conn.sent = [response]) (transferred : v.conn.transferred = false)
  /-- It has ended, or was upgraded. -/
  | concluded (http : v.conn.realtime = false) (read : v.conn.reading = false) (writing : v.conn.writing = none)
      (held : v.held = []) (lease : ∀ l, v.lease = some l → l = {})
      (token : v.conn.batchCancellation = none) (watching : v.conn.watching = true → v.conn.batchDone = true)
      (ended : v.conn.closed = true ∨ v.conn.transferred = true)
  /-- A realtime session holds its lease until it starts its worker or ends. -/
  | realtime (http : v.conn.realtime = true) (read : v.conn.reading = false)
      (writing : v.conn.writing = none) (watching : v.conn.watching = false)
      (token : v.conn.batchCancellation = none) (early : v.conn.batchDone = false)
      (sent : v.conn.sent = []) (transferred : v.conn.transferred = false)
      (held : v.held = [] ∨ v.held = [none] ∧ v.conn.workerStarted = true)
      (lease : ∀ l, v.lease = some l → l = {} ∨ v.held = [none] ∨
        v.conn.closed = false ∧ v.conn.workerStarted = false)

/-- A session in one of its stages, with what holds of it in all of them. -/
structure Good (v : SessionView) : Prop where
  phase : v.Phase
  /-- A session is registered until it closes or is upgraded. -/
  registered : v.registered = (!v.conn.closed && !v.conn.transferred)
  once : v.conn.sent.length ≤ 1
  /-- The response to a batch is that to its own audio and result. -/
  answers : v.conn.batchDone = true → ∀ response ∈ v.conn.sent, ∃ text durationMs result,
    v.conn.asked = some (text, durationMs) ∧ v.conn.result = some result ∧ result.cancelled = false ∧
      response = batchResponse text durationMs result
  /-- A connection that was closed without a response was broken, abandoned, or closed by a shutdown. -/
  cause : v.conn.realtime = false → v.conn.closed = true → v.conn.sent = [] →
    v.conn.cause = some .readFailed ∨ v.conn.cause = some .disconnect ∨ v.conn.cause = some .shutdown

/-- The session can be locked. -/
def alive (v : SessionView) : Bool :=
  if v.conn.realtime then !v.conn.closed
  else v.conn.reading || v.conn.writing.isSome || v.conn.watching || !v.held.isEmpty

/-- A registered session can be locked. -/
lemma Good.alive {v : SessionView} (h : v.Good) (hreg : v.registered = true) : v.alive = true := by
  have hopen := h.registered.symm.trans hreg
  simp only [Bool.and_eq_true, Bool.not_eq_true'] at hopen
  obtain ⟨hclosed, htransferred⟩ := hopen
  unfold SessionView.alive
  cases h.phase with
  | reading http read => simp [http, read]
  | batch x http read writing held => simp [http, held]
  | answering response http read writing => simp [http, writing]
  | concluded http read writing held lease token watching ended =>
    rcases ended with hend | hend
    · rw [hclosed] at hend
      cases hend
    · rw [htransferred] at hend
      cases hend
  | realtime http => simp [http, hclosed]

end SessionView

namespace HttpServer

variable {ι : Type*} [DecidableEq ι]

/-- The view of a session. -/
def view (s : HttpServer ι) (c : ι) : Option SessionView :=
  (s.connections c).map fun conn =>
    { conn := conn
      registered := decide (c ∈ s.sessions)
      held := s.held c
      lease := s.world.leases.leases c
      requested := conn.batchCancellation.any fun token => s.world.leases.reason token ≠ .none
      down := s.shuttingDown }

variable {s s' : HttpServer ι} {c : ι} {conn : Connection}

/-- The view of a connection. -/
lemma view_of_connection (h : s.connections c = some conn) :
    s.view c = some
      { conn := conn
        registered := decide (c ∈ s.sessions)
        held := s.held c
        lease := s.world.leases.leases c
        requested := conn.batchCancellation.any fun token => s.world.leases.reason token ≠ .none
        down := s.shuttingDown } := by
  rw [view, h]
  rfl

/-- Every connection has a view. -/
lemma view_eq_none : s.view c = none ↔ s.connections c = none := by
  rw [view, Option.map_eq_none_iff]

/-- The session object of a view. -/
lemma connection_of_view {v : SessionView} (h : s.view c = some v) : s.connections c = some v.conn := by
  obtain ⟨conn, hconn, rfl⟩ := Option.map_eq_some_iff.mp h
  exact hconn

/-- What the worker keeps depends on the worker and on what is due or posted. -/
lemma held_congr (hworking : s'.world.working = some c ↔ s.world.working = some c)
    (hdue : s'.due = s.due) (hposted : s'.posted = s.posted) : s'.held c = s.held c := by
  unfold held
  rw [hdue, hposted]
  simp only [hworking]

/-- What a view depends on. -/
lemma view_congr (hconn : s'.connections c = s.connections c)
    (hsessions : c ∈ s'.sessions ↔ c ∈ s.sessions) (hheld : s'.held c = s.held c)
    (hlease : s'.world.leases.leases c = s.world.leases.leases c)
    (hreason : ∀ conn token, s.connections c = some conn → conn.batchCancellation = some token →
      s'.world.leases.reason token = s.world.leases.reason token)
    (hdown : s'.shuttingDown = s.shuttingDown) : s'.view c = s.view c := by
  cases hc : s.connections c with
  | none => rw [view_eq_none.mpr hc, view_eq_none.mpr (hconn.trans hc)]
  | some conn =>
    rw [view_of_connection hc, view_of_connection (hconn.trans hc), hheld, hlease, hdown]
    simp only [hsessions, Option.some.injEq, SessionView.mk.injEq, and_true, true_and]
    cases htoken : conn.batchCancellation with
    | none => rfl
    | some token => simp only [Option.any_some, hreason conn token hc htoken]

/-- Whether a session can be locked is seen in its view. -/
lemma alive_of_view {v : SessionView} (h : s.view c = some v) : s.alive c = v.alive := by
  obtain ⟨conn, hconn, rfl⟩ := Option.map_eq_some_iff.mp h
  simp only [alive, hconn, SessionView.alive]

/-! ## What the sessions share -/

/-- The worker has still to tell the server that it is done. -/
def Pending (s : HttpServer ι) : Prop :=
  s.world.running = true ∨ s.world.worker = some (.cleared none) ∨ .workerFinished ∈ s.posted

/-- A shutdown comes to its end: somebody is left who ends it. -/
def Awaited (s : HttpServer ι) : Prop :=
  s.shuttingDown = true → s.stopped = true ∨ s.sessions ≠ [] ∨ s.Pending

/-- What holds of the server between two steps of a handler. -/
structure Shared (s : HttpServer ι) : Prop where
  consistent : s.world.Consistent
  down : s.world.leases.mode = .shuttingDown ↔ s.shuttingDown = true
  returned : ∀ r, s.world.worker ≠ some (.thrown r) ∧ s.world.worker ≠ some (.cleared (some r))
  due : ∀ p, s.due = some p → s.world.worker = some (.released p.1)
  leased : ∀ c lease, s.world.leases.leases c = some lease →
    ∃ conn, s.connections c = some conn ∧ conn.reading = false
  heldBy : ∀ c, s.held c ≠ [] → ∃ conn, s.connections c = some conn
  sessions : ∀ c ∈ s.sessions, ∃ conn, s.connections c = some conn
  tokens : ∀ c conn token, s.connections c = some conn → conn.batchCancellation = some token →
    token < s.world.leases.tokens.length
  own : ∀ c c' conn conn' token, s.connections c = some conn → s.connections c' = some conn' →
    conn.batchCancellation = some token → conn'.batchCancellation = some token → c = c'
  stopped : s.stopped = true → s.shuttingDown = true
  /-- Until a shutdown connections are accepted. -/
  listens : s.shuttingDown = false → s.accepting = true

/-- All registered sessions can be locked. -/
def Lockable (s : HttpServer ι) : Prop :=
  ∀ c v, s.view c = some v → v.registered = true → v.alive = true

/-- What holds of the server between two handlers. -/
structure Orderly (s : HttpServer ι) : Prop where
  shared : Shared s
  good : ∀ c v, s.view c = some v → v.Good
  awaited : Awaited s

/-- Something about the session `c` has taken the server from `s` to `s'`. -/
structure During (s s' : HttpServer ι) (c : ι) : Prop where
  shared : Shared s'
  others : ∀ c' ≠ c, s'.view c' = s.view c'
  awaited : Awaited s → Awaited s'

/-- In an orderly server all registered sessions can be locked. -/
lemma Orderly.lockable (hs : Orderly s) : Lockable s := fun c v hv => (hs.good c v hv).alive

/-- A server in which no view has changed. -/
lemma Orderly.of_view (hs : Orderly s) (hshared : Shared s') (hawaited : Awaited s')
    (hview : ∀ c, s'.view c = s.view c) : Orderly s' :=
  ⟨hshared, fun c v hv => hs.good c v ((hview c).symm.trans hv), hawaited⟩

/-- The server is orderly after a handler that leaves its session in one of its stages. -/
lemma During.orderly (hs : Orderly s) (h : During s s' c) (hgood : ∀ v, s'.view c = some v → v.Good) :
    Orderly s' := by
  refine ⟨h.shared, fun c' v hv => ?_, h.awaited hs.awaited⟩
  by_cases heq : c' = c
  · subst heq
    exact hgood v hv
  · rw [h.others c' heq] at hv
    exact hs.good c' v hv

/-- A registered session can be locked. -/
lemma Lockable.alive (hs : Lockable s) (hshared : Shared s) (hc : c ∈ s.sessions) : s.alive c = true := by
  obtain ⟨conn, hconn⟩ := hshared.sessions c hc
  have hview := view_of_connection hconn
  rw [alive_of_view hview]
  exact hs c _ hview (by simpa using hc)

/-- So can, during a handler, those of all other sessions. -/
lemma During.alive (hs : Lockable s) (h : During s s' c) {c' : ι} (hne : c' ≠ c) (hc : c' ∈ s'.sessions) :
    s'.alive c' = true := by
  obtain ⟨conn, hconn⟩ := h.shared.sessions c' hc
  have hview := view_of_connection hconn
  rw [alive_of_view hview]
  exact hs c' _ ((h.others c' hne).symm.trans hview) (by simpa using hc)

/-- A handler begins. -/
lemma During.start (hs : Shared s) : During s s c := ⟨hs, fun _ _ => rfl, fun h => h⟩

end HttpServer

end Voxtral
