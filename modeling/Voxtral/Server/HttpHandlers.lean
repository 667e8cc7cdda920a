import Voxtral.Server.HttpSteps

/-!
# The handlers

Each handler, and each step of the worker, keeps the server orderly: the session it is about goes from one
of its stages to the next, and every other session stays where it is.
-/

namespace Voxtral

/-- A session whose request is answered next. -/
structure SessionView.Ready (v : SessionView) : Prop where
  http : v.conn.realtime = false
  read : v.conn.reading = false
  writing : v.conn.writing = none
  held : v.held = []
  lease : ∀ l, v.lease = some l → l = {}
  token : v.conn.batchCancellation = none
  watching : v.conn.watching = true → v.conn.batchDone = true
  sent : v.conn.sent = []
  transferred : v.conn.transferred = false
  registered : v.registered = !v.conn.closed
  cause : v.conn.closed = true → v.conn.cause = some .disconnect ∨ v.conn.cause = some .shutdown

/-- A session that waits for its request is answered next once it was read. -/
lemma SessionView.Good.ready {v : SessionView} (hgood : v.Good) (hread : v.conn.reading = true)
    (requested : Bool) :
    SessionView.Ready { v with conn := { v.conn with reading := false }, requested := requested } ∧
      v.conn.batchDone = false ∧ v.lease = none ∧ (v.conn.closed = true → v.down = true) := by
  cases hgood.phase with
  | reading http read writing watching held lease token early sent transferred closed =>
    refine ⟨⟨http, rfl, writing, held, ?_, token, ?_, sent, transferred, ?_, fun h => .inr (closed h).2⟩,
      early, lease, fun h => (closed h).1⟩
    · intro l hl
      rw [show v.lease = some l from hl] at lease
      cases lease
    · intro hwatching
      rw [show v.conn.watching = true from hwatching] at watching
      cases watching
    · have hregistered := hgood.registered
      rw [transferred, Bool.not_false, Bool.and_true] at hregistered
      exact hregistered
  | batch _ _ read =>
    rw [hread] at read
    cases read
  | answering _ _ read =>
    rw [hread] at read
    cases read
  | concluded _ read =>
    rw [hread] at read
    cases read
  | realtime _ read =>
    rw [hread] at read
    cases read

namespace HttpServer

variable {ι : Type*} [DecidableEq ι] {config : ServerConfig} {s s' : HttpServer ι} {c : ι}
  {conn : Connection} {v : SessionView}

/-- The parts of a view. -/
lemma parts_of_view (h : s.view c = some v) :
    s.connections c = some v.conn ∧ (v.registered = true ↔ c ∈ s.sessions) ∧ v.held = s.held c ∧
      v.lease = s.world.leases.leases c ∧ v.down = s.shuttingDown ∧
      v.requested = v.conn.batchCancellation.any fun token => s.world.leases.reason token ≠ .none := by
  obtain ⟨conn, hconn, rfl⟩ := Option.map_eq_some_iff.mp h
  exact ⟨hconn, by simp, rfl, rfl, rfl, rfl⟩

/-- The view of a session whose object changes. -/
lemma view_modify (h : s.view c = some v) (f : Connection → Connection) :
    (s.modify c f).view c = some
      { v with
        conn := f v.conn
        requested := (f v.conn).batchCancellation.any fun token =>
          s.world.leases.reason token ≠ .none } := by
  obtain ⟨conn, hconn, rfl⟩ := Option.map_eq_some_iff.mp h
  rw [modify_of_connection hconn, view_of_connection (Function.update_self ..)]
  rfl

/-- The view of a session when only the worker and the leases have changed. -/
lemma SameSessions.view (h : SameSessions s s') (hv : s.view c = some v) :
    s'.view c = some { v with held := s'.held c, lease := s'.world.leases.leases c } := by
  obtain ⟨conn, hconn, rfl⟩ := Option.map_eq_some_iff.mp hv
  rw [view_of_connection (show s'.connections c = some conn by rw [h.connections]; exact hconn)]
  simp only [h.sessions, h.down, h.reason]

/-! ## A request -/

/-- A request is answered; a response to a batch is that to its result. -/
lemma During.respond (hs : Orderly s) (h : During s s' c) (hv : s'.view c = some v) (hready : v.Ready)
    {response : HttpResponse} (hresponse : v.conn.batchDone = true → v.conn.closed = false →
      ∃ text durationMs result, v.conn.asked = some (text, durationMs) ∧
        v.conn.result = some result ∧ result.cancelled = false ∧
          response = batchResponse text durationMs result) :
    Orderly (s'.sendResponse c response) := by
  refine (h.sendResponse (connection_of_view hv) response).orderly hs fun v' hv' => ?_
  obtain rfl := Option.some.inj ((view_modify hv _).symm.trans hv')
  cases hclosed : v.conn.closed with
  | true =>
    simp only [if_true]
    refine ⟨.concluded hready.http hready.read hready.writing hready.held hready.lease hready.token
      hready.watching (.inl hclosed), ?_, ?_, ?_, ?_⟩
    · simp [hready.registered, hclosed]
    · simp [hready.sent]
    · simp [hready.sent]
    · exact fun _ _ _ => .inr (hready.cause hclosed)
  | false =>
    simp only [Bool.false_eq_true, if_false, hready.sent, List.nil_append]
    refine ⟨.answering response hready.http hready.read rfl hready.held hready.lease hready.token
      hready.watching rfl hready.transferred, ?_, ?_, ?_, ?_⟩
    · simp [hready.registered, hready.transferred, hclosed]
    · simp
    · intro hdone r hr
      rw [List.mem_singleton.mp hr]
      exact hresponse hdone hclosed
    · intro _ _ hsent
      cases hsent

/-- A request that cannot be read closes its connection. -/
lemma During.fail (hs : Orderly s) (h : During s s' c) (hv : s'.view c = some v) (hready : v.Ready) :
    Orderly (s'.close c (some .readFailed)) := by
  refine (h.close hs.lockable (connection_of_view hv) _).orderly hs fun v' hv' => ?_
  cases hclosed : v.conn.closed with
  | true =>
    rw [close_of_closed (connection_of_view hv) hclosed] at hv'
    obtain rfl := Option.some.inj (hv.symm.trans hv')
    refine ⟨.concluded hready.http hready.read hready.writing hready.held hready.lease hready.token
      hready.watching (.inl hclosed), ?_, ?_, ?_, ?_⟩
    · rw [hready.registered, hclosed]
      rfl
    · rw [hready.sent]
      exact Nat.zero_le _
    · rw [hready.sent]
      exact fun _ _ hr => (by cases hr)
    · exact fun _ _ _ => .inr (hready.cause hclosed)
  | false =>
    obtain ⟨hconn, -, hheld, hlease, -, -⟩ := parts_of_view hv
    rw [h.view_close hs.lockable hconn hclosed hready.transferred] at hv'
    obtain rfl := Option.some.inj hv'
    refine ⟨.concluded hready.http hready.read hready.writing (hheld.symm.trans hready.held) ?_ hready.token
      hready.watching (.inl rfl), rfl, ?_, ?_, fun _ _ _ => .inl rfl⟩
    · rw [← hlease]
      exact hready.lease
    · rw [hready.sent]
      exact Nat.zero_le _
    · rw [hready.sent]
      exact fun _ _ hr => (by cases hr)

omit [DecidableEq ι] in
/-- A token that was not made has no reason. -/
lemma reason_of_le (l : LeaseWorld ι) {token : ℕ} (h : l.tokens.length ≤ token) :
    l.reason token = .none := by
  unfold LeaseWorld.reason
  rw [List.getElem?_eq_none h]
  rfl

/-- A batch is started, or refused. -/
lemma During.acceptBatch (hs : Orderly s) (h : During s s' c) (hv : s'.view c = some v)
    (hready : v.Ready) (hearly : v.conn.batchDone = false)
    (hup : v.conn.closed = true → v.down = true) {audio : AudioData} {text starts : Bool}
    {s'' : HttpServer ι} (hstep : s'.acceptBatch c audio text starts = some s'') : Orderly s'' := by
  obtain ⟨hconn, -, hheld, -, hdown, -⟩ := parts_of_view hv
  unfold HttpServer.acceptBatch at hstep
  obtain ⟨⟨w, answer⟩, hw, hrest⟩ := Option.bind_eq_some_iff.mp hstep
  obtain ⟨honly, hworker, hrunning, hanswer⟩ := ServerWorld.step_tryAcquire h.shared.consistent hw
  have hacquire := h.world (ServerWorld.step_consistent h.shared.consistent hw) honly hworker hrunning
    fun _ _ => ⟨v.conn, hconn, hready.read⟩
  have hsame : SameSessions s' { s' with world := w } := ⟨rfl, rfl, rfl, rfl, honly.reason⟩
  have hworking : w.working = s'.world.working := by
    unfold ServerWorld.working
    rw [hworker]
  have hkeeps : HttpServer.held { s' with world := w } c = s'.held c :=
    held_congr (by rw [hworking]) rfl rfl
  have hheld' : HttpServer.held { s' with world := w } c = [] :=
    hkeeps.trans (hheld.symm.trans hready.held)
  -- a refusal is answered as the request would be without any lease
  have hrefuse : ∀ s₁ response, During s s₁ c → SameSessions s' s₁ → s₁.held c = [] →
      s₁.world.leases.leases c = none → Orderly (s₁.sendResponse c response) := by
    intro s₁ response hduring hsame₁ hnothing hnone
    refine hduring.respond hs (hsame₁.view hv) ?_ ?_
    · exact ⟨hready.http, hready.read, hready.writing, hnothing,
        fun l hl => by simp [hnone] at hl, hready.token, hready.watching, hready.sent,
        hready.transferred, hready.registered, hready.cause⟩
    · intro hdone
      rw [show v.conn.batchDone = true from hdone] at hearly
      cases hearly
  dsimp only at hrest
  rcases hanswer with ⟨rfl, -⟩ | ⟨rfl, hfree, htokens, hlease⟩
  · rw [if_neg (by simp)] at hrest
    obtain ⟨s₁, hdrop, rfl⟩ := Option.map_eq_some_iff.mp hrest
    obtain ⟨hduring, hsame₁, hkept, hnone⟩ := hacquire.drop hdrop
    refine hrefuse s₁ _ hduring ?_ (hkept.trans hheld') hnone
    exact ⟨hsame₁.connections, hsame₁.sessions, hsame₁.down, hsame₁.stopped,
      fun token => (hsame₁.reason token).trans (honly.reason token)⟩
  · rw [if_pos rfl] at hrest
    unfold startBatch at hrest
    obtain ⟨⟨s₁, started⟩, hstart, hfinal⟩ := Option.map_eq_some_iff.mp hrest
    obtain ⟨hduring, hsame₁, hcases⟩ := hacquire.startWorker hconn hheld' hstart
    have hsame₂ : SameSessions s' s₁ :=
      ⟨hsame₁.connections, hsame₁.sessions, hsame₁.down, hsame₁.stopped,
        fun token => (hsame₁.reason token).trans (honly.reason token)⟩
    rcases hcases with ⟨rfl, hnone, hleases⟩ | ⟨hnot, hnothing, hnone⟩
    · -- the worker has the lease, whose token is new
      have hopen : v.conn.closed = false := by
        cases hclosed : v.conn.closed with
        | false => rfl
        | true =>
          have hmode := h.shared.down.mpr (hdown ▸ hup hclosed)
          rw [hfree] at hmode
          cases hmode
      have htoken : (w.leases.leases c).bind GpuLease.cancellation =
          some s'.world.leases.tokens.length := by
        rw [hlease]
        rfl
      dsimp only at hfinal
      rw [htoken] at hfinal
      subst hfinal
      have hviewed := hsame₂.view hv
      refine (hduring.modify_token (connection_of_view hviewed) (fun hread => hread) ?_).orderly hs ?_
      · intro token htok
        obtain rfl := Option.some.inj htok
        rw [hleases]
        refine ⟨by simp [htokens], fun c' _ conn' hconn' htok' => ?_⟩
        rw [hsame₂.connections] at hconn'
        have hlt := h.shared.tokens c' conn' _ hconn' htok'
        omega
      · intro v' hv'
        obtain rfl := Option.some.inj ((view_modify hviewed _).symm.trans hv')
        have hreason : s₁.world.leases.reason s'.world.leases.tokens.length = .none := by
          rw [hsame₂.reason]
          exact reason_of_le _ (Nat.le_refl _)
        refine ⟨.batch none hready.http hready.read hready.writing hnone ?_ rfl hearly hready.sent
          hready.transferred ?_ ?_ ?_ ?_, ?_, ?_, ?_, ?_⟩
        · dsimp only
          rw [hleases, if_pos rfl]
          exact hlease
        · intro hclosed
          exact absurd (hopen.symm.trans hclosed) Bool.false_ne_true
        · intro hshut
          have hmode := h.shared.down.mpr (hdown ▸ hshut)
          rw [hfree] at hmode
          cases hmode
        · intro hrequested
          simp [hreason] at hrequested
        · intro r hr
          cases hr
        · simp [hready.registered, hready.transferred]
        · simp [hready.sent]
        · intro hdone
          exact absurd (hearly.symm.trans hdone) Bool.false_ne_true
        · intro _ hclosed
          exact absurd (hopen.symm.trans hclosed) Bool.false_ne_true
    · cases started with
      | none =>
        subst hfinal
        exact hrefuse s₁ _ hduring hsame₂ hnothing hnone
      | some b =>
        cases b with
        | true => exact absurd rfl hnot
        | false =>
          subst hfinal
          exact hrefuse s₁ _ hduring hsame₂ hnothing hnone

/-- A new session joins. -/
lemma Orderly.join (hs : Orderly s) (hnew : s.connections c = none) (conn : Connection)
    {w : ServerWorld ι} (hw : w.Consistent) (honly : ServerWorld.OnlyLease s.world w c)
    (hworker : w.worker = s.world.worker) (accepting : Bool)
    (haccepting : s.shuttingDown = false → accepting = true)
    (htoken : conn.batchCancellation = none)
    (hread : ∀ lease, w.leases.leases c = some lease → conn.reading = false)
    (hgood : SessionView.Good ⟨conn, true, [], w.leases.leases c, false, s.shuttingDown⟩) :
    Orderly { s with
      world := w
      connections := Function.update s.connections c (some conn)
      sessions := s.sessions ++ [c]
      accepting := accepting } := by
  have hworking : w.working = s.world.working := by
    unfold ServerWorld.working
    rw [hworker]
  have hheld : ∀ c', HttpServer.held { s with
      world := w
      connections := Function.update s.connections c (some conn)
      sessions := s.sessions ++ [c]
      accepting := accepting } c' = s.held c' :=
    fun c' => held_congr (by rw [hworking]) rfl rfl
  have hne : ∀ c' conn', s.connections c' = some conn' → c' ≠ c := by
    rintro c' conn' hconn' rfl
    rw [hnew] at hconn'
    cases hconn'
  have hkept : ∀ c' conn', s.connections c' = some conn' →
      Function.update s.connections c (some conn) c' = some conn' := by
    intro c' conn' hconn'
    rw [Function.update_of_ne (hne c' conn' hconn')]
    exact hconn'
  have hbefore : ∀ c' conn' token, Function.update s.connections c (some conn) c' = some conn' →
      conn'.batchCancellation = some token → s.connections c' = some conn' := by
    intro c' conn' token hconn' htok
    by_cases heq : c' = c
    · subst heq
      obtain rfl : conn = conn' := by simpa using hconn'
      rw [htoken] at htok
      cases htok
    · rwa [Function.update_of_ne heq] at hconn'
  refine ⟨{ hs.shared with
    consistent := hw
    down := honly.down.trans hs.shared.down
    returned := by rw [hworker]; exact hs.shared.returned
    due := by rw [hworker]; exact hs.shared.due
    leased := fun c' lease hlease => ?_
    heldBy := fun c' hmem => ?_
    sessions := fun c' hmem => ?_
    tokens := fun c' conn' token hconn' htok => ?_
    own := fun c₁ c₂ conn₁ conn₂ token hconn₁ hconn₂ htok₁ htok₂ =>
      hs.shared.own c₁ c₂ conn₁ conn₂ token (hbefore c₁ conn₁ token hconn₁ htok₁)
        (hbefore c₂ conn₂ token hconn₂ htok₂) htok₁ htok₂
    listens := haccepting }, fun c' v hv => ?_, fun _ => .inr (.inl (by simp))⟩
  · by_cases heq : c' = c
    · subst heq
      exact ⟨conn, Function.update_self .., hread lease hlease⟩
    · obtain ⟨conn', hconn', hreading⟩ := hs.shared.leased c' lease ((honly.leases c' heq).symm.trans hlease)
      exact ⟨conn', hkept c' conn' hconn', hreading⟩
  · obtain ⟨conn', hconn'⟩ := hs.shared.heldBy c' (by rwa [hheld] at hmem)
    exact ⟨conn', hkept c' conn' hconn'⟩
  · rcases List.mem_append.mp hmem with hmem | hmem
    · obtain ⟨conn', hconn'⟩ := hs.shared.sessions c' hmem
      exact ⟨conn', hkept c' conn' hconn'⟩
    · rw [List.mem_singleton.mp hmem]
      exact ⟨conn, Function.update_self ..⟩
  · exact Nat.lt_of_lt_of_le (hs.shared.tokens c' conn' token (hbefore c' conn' token hconn' htok) htok)
      honly.tokens
  · by_cases heq : c' = c
    · subst heq
      have hnothing : s.held c' = [] := by
        by_contra hsome
        obtain ⟨conn', hconn'⟩ := hs.shared.heldBy c' hsome
        exact hne c' conn' hconn' rfl
      rw [view_of_connection (Function.update_self ..), hheld, hnothing] at hv
      obtain rfl := Option.some.inj hv
      simpa [htoken] using hgood
    · rw [view_congr (s := s) (Function.update_of_ne heq ..) (by simp [heq]) (hheld c')
        (honly.leases c' heq) (fun _ _ _ _ => honly.reason _) rfl] at hv
      exact hs.good c' v hv

/-- A connection is accepted. -/
lemma Orderly.accepted (hs : Orderly s) (hnew : s.connections c = none) :
    Orderly ({ s with
      connections := Function.update s.connections c (some { reading := true })
      accepting := !s.shuttingDown }.registerSession c) := by
  have hnolease : s.world.leases.leases c = none := by
    cases hl : s.world.leases.leases c with
    | none => rfl
    | some lease =>
      obtain ⟨conn, hconn, -⟩ := hs.shared.leased c lease hl
      rw [hnew] at hconn
      cases hconn
  refine hs.join hnew _ hs.shared.consistent (.refl _ _) rfl _ (fun hup => by rw [hup]; rfl) rfl
    (fun lease hlease => by rw [hnolease] at hlease; cases hlease) ?_
  refine ⟨.reading rfl rfl rfl rfl rfl hnolease rfl rfl rfl rfl ?_, rfl, Nat.zero_le _, ?_, ?_⟩
  · exact fun hclosed => absurd hclosed Bool.false_ne_true
  · exact fun hdone => absurd hdone Bool.false_ne_true
  · exact fun _ hclosed => absurd hclosed Bool.false_ne_true

/-- A realtime session takes over, or is refused. -/
lemma During.acceptRealtime (hs : Orderly s) (h : During s s' c) (hv : s'.view c = some v)
    (hready : v.Ready) (hearly : v.conn.batchDone = false) {realtime : ι}
    (hnew : s'.connections realtime = none) {s'' : HttpServer ι}
    (hstep : s'.acceptRealtime c realtime = some s'') : Orderly s'' := by
  obtain ⟨hconn, -, hheld, hleased, -, -⟩ := parts_of_view hv
  have hnolease : s'.world.leases.leases realtime = none := by
    cases hl : s'.world.leases.leases realtime with
    | none => rfl
    | some lease =>
      obtain ⟨conn, hconn, -⟩ := h.shared.leased realtime lease hl
      rw [hnew] at hconn
      cases hconn
  unfold HttpServer.acceptRealtime at hstep
  obtain ⟨⟨w, answer⟩, hw, hrest⟩ := Option.bind_eq_some_iff.mp hstep
  have hconsistent := ServerWorld.step_consistent h.shared.consistent hw
  obtain ⟨honly, hworker, hrunning, hanswer⟩ := ServerWorld.step_tryAcquire h.shared.consistent hw
  dsimp only at hrest
  rcases hanswer with ⟨rfl, -⟩ | ⟨rfl, hfree, -, hlease⟩
  · rw [if_neg (by simp)] at hrest
    obtain ⟨s₁, hdrop, rfl⟩ := Option.map_eq_some_iff.mp hrest
    obtain ⟨⟨w₁, answer₁⟩, hw₁, rfl⟩ := Option.map_eq_some_iff.mp hdrop
    obtain ⟨honly₁, hworker₁, hrunning₁, hgone⟩ := ServerWorld.step_drop hconsistent hw₁
    obtain ⟨hsameLeases, hkept⟩ := honly.gone honly₁ hnolease hgone c
    have hworking : w₁.working = s'.world.working := by
      unfold ServerWorld.working
      rw [hworker₁, hworker]
    have hduring := h.world (ServerWorld.step_consistent hconsistent hw₁) hsameLeases
      (hworker₁.trans hworker) (hrunning₁.trans hrunning) fun _ _ => ⟨v.conn, hconn, hready.read⟩
    have hsame : SameSessions s' { s' with world := w₁ } := ⟨rfl, rfl, rfl, rfl, hsameLeases.reason⟩
    have hheld₁ : HttpServer.held { s' with world := w₁ } c = s'.held c :=
      held_congr (by rw [hworking]) rfl rfl
    refine hduring.respond hs (hsame.view hv) ?_ ?_
    · exact ⟨hready.http, hready.read, hready.writing, hheld₁.trans (hheld.symm.trans hready.held),
        fun l hl => hready.lease l ((hleased.trans hkept.symm).trans hl), hready.token, hready.watching,
        hready.sent, hready.transferred, hready.registered, hready.cause⟩
    · intro hdone
      rw [show v.conn.batchDone = true from hdone] at hearly
      cases hearly
  · rw [if_pos rfl] at hrest
    have hup : s'.shuttingDown = false := by
      cases hdown : s'.shuttingDown with
      | false => rfl
      | true =>
        have hmode := h.shared.down.mpr hdown
        rw [hfree] at hmode
        cases hmode
    -- the upgraded session leaves before the new one joins
    have hleft := (h.modify (f := fun conn => { conn with transferred := true }) hconn (fun hread => hread)
      (.inl rfl)).unregister hs.lockable
    have hbetween : Orderly
        ((s'.modify c fun conn => { conn with transferred := true }).unregisterSession c) := by
      refine hleft.orderly hs fun v' hv' => ?_
      rw [unregisterSession_of_up (show (s'.modify c _).shuttingDown = false from hup),
        modify_of_connection hconn, view_of_connection (Function.update_self ..)] at hv'
      obtain rfl := Option.some.inj hv'
      refine ⟨.concluded hready.http hready.read hready.writing (hheld.symm.trans hready.held) ?_ hready.token
        hready.watching (.inr rfl), ?_, ?_, ?_, ?_⟩
      · intro l hl
        exact hready.lease l (hleased.trans hl)
      · simp
      · rw [hready.sent]
        exact Nat.zero_le _
      · intro hdone
        exact absurd (hearly.symm.trans hdone) Bool.false_ne_true
      · exact fun _ hclosed _ => .inr (hready.cause hclosed)
    rw [unregisterSession_of_up (show (s'.modify c _).shuttingDown = false from hup)] at hbetween
    rw [unregisterSession_of_up
      (show (HttpServer.modify { s' with world := w } c _).shuttingDown = false from hup)] at hrest
    rw [modify_of_connection hconn] at hbetween
    rw [modify_of_connection (show HttpServer.connections { s' with world := w } c = some v.conn
      from hconn)] at hrest
    obtain rfl := Option.some.inj hrest
    have hother : realtime ≠ c := by
      rintro rfl
      rw [hnew] at hconn
      cases hconn
    refine hbetween.join (by simpa [hother] using hnew) { realtime := true } hconsistent honly
      hworker s'.accepting h.shared.listens rfl (fun _ _ => rfl) ?_
    refine ⟨.realtime rfl rfl rfl rfl rfl rfl rfl rfl (.inl rfl) ?_, rfl, Nat.zero_le _, ?_, ?_⟩
    · exact fun _ _ => .inr (.inr ⟨rfl, rfl⟩)
    · exact fun hdone => absurd hdone Bool.false_ne_true
    · exact fun hhttp => absurd hhttp (by simp)

/-- A request is read and routed. -/
lemma Orderly.read (hs : Orderly s) (hconn : s.connections c = some conn) (hread : conn.reading = true)
    {outcome : ReadOutcome} {realtime : ι} {starts : Bool}
    (hstep : (s.modify c fun conn => { conn with reading := false }).onRead config c realtime starts
      outcome = some s') : Orderly s' := by
  have hv := view_of_connection hconn
  obtain ⟨hready, hearly, hlease, hup⟩ := (hs.good c _ hv).ready hread
    (conn.batchCancellation.any fun token => s.world.leases.reason token ≠ .none)
  have hduring := (During.start hs.shared).modify (f := fun conn => { conn with reading := false }) hconn
    (fun _ => rfl) (.inl rfl)
  have hviewed := view_modify hv fun conn => { conn with reading := false }
  have hnobatch : conn.batchDone = true → conn.closed = false → ∀ p : Prop, p := by
    intro hdone
    exact absurd (hearly.symm.trans hdone) Bool.false_ne_true
  cases outcome with
  | bodyLimit =>
    obtain rfl := Option.some.inj hstep
    exact hduring.respond hs hviewed hready fun hdone hopen => hnobatch hdone hopen _
  | failed =>
    obtain rfl := Option.some.inj hstep
    exact hduring.fail hs hviewed hready
  | request request =>
    simp only [onRead] at hstep
    split at hstep
    · obtain rfl := Option.some.inj hstep
      exact hduring.respond hs hviewed hready fun hdone hopen => hnobatch hdone hopen _
    · obtain rfl := Option.some.inj hstep
      exact hduring.respond hs hviewed hready fun hdone hopen => hnobatch hdone hopen _
    · exact hduring.acceptBatch hs hviewed hready hearly hup hstep
    · split at hstep
      · cases hstep
      · next hnew =>
        exact hduring.acceptRealtime hs hviewed hready hearly (by simpa using hnew) hstep

end HttpServer

end Voxtral
