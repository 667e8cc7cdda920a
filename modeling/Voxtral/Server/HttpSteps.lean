import Voxtral.Server.SessionViews

/-!
# The operations of a handler

What the operations that handlers are made of do in an orderly server: each leaves the views of all other
sessions alone and keeps what the sessions share.
-/

namespace Voxtral

namespace HttpServer

variable {ι : Type*} [DecidableEq ι] {s s' : HttpServer ι} {c : ι} {conn : Connection}

/-- A change of a session object. -/
lemma modify_of_connection (hc : s.connections c = some conn) (f : Connection → Connection) :
    s.modify c f = { s with connections := Function.update s.connections c (some (f conn)) } := by
  rw [modify, hc]
  rfl

/-- `maybe_finish_shutdown` where all sessions can be locked. -/
lemma maybeFinishShutdown_of_alive (h : ∀ c ∈ s.sessions, s.alive c = true) :
    s.maybeFinishShutdown =
      { s with stopped := s.stopped || (s.shuttingDown && (!s.world.running && s.sessions.isEmpty)) } := by
  have hfilter := List.filter_eq_self.mpr h
  unfold maybeFinishShutdown
  rw [hfilter]
  obtain ⟨world, down, stopped, accepting, sessions, connections, due, posted⟩ := s
  cases down <;> simp

/-- `unregister_session` where all other sessions can be locked. -/
lemma unregisterSession_of_alive (h : ∀ c' ≠ c, c' ∈ s.sessions → s.alive c' = true) :
    s.unregisterSession c =
      { s with
        sessions := s.sessions.filter (· ≠ c)
        stopped := s.stopped ||
          (s.shuttingDown && (!s.world.running && (s.sessions.filter (· ≠ c)).isEmpty)) } := by
  unfold unregisterSession
  rw [maybeFinishShutdown_of_alive]
  intro c' hc'
  obtain ⟨hmem, hne⟩ := List.mem_filter.mp hc'
  exact h c' (by simpa using hne) hmem

/-- `unregister_session` before a shutdown. -/
lemma unregisterSession_of_up (h : s.shuttingDown = false) :
    s.unregisterSession c = { s with sessions := s.sessions.filter (· ≠ c) } := by
  unfold unregisterSession maybeFinishShutdown
  rw [if_pos (by simp [h])]

/-! ## Changes of the session object -/

/-- The session changes its object, with a token of its own if with one. -/
lemma During.modify_token (h : During s s' c) (hc : s'.connections c = some conn)
    {f : Connection → Connection} (hread : conn.reading = false → (f conn).reading = false)
    (htoken : ∀ token, (f conn).batchCancellation = some token →
      token < s'.world.leases.tokens.length ∧ ∀ c' ≠ c, ∀ conn', s'.connections c' = some conn' →
        conn'.batchCancellation ≠ some token) : During s (s'.modify c f) c := by
  rw [modify_of_connection hc]
  have hother : ∀ c' ≠ c, ∀ conn',
      Function.update s'.connections c (some (f conn)) c' = some conn' → s'.connections c' = some conn' := by
    intro c' hne conn' hconn'
    rwa [Function.update_of_ne hne] at hconn'
  have hthere : ∀ c' conn', s'.connections c' = some conn' →
      ∃ conn'', Function.update s'.connections c (some (f conn)) c' = some conn'' := by
    intro c' conn' hconn'
    by_cases heq : c' = c
    · subst heq
      exact ⟨_, Function.update_self ..⟩
    · exact ⟨conn', by rwa [Function.update_of_ne heq]⟩
  refine ⟨{ h.shared with
    leased := fun c' lease hlease => ?_
    heldBy := fun c' hheld => ?_
    sessions := fun c' hmem => ?_
    tokens := fun c' conn' token hconn' htok => ?_
    own := fun c₁ c₂ conn₁ conn₂ token hconn₁ hconn₂ htok₁ htok₂ => ?_ }, fun c' hne => ?_, h.awaited⟩
  · obtain ⟨conn', hconn', hreading⟩ := h.shared.leased c' lease hlease
    by_cases heq : c' = c
    · subst heq
      obtain rfl := Option.some.inj (hc.symm.trans hconn')
      exact ⟨_, Function.update_self .., hread hreading⟩
    · exact ⟨conn', by simpa [heq] using hconn', hreading⟩
  · obtain ⟨conn', hconn'⟩ := h.shared.heldBy c' hheld
    exact hthere c' conn' hconn'
  · obtain ⟨conn', hconn'⟩ := h.shared.sessions c' hmem
    exact hthere c' conn' hconn'
  · by_cases heq : c' = c
    · subst heq
      obtain rfl : f conn = conn' := by simpa using hconn'
      exact (htoken token htok).1
    · exact h.shared.tokens c' conn' token (hother c' heq conn' hconn') htok
  · by_cases heq₁ : c₁ = c
    · by_cases heq₂ : c₂ = c
      · rw [heq₁, heq₂]
      · subst heq₁
        obtain rfl : f conn = conn₁ := by simpa using hconn₁
        exact absurd htok₂ ((htoken token htok₁).2 c₂ heq₂ conn₂ (hother c₂ heq₂ conn₂ hconn₂))
    · by_cases heq₂ : c₂ = c
      · subst heq₂
        obtain rfl : f conn = conn₂ := by simpa using hconn₂
        exact absurd htok₁ ((htoken token htok₂).2 c₁ heq₁ conn₁ (hother c₁ heq₁ conn₁ hconn₁))
      · exact h.shared.own c₁ c₂ conn₁ conn₂ token (hother c₁ heq₁ conn₁ hconn₁)
          (hother c₂ heq₂ conn₂ hconn₂) htok₁ htok₂
  · rw [← h.others c' hne]
    exact view_congr (Function.update_of_ne hne ..) Iff.rfl rfl rfl (fun _ _ _ _ => rfl) rfl

/-- The session changes its object, with no other token than before. -/
lemma During.modify (h : During s s' c) (hc : s'.connections c = some conn)
    {f : Connection → Connection} (hread : conn.reading = false → (f conn).reading = false)
    (htoken : (f conn).batchCancellation = conn.batchCancellation ∨ (f conn).batchCancellation = none) :
    During s (s'.modify c f) c := by
  refine h.modify_token hc hread fun token htok => ?_
  rcases htoken with hsame | hnone
  · rw [hsame] at htok
    refine ⟨h.shared.tokens c conn token hc htok, fun c' hne conn' hconn' htok' => ?_⟩
    exact hne (h.shared.own c' c conn' conn token hconn' hc htok' htok)
  · rw [hnone] at htok
    cases htok

/-- A response is sent. -/
lemma During.sendResponse (h : During s s' c) (hc : s'.connections c = some conn)
    (response : HttpResponse) : During s (s'.sendResponse c response) c := by
  refine h.modify hc (fun hread => ?_) (.inl ?_)
  · split <;> exact hread
  · split <;> rfl

/-! ## The end of a session -/

/-- The session leaves `sessions_`. -/
lemma During.unregister (hs : Lockable s) (h : During s s' c) :
    During s (s'.unregisterSession c) c := by
  rw [unregisterSession_of_alive fun c' hne hmem => h.alive hs hne hmem]
  refine ⟨{ h.shared with
    sessions := fun c' hmem => h.shared.sessions c' (List.mem_of_mem_filter hmem)
    stopped := fun hstopped => ?_ }, fun c' hne => ?_, fun _ hdown => ?_⟩
  · simp only [Bool.or_eq_true, Bool.and_eq_true] at hstopped
    rcases hstopped with hbefore | ⟨hdown, -⟩
    · exact h.shared.stopped hbefore
    · exact hdown
  · rw [← h.others c' hne]
    exact view_congr rfl (by simp [List.mem_filter, hne]) rfl rfl (fun _ _ _ _ => rfl) rfl
  · -- the last session to leave ends the shutdown, unless the worker is still at work
    have hshut : s'.shuttingDown = true := hdown
    dsimp only
    by_cases hempty : s'.sessions.filter (· ≠ c) = []
    · cases hrunning : s'.world.running with
      | true => exact .inr (.inr (.inl hrunning))
      | false =>
        rw [hempty, hshut]
        exact .inl (Bool.or_true _)
    · exact .inr (.inl hempty)

/-- The session closes. -/
lemma During.close (hs : Lockable s) (h : During s s' c) (hc : s'.connections c = some conn)
    (cause : Option CloseCause) : During s (s'.close c cause) c := by
  unfold HttpServer.close
  rw [hc]
  dsimp only
  split
  · exact h
  · exact (h.modify hc (fun hread => hread) (.inl rfl)).unregister hs

/-- The view of a session that closes. -/
lemma During.view_close (hs : Lockable s) (h : During s s' c) (hc : s'.connections c = some conn)
    (hopen : conn.closed = false) (hhere : conn.transferred = false) (cause : Option CloseCause) :
    (s'.close c cause).view c = some
      { conn := { conn with closed := true, cause := cause }
        registered := false
        held := s'.held c
        lease := s'.world.leases.leases c
        requested := conn.batchCancellation.any fun token => s'.world.leases.reason token ≠ .none
        down := s'.shuttingDown } := by
  have hclosing : s'.close c cause =
      (s'.modify c fun conn => { conn with closed := true, cause := cause }).unregisterSession c := by
    unfold HttpServer.close
    rw [hc]
    dsimp only
    rw [if_neg (by simp [hopen, hhere])]
  have hmodified := h.modify (f := fun conn => { conn with closed := true, cause := cause }) hc
    (fun hread => hread) (.inl rfl)
  rw [hclosing, unregisterSession_of_alive fun c' hne hmem => hmodified.alive hs hne hmem,
    modify_of_connection hc, view_of_connection (Function.update_self ..)]
  simp [held]

/-- A session that is closed, or was upgraded, does not close again. -/
lemma close_of_closed (hc : s.connections c = some conn) (hclosed : conn.closed = true)
    (cause : Option CloseCause) : s.close c cause = s := by
  simp [close, hc, hclosed]

/-! ## Changes of the world -/

/-- The leases change where they are the session's, and the worker and the slot do not. -/
lemma During.world (h : During s s' c) {w : ServerWorld ι} (hw : w.Consistent)
    (hlease : ServerWorld.OnlyLease s'.world w c) (hworker : w.worker = s'.world.worker)
    (hrunning : w.running = s'.world.running)
    (hleased : ∀ lease, w.leases.leases c = some lease →
      ∃ conn, s'.connections c = some conn ∧ conn.reading = false) :
    During s { s' with world := w } c := by
  have hworking : w.working = s'.world.working := by
    unfold ServerWorld.working
    rw [hworker]
  have hheld : ∀ c', HttpServer.held { s' with world := w } c' = s'.held c' :=
    fun c' => held_congr (by rw [hworking]) rfl rfl
  refine ⟨{ h.shared with
    consistent := hw
    down := hlease.down.trans h.shared.down
    returned := by rw [hworker]; exact h.shared.returned
    due := by rw [hworker]; exact h.shared.due
    leased := fun c' lease hmem => ?_
    heldBy := fun c' hmem => h.shared.heldBy c' (by rwa [hheld] at hmem)
    tokens := fun c' conn' token hconn' htok =>
      Nat.lt_of_lt_of_le (h.shared.tokens c' conn' token hconn' htok) hlease.tokens }, fun c' hne => ?_,
    fun hbefore hdown => ?_⟩
  · by_cases heq : c' = c
    · subst heq
      exact hleased lease hmem
    · rw [hlease.leases c' heq] at hmem
      exact h.shared.leased c' lease hmem
  · rw [← h.others c' hne]
    exact view_congr rfl Iff.rfl (hheld c') (hlease.leases c' hne) (fun _ _ _ _ => hlease.reason _) rfl
  · have hgoes := h.awaited hbefore hdown
    unfold Pending at hgoes ⊢
    dsimp only
    rwa [hworker, hrunning]

/-- A batch is cancelled by its own token. -/
lemma During.requestCancellation (h : During s s' c) (reason : CancelReason) :
    During s (s'.requestCancellation c reason) c := by
  unfold HttpServer.requestCancellation
  cases htoken : (s'.connections c).bind Connection.batchCancellation with
  | none => exact h
  | some token =>
    obtain ⟨conn, hc, htok⟩ := Option.bind_eq_some_iff.mp htoken
    have hlt := h.shared.tokens c conn token hc htok
    obtain ⟨o, ho⟩ := h.shared.consistent.owned
    have howned : (s'.world.leases.requestOn token reason).OwnedBy o :=
      ⟨ho.active, ho.objects, fun owner howner => by
        simpa [LeaseWorld.requestOn] using ho.owner owner howner, ho.mode⟩
    refine ⟨{ h.shared with
      consistent := ⟨⟨o, howned⟩, h.shared.consistent.working, h.shared.consistent.running⟩
      tokens := fun c' conn' token' hconn' htok' => ?_ }, fun c' hne => ?_, h.awaited⟩
    · simpa [LeaseWorld.requestOn] using h.shared.tokens c' conn' token' hconn' htok'
    · rw [← h.others c' hne]
      refine view_congr rfl Iff.rfl rfl rfl (fun conn' token' hconn' htok' => ?_) rfl
      have hother : token ≠ token' := by
        rintro rfl
        exact hne (h.shared.own c' c conn' conn token hconn' hc htok' htok)
      simp [LeaseWorld.reason, LeaseWorld.requestOn, hother]

/-! ## The worker -/

/-- The sessions are as before, and so are the reasons of the tokens. -/
structure SameSessions (s s' : HttpServer ι) : Prop where
  connections : s'.connections = s.connections
  sessions : s'.sessions = s.sessions
  down : s'.shuttingDown = s.shuttingDown
  stopped : s'.stopped = s.stopped
  reason : ∀ token, s'.world.leases.reason token = s.world.leases.reason token

/-- A posted `on_worker_finished` is no result. -/
lemma filterMap_resultOf_finished (posted : List (Posted ι)) (c : ι) :
    (posted ++ [(.workerFinished : Posted ι)]).filterMap (Posted.resultOf c) =
      posted.filterMap (Posted.resultOf c) := by
  simp [Posted.resultOf]

/-- The worker's thread ends and posts `on_worker_finished`. -/
lemma Shared.complete (h : Shared s) (hstep : s.complete = some s') :
    Shared s' ∧ Awaited s' ∧ SameSessions s s' ∧ s'.world.leases = s.world.leases ∧
      s'.world.running = s.world.running ∧ ∀ c, s'.held c = s.held c ∧ s'.view c = s.view c := by
  obtain ⟨s₁, hworker, rfl⟩ := Option.map_eq_some_iff.mp hstep
  obtain ⟨⟨w, answer⟩, hw, rfl⟩ := Option.map_eq_some_iff.mp hworker
  have hconsistent := ServerWorld.step_consistent h.consistent hw
  obtain ⟨hcleared, rfl⟩ := ServerWorld.step_complete (fun r => (h.returned r).2) hw
  dsimp only at hconsistent ⊢
  have hheld : ∀ c, HttpServer.held { s with
      world := { s.world with worker := some .ended }
      posted := s.posted ++ [.workerFinished] } c = s.held c := by
    intro c
    unfold held
    rw [filterMap_resultOf_finished]
    simp [ServerWorld.working, hcleared]
  refine ⟨{ h with
    consistent := hconsistent
    returned := fun r => by simp
    due := fun p hp => ?_
    heldBy := fun c hmem => h.heldBy c (by rwa [hheld] at hmem) },
    fun _ => .inr (.inr (.inr (.inr (by simp)))), ⟨rfl, rfl, rfl, rfl, fun _ => rfl⟩, rfl, rfl,
    fun c => ⟨hheld c, view_congr rfl Iff.rfl (hheld c) rfl (fun _ _ _ _ => rfl) rfl⟩⟩
  have hreleased := h.due p hp
  rw [hcleared] at hreleased
  cases hreleased

/-- A worker that is no longer running works for nobody, and nothing is due from it. -/
lemma Shared.idle (h : Shared s) (hrunning : s.world.running = false) :
    s.world.working = none ∧ s.due = none := by
  have hnot : ¬ ∃ r, s.world.worker = some (.task r) ∨ s.world.worker = some (.released r) ∨
      s.world.worker = some (.thrown r) := by
    rw [← h.consistent.running, hrunning]
    exact Bool.false_ne_true
  constructor
  · unfold ServerWorld.working
    split
    · next r hworker => exact absurd ⟨r, .inl hworker⟩ hnot
    · next r hworker => exact absurd ⟨r, .inr (.inr hworker)⟩ hnot
    · next holding hworker =>
      cases holding with
      | none => rfl
      | some r => exact absurd hworker (h.returned r).2
    · rfl
  · cases hdue : s.due with
    | none => rfl
    | some p => exact absurd ⟨p.1, .inr (.inl (h.due p hdue))⟩ hnot

/-- The last worker is waited for. -/
lemma During.joinWorker {s'' : HttpServer ι} (h : During s s' c) (hjoin : s'.joinWorker = some s'') :
    During s s'' c ∧ SameSessions s' s'' ∧ s''.world.leases = s'.world.leases ∧
      s''.world.running = s'.world.running ∧ (∀ c', s''.held c' = s'.held c') := by
  unfold HttpServer.joinWorker at hjoin
  split at hjoin
  · obtain ⟨hshared, hawaited, hsame, hleases, hrunning, hviews⟩ := h.shared.complete hjoin
    exact ⟨⟨hshared, fun c' hne => (hviews c').2.trans (h.others c' hne), fun _ => hawaited⟩, hsame,
      hleases, hrunning, fun c' => (hviews c').1⟩
  · obtain rfl := Option.some.inj hjoin
    exact ⟨h, ⟨rfl, rfl, rfl, rfl, fun _ => rfl⟩, rfl, rfl, fun _ => rfl⟩

/-- The session gives up its lease object. -/
lemma During.drop {s'' : HttpServer ι} (h : During s s' c)
    (hstep : s'.workerStep (.drop c) = some s'') :
    During s s'' c ∧ SameSessions s' s'' ∧ s''.held c = s'.held c ∧ s''.world.leases.leases c = none := by
  obtain ⟨⟨w, answer⟩, hw, rfl⟩ := Option.map_eq_some_iff.mp hstep
  obtain ⟨hlease, hworker, hrunning, hnone⟩ := ServerWorld.step_drop h.shared.consistent hw
  have hworking : w.working = s'.world.working := by
    unfold ServerWorld.working
    rw [hworker]
  refine ⟨h.world (ServerWorld.step_consistent h.shared.consistent hw) hlease hworker hrunning ?_,
    ⟨rfl, rfl, rfl, rfl, hlease.reason⟩, held_congr (by rw [hworking]) rfl rfl, hnone⟩
  intro lease hmem
  rw [hnone] at hmem
  cases hmem

/-- A worker is started for a session that nothing is kept for; or the session has no lease any more. -/
lemma During.startWorker {s'' : HttpServer ι} {started : Option Bool} {starts : Bool} (h : During s s' c)
    (hc : s'.connections c = some conn) (hheld : s'.held c = [])
    (hstep : s'.startWorker c starts = some (s'', started)) :
    During s s'' c ∧ SameSessions s' s'' ∧
      (started = some true ∧ s''.held c = [none] ∧ s''.world.leases = s'.world.leases ∨
        started ≠ some true ∧ s''.held c = [] ∧ s''.world.leases.leases c = none) := by
  unfold HttpServer.startWorker at hstep
  split at hstep
  · obtain ⟨s₁, hdrop, heq⟩ := Option.map_eq_some_iff.mp hstep
    obtain ⟨rfl, rfl⟩ := Prod.mk.inj heq
    obtain ⟨hduring, hsame, hkept, hnone⟩ := h.drop hdrop
    exact ⟨hduring, hsame, .inr ⟨by simp, hkept.trans hheld, hnone⟩⟩
  · next hidle =>
    rw [Bool.not_eq_true] at hidle
    obtain ⟨s₁, hjoin, hstart⟩ := Option.bind_eq_some_iff.mp hstep
    obtain ⟨hjoined, hsame, hleases, hrunning, hkept⟩ := h.joinWorker hjoin
    rw [hidle] at hrunning
    split at hstart
    · obtain ⟨s₂, hworker, heq⟩ := Option.map_eq_some_iff.mp hstart
      obtain ⟨rfl, rfl⟩ := Prod.mk.inj heq
      obtain ⟨⟨w, answer⟩, hw, rfl⟩ := Option.map_eq_some_iff.mp hworker
      have hconsistent := ServerWorld.step_consistent hjoined.shared.consistent hw
      obtain rfl := ServerWorld.step_startWorker hrunning hw
      obtain ⟨hworking, hdue⟩ := hjoined.shared.idle hrunning
      dsimp only at hconsistent ⊢
      have hothers : ∀ c' ≠ c, HttpServer.held { s₁ with
          world := { s₁.world with running := true, worker := some (.task c) } } c' = s₁.held c' := by
        intro c' hne
        refine held_congr ?_ rfl rfl
        rw [hworking]
        simp [ServerWorld.working, Ne.symm hne]
      refine ⟨⟨{ hjoined.shared with
        consistent := hconsistent
        returned := fun r => by simp
        due := fun p hp => by rw [hdue] at hp; cases hp
        heldBy := fun c' hmem => ?_ }, fun c' hne => ?_, fun _ _ => .inr (.inr (.inl rfl))⟩,
        ⟨hsame.connections, hsame.sessions, hsame.down, hsame.stopped, hsame.reason⟩,
        .inl ⟨rfl, ?_, hleases⟩⟩
      · by_cases heq : c' = c
        · rw [heq]
          exact ⟨conn, by rw [hsame.connections]; exact hc⟩
        · exact hjoined.shared.heldBy c' (by rwa [hothers c' heq] at hmem)
      · rw [← hjoined.others c' hne]
        exact view_congr rfl Iff.rfl (hothers c' hne) rfl (fun _ _ _ _ => rfl) rfl
      · have hnothing := (hkept c).trans hheld
        simp only [held, hworking, hdue] at hnothing
        simpa [held, ServerWorld.working, hdue] using hnothing
    · obtain ⟨s₂, hdrop, heq⟩ := Option.map_eq_some_iff.mp hstart
      obtain ⟨rfl, rfl⟩ := Prod.mk.inj heq
      obtain ⟨hduring, hsame', hkept', hnone⟩ := hjoined.drop hdrop
      refine ⟨hduring, ⟨hsame'.connections.trans hsame.connections, hsame'.sessions.trans hsame.sessions,
        hsame'.down.trans hsame.down, hsame'.stopped.trans hsame.stopped,
        fun token => (hsame'.reason token).trans (hsame.reason token)⟩,
        .inr ⟨by simp, (hkept'.trans (hkept c)).trans hheld, hnone⟩⟩

end HttpServer

end Voxtral
