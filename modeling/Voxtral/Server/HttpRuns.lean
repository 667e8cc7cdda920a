import Voxtral.Server.HttpShutdown
import Voxtral.Lib.Runs

/-!
# Runs of the server

The worker of a realtime session, the steps of the worker, and what holds after every run of the server,
whatever its clients send and however the handlers and the worker take turns.
-/

namespace Voxtral

namespace HttpServer

variable {ι : Type*} [DecidableEq ι] {config : ServerConfig} {s s' : HttpServer ι} {c : ι}
  {conn : Connection} {v : SessionView}

/-! ## Realtime sessions -/

/-- The stage of a realtime session. -/
lemma realtime_of_good (hgood : v.Good) (hreal : v.conn.realtime = true) :
    v.conn.reading = false ∧ v.conn.writing = none ∧ v.conn.watching = false ∧
      v.conn.batchCancellation = none ∧ v.conn.batchDone = false ∧ v.conn.sent = [] ∧
      v.conn.transferred = false ∧ (v.held = [] ∨ v.held = [none] ∧ v.conn.workerStarted = true) ∧
      ∀ l, v.lease = some l → l = {} ∨ v.held = [none] ∨
        v.conn.closed = false ∧ v.conn.workerStarted = false := by
  cases hgood.phase with
  | reading http => exact absurd (http.symm.trans hreal) Bool.false_ne_true
  | batch _ http => exact absurd (http.symm.trans hreal) Bool.false_ne_true
  | answering _ http => exact absurd (http.symm.trans hreal) Bool.false_ne_true
  | concluded http => exact absurd (http.symm.trans hreal) Bool.false_ne_true
  | realtime _ read writing watching token early sent transferred held lease =>
    exact ⟨read, writing, watching, token, early, sent, transferred, held, lease⟩

/-- A realtime session starts its worker, or gives up its lease. -/
lemma Orderly.realtimeStart (hs : Orderly s) (hconn : s.connections c = some conn)
    (hreal : conn.realtime = true) (hidle : conn.workerStarted = false)
    {starts : Bool} {r : HttpServer ι × Option Bool} (hstep : s.startWorker c starts = some r) :
    Orderly (r.1.modify c fun conn => { conn with workerStarted := true }) := by
  obtain ⟨s₁, started⟩ := r
  have hv := view_of_connection hconn
  have hgood := hs.good c _ hv
  obtain ⟨read, writing, watching, token, early, sent, transferred, held, lease⟩ :=
    realtime_of_good hgood hreal
  have hnothing : s.held c = [] := by
    rcases held with hheld | ⟨-, hstarted⟩
    · exact hheld
    · exact absurd (hidle.symm.trans hstarted) Bool.false_ne_true
  obtain ⟨hduring, hsame, hcases⟩ := (During.start hs.shared).startWorker hconn hnothing hstep
  have hviewed := hsame.view hv
  refine (hduring.modify (f := fun conn => { conn with workerStarted := true })
    (connection_of_view hviewed) (fun hread => hread) (.inl rfl)).orderly hs fun v' hv' => ?_
  obtain rfl := Option.some.inj ((view_modify hviewed _).symm.trans hv')
  refine ⟨?_, hgood.registered, hgood.once, hgood.answers, hgood.cause⟩
  refine .realtime hreal read writing watching token early sent transferred ?_ ?_
  · rcases hcases with ⟨-, hheld, -⟩ | ⟨-, hheld, -⟩
    · exact .inr ⟨hheld, rfl⟩
    · exact .inl hheld
  · intro l hl
    rcases hcases with ⟨-, hheld, -⟩ | ⟨-, -, hnone⟩
    · exact .inr (.inl hheld)
    · rw [show s₁.world.leases.leases c = some l from hl] at hnone
      cases hnone

/-- The view of a session that leaves `sessions_`. -/
lemma During.view_unregister (hs : Lockable s) (h : During s s' c) (hv : s'.view c = some v) :
    (s'.unregisterSession c).view c = some { v with registered := false } := by
  obtain ⟨conn, hconn, rfl⟩ := Option.map_eq_some_iff.mp hv
  rw [unregisterSession_of_alive fun c' hne hmem => h.alive hs hne hmem]
  refine Eq.trans (view_of_connection (?_ : HttpServer.connections _ c = some conn)) ?_
  · exact hconn
  · simp [held]

/-- A realtime session ends. -/
lemma Orderly.realtimeFinish (hs : Orderly s) (hconn : s.connections c = some conn)
    (hreal : conn.realtime = true) {s₁ : HttpServer ι}
    (hstep : if conn.workerStarted then
        s₁ = s.modify c fun conn => { conn with closed := true }
      else (s.modify c fun conn => { conn with closed := true }).workerStep (.drop c) = some s₁) :
    Orderly (s₁.unregisterSession c) := by
  have hv := view_of_connection hconn
  have hgood := hs.good c _ hv
  obtain ⟨read, writing, watching, token, early, sent, transferred, held, lease⟩ :=
    realtime_of_good hgood hreal
  have hclosing := (During.start hs.shared).modify (f := fun conn => { conn with closed := true }) hconn
    (fun hread => hread) (.inl rfl)
  have hviewed := view_modify hv fun conn => { conn with closed := true }
  have hcause : ∀ p : Prop, conn.realtime = false → p := by
    intro p hhttp
    exact absurd (hhttp.symm.trans hreal) Bool.false_ne_true
  split at hstep
  · next hstarted =>
    subst hstep
    refine (hclosing.unregister hs.lockable).orderly hs fun v' hv' => ?_
    obtain rfl := Option.some.inj ((hclosing.view_unregister hs.lockable hviewed).symm.trans hv')
    refine ⟨.realtime hreal read writing watching token early sent transferred held ?_, rfl, hgood.once,
      hgood.answers, fun hhttp => hcause _ hhttp⟩
    intro l hl
    rcases lease l hl with hempty | hheld | ⟨-, hidle⟩
    · exact .inl hempty
    · exact .inr (.inl hheld)
    · exact absurd (hidle.symm.trans hstarted) Bool.false_ne_true
  · obtain ⟨hdropped, hsame, hkept, hnone⟩ := hclosing.drop hstep
    refine (hdropped.unregister hs.lockable).orderly hs fun v' hv' => ?_
    obtain rfl := Option.some.inj
      ((hdropped.view_unregister hs.lockable (hsame.view hviewed)).symm.trans hv')
    refine ⟨.realtime hreal read writing watching token early sent transferred ?_ ?_, rfl, hgood.once,
      hgood.answers, fun hhttp => hcause _ hhttp⟩
    · dsimp only
      rw [hkept]
      exact held
    · intro l hl
      rw [show s₁.world.leases.leases c = some l from hl] at hnone
      cases hnone

/-! ## The worker -/

/-- The worker's session. -/
lemma held_of_task (hs : Orderly s) (hworker : s.world.worker = some (.task c)) :
    ∃ conn, s.connections c = some conn ∧ s.held c = [none] ∧ s.due = none ∧
      s.posted.filterMap (Posted.resultOf c) = [] := by
  have hdue : s.due = none := by
    cases hdue : s.due with
    | none => rfl
    | some p =>
      have hreleased := hs.shared.due p hdue
      rw [hworker] at hreleased
      cases hreleased
  have hheld : s.held c = none :: (s.posted.filterMap (Posted.resultOf c)).map some := by
    simp [held, ServerWorld.working, hworker, hdue]
  obtain ⟨conn, hconn⟩ := hs.shared.heldBy c (by rw [hheld]; exact List.cons_ne_nil _ _)
  have hempty : s.posted.filterMap (Posted.resultOf c) = [] := by
    cases (hs.good c _ (view_of_connection hconn)).phase with
    | reading _ _ _ _ held => simp [show s.held c = [] from held] at hheld
    | batch x _ _ _ held =>
      rw [show s.held c = [x] from held] at hheld
      exact List.map_eq_nil_iff.mp (List.cons.inj hheld).2.symm
    | answering _ _ _ _ held => simp [show s.held c = [] from held] at hheld
    | concluded _ _ _ held => simp [show s.held c = [] from held] at hheld
    | realtime _ _ _ _ _ _ _ _ held =>
      rcases held with held | ⟨held, -⟩
      · simp [show s.held c = [] from held] at hheld
      · rw [show s.held c = [none] from held] at hheld
        exact List.map_eq_nil_iff.mp (List.cons.inj hheld).2.symm
  exact ⟨conn, hconn, by rw [hheld, hempty]; rfl, hdue, hempty⟩

/-- The worker's task gives up its lease; its session is kept by what is then due. -/
lemma During.reset (hs : Orderly s) (hworker : s.world.worker = some (.task c))
    (due : Option BatchTranscriptionResult) (hstep : s.workerStep .reset = some s') :
    During s { s' with due := due.map fun result => (c, result) } c ∧ SameSessions s s' ∧
      HttpServer.held { s' with due := due.map fun result => (c, result) } c = due.toList.map some ∧
      s'.world.leases.leases c = some {} := by
  obtain ⟨conn, hconn, -, hdue, hposted⟩ := held_of_task hs hworker
  obtain ⟨⟨w, answer⟩, hw, rfl⟩ := Option.map_eq_some_iff.mp hstep
  have hconsistent := ServerWorld.step_consistent hs.shared.consistent hw
  obtain ⟨c', htask, honly, hreleased, hrunning, hempty⟩ :=
    ServerWorld.step_reset hs.shared.consistent hw
  obtain rfl : c' = c := by
    rw [hworker] at htask
    cases htask
    rfl
  have hidle : w.working = none := by simp [ServerWorld.working, hreleased]
  have hset : w.running = true := by
    rw [hrunning]
    exact hs.shared.consistent.running.mpr ⟨c', .inl hworker⟩
  have hheld : ∀ c, HttpServer.held { s with world := w, due := due.map fun result => (c', result) } c =
      if c = c' then due.toList.map some else s.held c := by
    intro c
    have hworking : s.world.working = some c' := by simp [ServerWorld.working, hworker]
    by_cases heq : c = c'
    · subst heq
      rw [if_pos rfl]
      cases due with
      | none => simp [held, hidle, hposted]
      | some result => simp [held, hidle, hposted]
    · rw [if_neg heq]
      cases due with
      | none => simp [held, hidle, hworking, hdue, Ne.symm heq]
      | some result => simp [held, hidle, hworking, hdue, Ne.symm heq]
  refine ⟨⟨{ hs.shared with
    consistent := hconsistent
    down := honly.down.trans hs.shared.down
    returned := fun r => by simp [hreleased]
    due := fun p hp => ?_
    leased := fun c lease hlease => ?_
    heldBy := fun c hmem => ?_
    tokens := fun c conn token hconn htok =>
      Nat.lt_of_lt_of_le (hs.shared.tokens c conn token hconn htok) honly.tokens },
    fun c hne => ?_, fun _ _ => .inr (.inr (.inl hset))⟩, ⟨rfl, rfl, rfl, rfl, honly.reason⟩,
    (hheld c').trans (if_pos rfl), hempty⟩
  · obtain ⟨result, -, rfl⟩ := Option.map_eq_some_iff.mp hp
    exact hreleased
  · by_cases heq : c = c'
    · subst heq
      obtain ⟨lease', hlive, -⟩ := hs.shared.consistent.working c (by simp [ServerWorld.working, hworker])
      exact hs.shared.leased c lease' hlive
    · exact hs.shared.leased c lease ((honly.leases c heq).symm.trans hlease)
  · by_cases heq : c = c'
    · exact ⟨conn, by rw [heq]; exact hconn⟩
    · rw [hheld, if_neg heq] at hmem
      exact hs.shared.heldBy c hmem
  · exact view_congr rfl Iff.rfl ((hheld c).trans (if_neg hne)) (honly.leases c hne)
      (fun _ _ _ _ => honly.reason _) rfl

/-- The worker's task releases its lease. -/
lemma Orderly.released (hs : Orderly s) {result : BatchTranscriptionResult}
    (hstep : s.release result = some s') : Orderly s' := by
  unfold HttpServer.release at hstep
  split at hstep
  · next c hworker =>
    obtain ⟨conn, hconn, hheld, hdue, -⟩ := held_of_task hs hworker
    obtain ⟨v, hv⟩ : ∃ v, s.view c = some v := ⟨_, view_of_connection hconn⟩
    obtain rfl := Option.some.inj (hconn.symm.trans (connection_of_view hv))
    have hgood := hs.good c v hv
    obtain ⟨-, -, hviewed, hlease, -, hrequested⟩ := parts_of_view hv
    rw [hconn] at hstep
    dsimp only at hstep
    split at hstep
    · next hreal =>
      obtain ⟨read, writing, watching, token, early, sent, transferred, -, -⟩ :=
        realtime_of_good hgood hreal
      obtain ⟨hduring, hsame, hnothing, hempty⟩ := During.reset hs hworker none hstep
      have hsame' : { s' with due := none } = s' := by
        obtain ⟨w, -, rfl⟩ := Option.map_eq_some_iff.mp hstep
        rw [← hdue]
      rw [Option.map_none, hsame'] at hduring hnothing
      refine hduring.orderly hs fun v' hv' => ?_
      obtain rfl := Option.some.inj ((hsame.view hv).symm.trans hv')
      refine ⟨.realtime hreal read writing watching token early sent transferred (.inl hnothing) ?_,
        hgood.registered, hgood.once, hgood.answers, hgood.cause⟩
      intro l hl
      rw [show s'.world.leases.leases c = some l from hl] at hempty
      exact .inl (Option.some.inj hempty)
    · next hhttp =>
      split at hstep
      · cases hstep
      · next token htoken =>
        split at hstep
        · cases hstep
        · next hcause =>
          obtain ⟨s₁, hreset, rfl⟩ := Option.map_eq_some_iff.mp hstep
          obtain ⟨hduring, hsame, hkept, hempty⟩ := During.reset hs hworker (some result) hreset
          have hsame' : SameSessions s { s₁ with due := some (c, result) } :=
            ⟨hsame.connections, hsame.sessions, hsame.down, hsame.stopped, hsame.reason⟩
          have hviewed' := hsame'.view hv
          change Orderly (HttpServer.modify { s₁ with due := some (c, result) } c _)
          refine (hduring.modify (f := fun conn => { conn with result := some result })
            (connection_of_view hviewed') (fun hread => hread) (.inl rfl)).orderly hs fun v' hv' => ?_
          obtain rfl := Option.some.inj ((view_modify hviewed' _).symm.trans hv')
          have hone : v.held = [none] := hviewed.trans hheld
          cases hgood.phase with
          | reading _ _ _ _ held =>
            rw [hone] at held
            cases held
          | answering _ _ _ _ held =>
            rw [hone] at held
            cases held
          | concluded _ _ _ held =>
            rw [hone] at held
            cases held
          | realtime hreal => exact absurd hreal hhttp
          | batch x http read writing held lease asked early sent transferred closed down requested hresult =>
            obtain rfl : none = x := (List.cons.inj (hone.symm.trans held)).1
            -- a batch that was cancelled was requested to be, and its session is closed
            have hclosed : result.cancelled = true → v.conn.closed = true := by
              intro hcancelled
              apply requested
              rw [← hlease, lease, if_pos rfl] at htoken
              rw [hrequested, show v.conn.batchCancellation = some token from htoken]
              simpa using fun hnone => hcause ⟨hcancelled, hnone⟩
            refine ⟨.batch (some result) http read writing hkept ?_ asked early sent transferred closed down
              ?_ ?_, hgood.registered, hgood.once, ?_, hgood.cause⟩
            · exact hempty
            · intro hreq
              apply requested
              rw [hrequested]
              rw [← hreq]
              simp only [hsame.reason]
            · intro r hr
              obtain rfl := Option.some.inj hr
              exact ⟨rfl, hclosed⟩
            · intro hdone
              exact absurd (early.symm.trans hdone) Bool.false_ne_true
  · cases hstep

/-- The worker's task posts its result. -/
lemma Orderly.post (hs : Orderly s) {result : BatchTranscriptionResult} (hdue : s.due = some (c, result)) :
    Orderly { s with due := none, posted := s.posted ++ [.batchResult c result] } := by
  have hworking : s.world.working = none := by
    simp [ServerWorld.working, hs.shared.due (c, result) hdue]
  have hheld : ∀ c', HttpServer.held
      { s with due := none, posted := s.posted ++ [.batchResult c result] } c' = s.held c' := by
    intro c'
    by_cases heq : c = c'
    · -- nothing else is kept for the session
      subst heq
      have hkept : s.held c = some result :: (s.posted.filterMap (Posted.resultOf c)).map some := by
        simp [held, hworking, hdue, Option.filter]
      obtain ⟨conn, hconn⟩ := hs.shared.heldBy c (by rw [hkept]; exact List.cons_ne_nil _ _)
      have hempty : s.posted.filterMap (Posted.resultOf c) = [] := by
        cases (hs.good c _ (view_of_connection hconn)).phase with
        | reading _ _ _ _ held => simp [show s.held c = [] from held] at hkept
        | batch x _ _ _ held =>
          rw [show s.held c = [x] from held] at hkept
          exact List.map_eq_nil_iff.mp (List.cons.inj hkept).2.symm
        | answering _ _ _ _ held => simp [show s.held c = [] from held] at hkept
        | concluded _ _ _ held => simp [show s.held c = [] from held] at hkept
        | realtime _ _ _ _ _ _ _ _ held =>
          rcases held with held | ⟨held, -⟩
          · simp [show s.held c = [] from held] at hkept
          · rw [show s.held c = [none] from held] at hkept
            cases hkept
      rw [hkept, hempty]
      simp [held, hworking, hempty, Posted.resultOf]
    · simp [held, hworking, hdue, Posted.resultOf, heq]
  refine hs.of_view { hs.shared with
    due := fun p hp => by cases hp
    heldBy := fun c' hmem => hs.shared.heldBy c' (by rwa [hheld] at hmem) } (fun hdown => ?_)
    fun c' => view_congr rfl Iff.rfl (hheld c') rfl (fun _ _ _ _ => rfl) rfl
  rcases hs.awaited hdown with hstopped | hsessions | hrunning | hcleared | hposted
  · exact .inl hstopped
  · exact .inr (.inl hsessions)
  · exact .inr (.inr (.inl hrunning))
  · exact .inr (.inr (.inr (.inl hcleared)))
  · exact .inr (.inr (.inr (.inr (List.mem_append_left _ hposted))))

/-- The worker clears `running_`. -/
lemma Orderly.clear (hs : Orderly s) (hdue : s.due = none) (hstep : s.workerStep .clear = some s') :
    Orderly s' := by
  obtain ⟨⟨w, answer⟩, hw, rfl⟩ := Option.map_eq_some_iff.mp hstep
  have hconsistent := ServerWorld.step_consistent hs.shared.consistent hw
  obtain ⟨r, hreleased, rfl⟩ := ServerWorld.step_clear (fun r => (hs.shared.returned r).1) hw
  have hheld : ∀ c', HttpServer.held { s with
      world := { s.world with running := false, worker := some (.cleared none) } } c' = s.held c' :=
    fun c' => held_congr (by simp [ServerWorld.working, hreleased]) rfl rfl
  refine hs.of_view { hs.shared with
    consistent := hconsistent
    returned := fun r => by simp
    due := fun p hp => by rw [hdue] at hp; cases hp
    heldBy := fun c' hmem => hs.shared.heldBy c' (by rwa [hheld] at hmem) }
    (fun _ => .inr (.inr (.inr (.inl rfl))))
    fun c' => view_congr rfl Iff.rfl (hheld c') rfl (fun _ _ _ _ => rfl) rfl

/-- The worker's thread ends. -/
lemma Orderly.complete (hs : Orderly s) (hstep : s.complete = some s') : Orderly s' := by
  obtain ⟨hshared, hawaited, -, -, -, hviews⟩ := hs.shared.complete hstep
  exact hs.of_view hshared hawaited fun c => (hviews c).2

/-! ## Whole runs -/

/-- The server at the start. -/
lemma orderly_init : Orderly ({} : HttpServer ι) where
  shared :=
    { consistent := ServerWorld.consistent_init
      down := iff_of_false (by simp) (by simp)
      returned := by simp
      due := by simp
      leased := by simp
      heldBy := fun c hheld => absurd rfl hheld
      sessions := by simp
      tokens := by simp
      own := by simp
      stopped := by simp
      listens := fun _ => rfl }
  good := by
    intro c v hv
    cases hv
  awaited := by
    intro hdown
    cases hdown

/-- Every event keeps the server orderly. -/
lemma step_orderly (hs : Orderly s) {event : HttpEvent ι} {u : Unit}
    (hstep : s.step config event = some (s', u)) : Orderly s' := by
  cases event with
  | accepted c =>
    simp only [step] at hstep
    split at hstep
    · cases hstep
    · next hfree =>
      cases hstep
      rw [not_or, not_or] at hfree
      exact hs.accepted (by simpa using hfree.2.2)
  | acceptFailed =>
    simp only [step] at hstep
    split at hstep
    · cases hstep
    · cases hstep
      have hlistens : s.shuttingDown = false → (!s.shuttingDown) = true := by
        intro hup
        rw [hup]
        rfl
      exact hs.of_view { hs.shared with listens := hlistens } hs.awaited fun _ => rfl
  | read c outcome realtime starts =>
    simp only [step] at hstep
    split at hstep
    · cases hstep
    · next conn hconn =>
      split at hstep
      · cases hstep
      · next hreading =>
        obtain ⟨s₁, hread, heq⟩ := Option.map_eq_some_iff.mp hstep
        cases heq
        rw [not_or] at hreading
        exact hs.read hconn (by simpa using hreading.2) hread
  | written c =>
    simp only [step] at hstep
    split at hstep
    · cases hstep
    · next conn hconn =>
      split at hstep
      · cases hstep
      · next hwriting =>
        cases hstep
        rw [not_or] at hwriting
        exact hs.written hconn hwriting.2
  | watched c aborted =>
    simp only [step] at hstep
    split at hstep
    · cases hstep
    · next conn hconn =>
      split at hstep
      · cases hstep
      · next hwatching =>
        rw [not_or] at hwatching
        have hkept := hs.watched hconn (by simpa using hwatching.2) aborted
        split at hstep
        · next hdone =>
          cases hstep
          rwa [if_pos hdone] at hkept
        · next hlive =>
          cases hstep
          rwa [if_neg hlive] at hkept
  | handle posted =>
    simp only [step] at hstep
    split at hstep
    · cases hstep
    · next hposted =>
      rw [not_or, not_not] at hposted
      cases posted with
      | workerFinished =>
        cases hstep
        exact hs.workerFinished
      | batchResult c result =>
        cases hstep
        exact hs.batchResult hposted.2
  | signal =>
    simp only [step] at hstep
    split at hstep
    · cases hstep
    · obtain ⟨s₁, hshut, heq⟩ := Option.map_eq_some_iff.mp hstep
      cases heq
      exact hs.initiateShutdown hshut
  | timeout =>
    simp only [step] at hstep
    split at hstep
    · cases hstep
    · next hdown =>
      cases hstep
      rw [not_or] at hdown
      exact hs.forceShutdown (by simpa using hdown.2)
  | realtimeStart c starts =>
    simp only [step] at hstep
    split at hstep
    · cases hstep
    · next conn hconn =>
      split at hstep
      · cases hstep
      · next hwaiting =>
        obtain ⟨r, hstart, heq⟩ := Option.map_eq_some_iff.mp hstep
        cases heq
        simp only [not_or, Bool.not_eq_false, Bool.not_eq_true] at hwaiting
        exact hs.realtimeStart hconn hwaiting.2.1 hwaiting.2.2.2 hstart
  | realtimeFinish c =>
    simp only [step] at hstep
    split at hstep
    · cases hstep
    · next conn hconn =>
      split at hstep
      · cases hstep
      · next hopen =>
        simp only [not_or, Bool.not_eq_false, Bool.not_eq_true] at hopen
        split at hstep
        · next hstarted =>
          cases hstep
          exact hs.realtimeFinish hconn hopen.2.1 (by rw [if_pos hstarted])
        · next hidle =>
          obtain ⟨s₁, hdrop, heq⟩ := Option.map_eq_some_iff.mp hstep
          cases heq
          exact hs.realtimeFinish hconn hopen.2.1 (by rw [if_neg hidle]; exact hdrop)
  | released result =>
    obtain ⟨s₁, hrelease, heq⟩ := Option.map_eq_some_iff.mp hstep
    cases heq
    exact hs.released hrelease
  | post =>
    simp only [step] at hstep
    split at hstep
    · cases hstep
    · next c result hdue =>
      cases hstep
      exact hs.post hdue
  | clear =>
    simp only [step] at hstep
    split at hstep
    · cases hstep
    · next hdue =>
      obtain ⟨s₁, hclear, heq⟩ := Option.map_eq_some_iff.mp hstep
      cases heq
      exact hs.clear (by simpa using hdue) hclear
  | complete =>
    obtain ⟨s₁, hcomplete, heq⟩ := Option.map_eq_some_iff.mp hstep
    cases heq
    exact hs.complete hcomplete

/-- A session that the worker's task works for is the worker's. -/
lemma working_of_mem (h : none ∈ s.held c) : s.world.working = some c := by
  unfold held at h
  rcases List.mem_append.mp h with htask | hresult
  · by_contra hother
    rw [if_neg hother] at htask
    cases htask
  · obtain ⟨r, -, hr⟩ := List.mem_map.mp hresult
    cases hr

/-! ## No handler is stuck -/

/-- A session that nothing is kept for is not the worker's. -/
lemma working_ne_of_held (h : s.held c = []) : s.world.working ≠ some c := by
  intro hworking
  have hmem : none ∈ s.held c := by
    unfold held
    rw [if_pos hworking]
    exact List.mem_append_left _ (List.mem_singleton_self _)
  rw [h] at hmem
  cases hmem

/-- The session's lease object can end. -/
lemma exists_workerDrop {lease : GpuLease} (hl : s.world.leases.leases c = some lease)
    (hheld : s.held c = []) : ∃ s', s.workerStep (.drop c) = some s' := by
  obtain ⟨w, answer, hw⟩ := ServerWorld.exists_drop hl (working_ne_of_held hheld)
  exact ⟨{ s with world := w }, by rw [workerStep, hw]; rfl⟩

/-- A session with a live lease can start the worker, or learn that it cannot. -/
lemma Shared.exists_startWorker (h : Shared s) {lease : GpuLease} (hl : s.world.leases.Live c lease)
    (hheld : s.held c = []) (starts : Bool) : ∃ r, s.startWorker c starts = some r := by
  unfold startWorker
  split
  · obtain ⟨s₁, hdrop⟩ := exists_workerDrop hl.1 hheld
    exact ⟨(s₁, some false), by rw [hdrop]; rfl⟩
  · next hfree =>
    rw [Bool.not_eq_true] at hfree
    obtain ⟨s₁, hjoin⟩ : ∃ s₁, s.joinWorker = some s₁ := by
      unfold joinWorker
      split
      · next holding hworker =>
        cases holding with
        | none =>
          simp only [HttpServer.complete, workerStep, ServerWorld.step, hworker]
          exact ⟨_, rfl⟩
        | some r => exact absurd hworker (h.returned r).2
      · exact ⟨s, rfl⟩
    obtain ⟨hjoined, -, hleases, hrunning, hkept⟩ := (During.start (c := c) h).joinWorker hjoin
    have hlive : s₁.world.leases.Live c lease := by rwa [hleases]
    have hnothing := (hkept c).trans hheld
    rw [hjoin, Option.bind_some]
    split
    · obtain ⟨w, answer, hw⟩ := ServerWorld.exists_startWorker hlive (working_ne_of_held hnothing)
        (hrunning.trans hfree)
      exact ⟨({ s₁ with world := w }, some true), by rw [workerStep, hw]; rfl⟩
    · obtain ⟨s₂, hdrop⟩ := exists_workerDrop hlive.1 hnothing
      exact ⟨(s₂, none), by rw [hdrop]; rfl⟩

/-- A request that is routed to a batch is started or answered. -/
lemma Shared.exists_acceptBatch (h : Shared s) (hconn : s.connections c = some conn)
    (hread : conn.reading = false) (hnew : s.world.leases.leases c = none) (hheld : s.held c = [])
    (audio : AudioData) (text starts : Bool) : ∃ s', s.acceptBatch c audio text starts = some s' := by
  obtain ⟨w, answer, hw⟩ := ServerWorld.exists_tryAcquire hnew .batch
  obtain ⟨honly, hworker, hrunning, hanswer⟩ := ServerWorld.step_tryAcquire h.consistent hw
  have hacquire := (During.start h).world (ServerWorld.step_consistent h.consistent hw) honly hworker
    hrunning fun _ _ => ⟨conn, hconn, hread⟩
  have hworking : w.working = s.world.working := by
    unfold ServerWorld.working
    rw [hworker]
  have hkept : HttpServer.held { s with world := w } c = s.held c :=
    held_congr (by rw [hworking]) rfl rfl
  unfold acceptBatch
  rw [hw, Option.bind_some]
  dsimp only
  rcases hanswer with ⟨rfl, hempty⟩ | ⟨rfl, -, -, hlease⟩
  · obtain ⟨s₁, hdrop⟩ := exists_workerDrop (s := { s with world := w }) hempty (hkept.trans hheld)
    rw [if_neg (by simp), hdrop]
    exact ⟨_, rfl⟩
  · obtain ⟨r, hstart⟩ := hacquire.shared.exists_startWorker ⟨hlease, rfl⟩ (hkept.trans hheld) starts
    rw [if_pos rfl]
    unfold startBatch
    rw [hstart]
    exact ⟨_, rfl⟩

/-- A request that is routed to a realtime session is taken over or answered. -/
lemma Shared.exists_acceptRealtime (h : Shared s) {realtime : ι} (hnew : s.connections realtime = none)
    (c : ι) : ∃ s', s.acceptRealtime c realtime = some s' := by
  have hnolease : s.world.leases.leases realtime = none := by
    cases hl : s.world.leases.leases realtime with
    | none => rfl
    | some lease =>
      obtain ⟨conn, hconn, -⟩ := h.leased realtime lease hl
      rw [hnew] at hconn
      cases hconn
  have hheld : s.held realtime = [] := by
    by_contra hsome
    obtain ⟨conn, hconn⟩ := h.heldBy realtime hsome
    rw [hnew] at hconn
    cases hconn
  obtain ⟨w, answer, hw⟩ := ServerWorld.exists_tryAcquire hnolease .realtime
  obtain ⟨honly, hworker, hrunning, hanswer⟩ := ServerWorld.step_tryAcquire h.consistent hw
  have hworking : w.working = s.world.working := by
    unfold ServerWorld.working
    rw [hworker]
  have hkept : HttpServer.held { s with world := w } realtime = s.held realtime :=
    held_congr (by rw [hworking]) rfl rfl
  unfold acceptRealtime
  rw [hw, Option.bind_some]
  dsimp only
  rcases hanswer with ⟨rfl, hempty⟩ | ⟨rfl, -⟩
  · obtain ⟨s₁, hdrop⟩ := exists_workerDrop (s := { s with world := w }) hempty (hkept.trans hheld)
    rw [if_neg (by simp), hdrop]
    exact ⟨_, rfl⟩
  · exact ⟨_, rfl⟩

/-- Every request that arrives is handled. -/
lemma Orderly.exists_read (hs : Orderly s) (hconn : s.connections c = some conn)
    (hread : conn.reading = true) (hlive : s.stopped = false) {realtime : ι}
    (hnew : s.connections realtime = none) (outcome : ReadOutcome) (starts : Bool) :
    ∃ s', s.step config (.read c outcome realtime starts) = some (s', ()) := by
  have hv := view_of_connection hconn
  obtain ⟨hready, -, hlease, -⟩ := (hs.good c _ hv).ready hread false
  have hduring := (During.start hs.shared).modify (f := fun conn => { conn with reading := false }) hconn
    (fun _ => rfl) (.inl rfl)
  have hother : realtime ≠ c := by
    rintro rfl
    rw [hnew] at hconn
    cases hconn
  have hmodified := modify_of_connection hconn fun conn => { conn with reading := false }
  have hnew' : (s.modify c fun conn => { conn with reading := false }).connections realtime = none := by
    rw [hmodified]
    simpa [hother] using hnew
  have hconn' : (s.modify c fun conn => { conn with reading := false }).connections c =
      some { conn with reading := false } := by
    rw [hmodified]
    exact Function.update_self ..
  obtain ⟨s', hdone⟩ : ∃ s', (s.modify c fun conn => { conn with reading := false }).onRead config c
      realtime starts outcome = some s' := by
    cases outcome with
    | bodyLimit => exact ⟨_, rfl⟩
    | failed => exact ⟨_, rfl⟩
    | request request =>
      simp only [onRead]
      split
      · exact ⟨_, rfl⟩
      · exact ⟨_, rfl⟩
      · next audio text _ =>
        refine hduring.shared.exists_acceptBatch hconn' rfl ?_ ?_ audio text starts
        · exact hlease
        · exact hready.held
      · rw [if_neg (by simp [hnew'])]
        exact hduring.shared.exists_acceptRealtime hnew' c
  refine ⟨s', ?_⟩
  simp only [step, hconn, hlive, hread, hdone, Bool.false_eq_true, Bool.true_eq_false, or_self, if_false,
    Option.map_some]

/-- The worker can go on: give up its lease, with any result of a batch that was not cancelled; post the
result; clear `running_`; or end. -/
def WorkerGoesOn (config : ServerConfig) (s : HttpServer ι) : Prop :=
  (∀ result : BatchTranscriptionResult, result.cancelled = false →
      ∃ s', s.step config (.released result) = some (s', ())) ∨
    ∃ event ∈ ([.post, .clear, .complete] : List (HttpEvent ι)),
      ∃ s', s.step config event = some (s', ())

/-- A worker is never stuck that has ended its task, or whose task is a batch. -/
lemma Orderly.workerGoesOn (hs : Orderly s) (hpending : s.world.running = true ∨
    s.world.worker = some (.cleared none))
    (hbatch : ∀ c conn, s.world.worker = some (.task c) → s.connections c = some conn → conn.realtime = false) :
    WorkerGoesOn config s := by
  rcases hpending with hrunning | hcleared
  · obtain ⟨c, htask | hreleased | hthrown⟩ := hs.shared.consistent.running.mp hrunning
    · obtain ⟨conn, hconn, hheld, -, -⟩ := held_of_task hs htask
      obtain ⟨lease, hlive⟩ := hs.shared.consistent.working c (by simp [ServerWorld.working, htask])
      obtain ⟨o, ho⟩ := hs.shared.consistent.owned
      obtain ⟨token, htoken, -, -⟩ := ho.live_token hlive
      have hhttp := hbatch c conn htask hconn
      refine .inl fun result hdone => ?_
      have hreset : ∃ s', s.workerStep .reset = some s' := by
        simp only [workerStep, ServerWorld.step, htask, ServerWorld.onLeases, LeaseWorld.leaseStep, hlive.1]
        exact ⟨_, rfl⟩
      obtain ⟨s₁, hs₁⟩ := hreset
      simp only [step, release, htask, hconn, hhttp, hs₁, hlive.1, Option.bind_some, htoken, hdone,
        Bool.false_eq_true, false_and, if_false, Option.map_some]
      exact ⟨_, rfl⟩
    · right
      cases hdue : s.due with
      | some p =>
        refine ⟨.post, by simp, ?_⟩
        simp only [step, hdue]
        exact ⟨_, rfl⟩
      | none =>
        refine ⟨.clear, by simp, ?_⟩
        simp only [step, hdue, workerStep, ServerWorld.step, hreleased, Option.isSome_none,
          Bool.false_eq_true, if_false]
        exact ⟨_, rfl⟩
    · exact absurd hthrown (hs.shared.returned c).1
  · right
    refine ⟨.complete, by simp, ?_⟩
    simp only [step, HttpServer.complete, workerStep, ServerWorld.step, hcleared]
    exact ⟨_, rfl⟩

/-- What holds of the server after a run. -/
structure ServerSafe (config : ServerConfig) (s : HttpServer ι) : Prop where
  /-- A connection is answered at most once. -/
  once : ∀ c conn, s.connections c = some conn → conn.sent.length ≤ 1
  /-- The response to a batch is that to its own audio, format and result. -/
  answers : ∀ c conn, s.connections c = some conn → conn.batchDone = true → ∀ response ∈ conn.sent,
    ∃ text durationMs result, conn.asked = some (text, durationMs) ∧ conn.result = some result ∧
      result.cancelled = false ∧ response = batchResponse text durationMs result
  /-- Closed without a response is only a connection that broke, was abandoned by its client, or was open
  at the shutdown. -/
  unanswered : ∀ c conn, s.connections c = some conn → conn.realtime = false → conn.closed = true →
    conn.sent = [] →
      conn.cause = some .readFailed ∨ conn.cause = some .disconnect ∨ conn.cause = some .shutdown
  /-- `sessions_` has the sessions that are neither closed nor upgraded. -/
  sessions : ∀ c, c ∈ s.sessions ↔
    ∃ conn, s.connections c = some conn ∧ conn.closed = false ∧ conn.transferred = false
  /-- Such a session, if it is no realtime session, is still read from, written to, or kept by the worker. -/
  goesOn : ∀ c conn, s.connections c = some conn → conn.realtime = false → conn.closed = false →
    conn.transferred = false → conn.reading = true ∨ conn.writing ≠ none ∨ s.held c ≠ []
  /-- A request that arrives is handled. -/
  handled : ∀ c conn realtime outcome starts, s.connections c = some conn → conn.reading = true →
    s.stopped = false → s.connections realtime = none →
      ∃ s', s.step config (.read c outcome realtime starts) = some (s', ())
  /-- The GPU is leased to the session the worker works for, or to a realtime session that is still to be
  configured. -/
  leased : ∀ c lease, s.world.leases.Live c lease → s.world.working = some c ∨
    ∃ conn, s.connections c = some conn ∧ conn.realtime = true ∧ conn.closed = false ∧
      conn.workerStarted = false
  /-- The worker is never stuck, except in the task of a realtime session: such a task may wait for room in
  its outbound queue, and after `force_shutdown` nobody wakes it. -/
  works : s.world.running = true ∨ s.world.worker = some (.cleared none) →
    (∀ c conn, s.world.worker = some (.task c) → s.connections c = some conn → conn.realtime = false) →
      WorkerGoesOn config s
  /-- A shutdown that is not over has a session or the worker to wait for. -/
  shutdown : s.shuttingDown = true → s.stopped = true ∨ s.sessions ≠ [] ∨ s.Pending
  /-- Before a shutdown connections are accepted. -/
  listens : s.shuttingDown = false → s.stopped = false ∧ s.accepting = true

/-- What an orderly server has. -/
lemma Orderly.safe (hs : Orderly s) : ServerSafe config s where
  once := fun c conn hconn => (hs.good c _ (view_of_connection hconn)).once
  answers := fun c conn hconn => (hs.good c _ (view_of_connection hconn)).answers
  unanswered := fun c conn hconn => (hs.good c _ (view_of_connection hconn)).cause
  sessions := by
    intro c
    constructor
    · intro hc
      obtain ⟨conn, hconn⟩ := hs.shared.sessions c hc
      have hregistered := (hs.good c _ (view_of_connection hconn)).registered
      rw [decide_eq_true hc, eq_comm, Bool.and_eq_true, Bool.not_eq_true', Bool.not_eq_true'] at hregistered
      exact ⟨conn, hconn, hregistered.1, hregistered.2⟩
    · rintro ⟨conn, hconn, hopen, hhere⟩
      have hregistered := (hs.good c _ (view_of_connection hconn)).registered
      rw [show conn.closed = false from hopen, show conn.transferred = false from hhere] at hregistered
      exact of_decide_eq_true hregistered
  goesOn := by
    intro c conn hconn hhttp hopen hhere
    cases (hs.good c _ (view_of_connection hconn)).phase with
    | reading _ read => exact .inl read
    | batch x _ _ _ held =>
      refine .inr (.inr ?_)
      rw [show s.held c = [x] from held]
      exact List.cons_ne_nil _ _
    | answering response _ _ writing =>
      refine .inr (.inl ?_)
      rw [show conn.writing = some response from writing]
      exact Option.some_ne_none _
    | concluded _ _ _ _ _ _ _ ended =>
      rcases ended with hended | hended
      · exact absurd (hopen.symm.trans hended) Bool.false_ne_true
      · exact absurd (hhere.symm.trans hended) Bool.false_ne_true
    | realtime hreal => exact absurd (hhttp.symm.trans hreal) Bool.false_ne_true
  handled := fun c conn realtime outcome starts hconn hread hlive hnew =>
    hs.exists_read hconn hread hlive hnew outcome starts
  leased := by
    intro c lease hlive
    obtain ⟨conn, hconn, -⟩ := hs.shared.leased c lease hlive.1
    have hdead : ∀ p : Prop, lease = {} → p := by
      rintro p rfl
      exact absurd hlive.2 Bool.false_ne_true
    cases (hs.good c _ (view_of_connection hconn)).phase with
    | reading _ _ _ _ _ hnone => exact absurd (hnone.symm.trans hlive.1) (by simp)
    | batch x _ _ _ held hlease =>
      cases x with
      | none =>
        refine .inl (working_of_mem ?_)
        rw [show s.held c = [none] from held]
        exact List.mem_singleton_self _
      | some r => exact hdead _ (Option.some.inj (hlive.1.symm.trans hlease))
    | answering _ _ _ _ _ hempty => exact hdead _ (hempty lease hlive.1)
    | concluded _ _ _ _ hempty => exact hdead _ (hempty lease hlive.1)
    | realtime hreal _ _ _ _ _ _ _ _ hlease =>
      rcases hlease lease hlive.1 with hempty | hheld | ⟨hopen, hidle⟩
      · exact hdead _ hempty
      · refine .inl (working_of_mem ?_)
        rw [show s.held c = [none] from hheld]
        exact List.mem_singleton_self _
      · exact .inr ⟨conn, hconn, hreal, hopen, hidle⟩
  works := hs.workerGoesOn
  shutdown := hs.awaited
  listens := by
    intro hup
    refine ⟨?_, hs.shared.listens hup⟩
    cases hstopped : s.stopped with
    | false => rfl
    | true => exact absurd (hup.symm.trans (hs.shared.stopped hstopped)) Bool.false_ne_true

/-- **Nobody is forgotten.**  After every run of the server, in any interleaving of requests, disconnects,
results, worker steps and shutdown: each connection is answered at most once, with the result of its own
batch, and closed without an answer only if it broke, its client left or the server was shutting down; each
open HTTP connection is read from, written to or kept by the worker; no lease outlives its session; the worker
goes on, unless it has the task of a realtime session; and a shutdown that is not over has a session or the
worker left to wait for. -/
theorem server_of_events {config : ServerConfig} {events : List (HttpEvent ι)} {answers : List Unit}
    (hrun : runSteps (step config) ({} : HttpServer ι) events = some (s, answers)) :
    ServerSafe config s := by
  have horderly : Orderly s :=
    runSteps_induction (P := fun s _ _ => Orderly s) (fun s _ _ event s' u hs hstep =>
      step_orderly hs hstep) orderly_init hrun
  exact horderly.safe

/-- A request to transcribe one sample of raw audio as plain text. -/
def oneSampleRequest : HttpRequest where
  method := .post
  target := literal "/v1/audio/transcriptions?response_format=text"
  contentType := literal "application/octet-stream"
  audioFormat := literal "pcm_s16le"
  sampleRate := literal "16000"
  audioChannels := literal "1"
  body := [0, 0]

/-- A batch is transcribed while a second one arrives; a third is under way at the shutdown. -/
def threeBatches : List (HttpEvent ℕ) :=
  let spoken : BatchTranscriptionResult := { ok := true, status := .ok, text := [0x68, 0x69] }
  let broken : BatchTranscriptionResult := { cancelled := true, status := .cancelled }
  [.accepted 0, .read 0 (.request oneSampleRequest) 9 true, .accepted 1, .released spoken,
    .read 1 (.request oneSampleRequest) 9 true, .post, .handle (.batchResult 0 spoken), .clear,
    .written 0, .written 1, .complete, .accepted 2, .read 2 (.request oneSampleRequest) 9 true,
    .handle .workerFinished, .signal, .released broken, .post, .clear, .handle (.batchResult 2 broken),
    .watched 2 true, .complete, .handle .workerFinished]

/-- The first is answered with its text, the second that the server is busy, the third not at all; then
the server stops. -/
theorem server_of_events_shutdown :
    ∃ s answers, runSteps (step { noAuth := true }) ({} : HttpServer ℕ) threeBatches = some (s, answers) ∧
      s.stopped = true ∧
      (s.connections 0).map Connection.sent = some [{ status := 200, body := .text [0x68, 0x69] }] ∧
      (s.connections 1).map Connection.sent = some [busyResponse false] ∧
      (s.connections 2).map Connection.sent = some [] ∧
      ServerSafe { noAuth := true } s := by
  obtain ⟨s, answers, hrun, hstopped, hfirst, hsecond, hthird⟩ : ∃ s answers,
      runSteps (step { noAuth := true }) ({} : HttpServer ℕ) threeBatches = some (s, answers) ∧
        s.stopped = true ∧
        (s.connections 0).map Connection.sent = some [{ status := 200, body := .text [0x68, 0x69] }] ∧
        (s.connections 1).map Connection.sent = some [busyResponse false] ∧
        (s.connections 2).map Connection.sent = some [] :=
    ⟨_, _, rfl, rfl, rfl, rfl, rfl⟩
  exact ⟨s, answers, hrun, hstopped, hfirst, hsecond, hthird, server_of_events hrun⟩

end HttpServer

end Voxtral
