import Voxtral.Server.HttpHandlers

/-!
# How sessions end

A response was written, the client has gone, or the result of a batch arrives: each keeps the server
orderly.  Nobody is answered after his batch was cancelled, for then his connection is closed.
-/

namespace Voxtral

namespace HttpServer

variable {ι : Type*} [DecidableEq ι] {config : ServerConfig} {s s' : HttpServer ι} {c : ι}
  {conn : Connection} {v : SessionView}

/-- `maybe_finish_shutdown` leaves the server orderly. -/
lemma orderly_maybeFinishShutdown (hshared : Shared s) (hgood : ∀ c v, s.view c = some v → v.Good) :
    Orderly s.maybeFinishShutdown := by
  have hlockable : Lockable s := fun c v hv => (hgood c v hv).alive
  rw [maybeFinishShutdown_of_alive fun c hc => hlockable.alive hshared hc]
  refine ⟨{ hshared with stopped := fun hstopped => ?_ }, hgood, fun hdown => ?_⟩
  · simp only [Bool.or_eq_true, Bool.and_eq_true] at hstopped
    rcases hstopped with hbefore | ⟨hdown, -⟩
    · exact hshared.stopped hbefore
    · exact hdown
  · have hshut : s.shuttingDown = true := hdown
    dsimp only
    by_cases hempty : s.sessions = []
    · cases hrunning : s.world.running with
      | true => exact .inr (.inr (.inl hrunning))
      | false =>
        rw [hempty, hshut]
        exact .inl (Bool.or_true _)
    · exact .inr (.inl hempty)

/-! ## The end of a response, and of a client -/

/-- A response was written. -/
lemma Orderly.written (hs : Orderly s) (hconn : s.connections c = some conn)
    (hwriting : conn.writing ≠ none) :
    Orderly ((s.modify c fun conn => { conn with writing := none }).close c none) := by
  have hv := view_of_connection hconn
  have hgood := hs.good c _ hv
  have hduring := (During.start hs.shared).modify (f := fun conn => { conn with writing := none }) hconn
    (fun hread => hread) (.inl rfl)
  have hviewed := view_modify hv fun conn => { conn with writing := none }
  cases hgood.phase with
  | reading _ _ writing => exact absurd writing hwriting
  | batch _ _ _ writing => exact absurd writing hwriting
  | concluded _ _ writing => exact absurd writing hwriting
  | realtime _ _ writing => exact absurd writing hwriting
  | answering response http read writing held lease token watching sent transferred =>
    refine (hduring.close hs.lockable (connection_of_view hviewed) none).orderly hs fun v' hv' => ?_
    have hnot : conn.sent = [] → ∀ p : Prop, p := by
      intro hnone
      rw [show conn.sent = [response] from sent] at hnone
      cases hnone
    cases hclosed : conn.closed with
    | true =>
      rw [close_of_closed (connection_of_view hviewed) hclosed] at hv'
      obtain rfl := Option.some.inj (hviewed.symm.trans hv')
      exact ⟨.concluded http read rfl held lease token watching (.inl hclosed), hgood.registered, hgood.once,
        hgood.answers, fun _ _ hnone => hnot hnone _⟩
    | false =>
      rw [hduring.view_close hs.lockable (connection_of_view hviewed) hclosed transferred] at hv'
      obtain rfl := Option.some.inj hv'
      rw [modify_of_connection hconn]
      exact ⟨.concluded http read rfl held lease token watching (.inl rfl), rfl, hgood.once, hgood.answers,
        fun _ _ hnone => hnot hnone _⟩

/-- The view of a session whose batch is cancelled. -/
lemma view_requestCancellation (hv : s.view c = some v) (reason : CancelReason) :
    ∃ requested, (s.requestCancellation c reason).view c = some { v with requested := requested } := by
  unfold requestCancellation
  obtain ⟨conn, hconn, rfl⟩ := Option.map_eq_some_iff.mp hv
  cases (s.connections c).bind Connection.batchCancellation with
  | none => exact ⟨_, hv⟩
  | some token => exact ⟨_, view_of_connection hconn⟩

/-- The socket of a session with a batch became readable, or the wait was aborted. -/
lemma Orderly.watched (hs : Orderly s) (hconn : s.connections c = some conn)
    (hwatching : conn.watching = true) (aborted : Bool) :
    Orderly (if conn.batchDone ∨ aborted then s.modify c fun conn => { conn with watching := false }
      else ((s.modify c fun conn => { conn with watching := false }).requestCancellation c
        .disconnect).close c (some .disconnect)) := by
  have hv := view_of_connection hconn
  have hgood := hs.good c _ hv
  have hduring := (During.start hs.shared).modify (f := fun conn => { conn with watching := false }) hconn
    (fun hread => hread) (.inl rfl)
  have hviewed := view_modify hv fun conn => { conn with watching := false }
  have hno : ∀ {b : Bool}, false = true → b = true := fun h => absurd h Bool.false_ne_true
  split
  · refine hduring.orderly hs fun v' hv' => ?_
    obtain rfl := Option.some.inj (hviewed.symm.trans hv')
    refine ⟨?_, hgood.registered, hgood.once, hgood.answers, hgood.cause⟩
    cases hgood.phase with
    | reading _ _ _ watching =>
      rw [show conn.watching = false from watching] at hwatching
      cases hwatching
    | batch x http read writing held lease asked early sent transferred closed down requested result =>
      exact .batch x http read writing held lease asked early sent transferred closed down requested result
    | answering response http read writing held lease token watching sent transferred =>
      exact .answering response http read writing held lease token hno sent transferred
    | concluded http read writing held lease token watching ended =>
      exact .concluded http read writing held lease token hno ended
    | realtime http read writing watching token early sent transferred held lease =>
      exact .realtime http read writing rfl token early sent transferred held lease
  · next hlive =>
    rw [not_or, Bool.not_eq_true] at hlive
    obtain ⟨hearly, -⟩ := hlive
    have hdone : conn.watching = true → conn.batchDone = true → ∀ p : Prop, p := by
      intro _ hdone
      exact absurd (hearly.symm.trans hdone) Bool.false_ne_true
    cases hgood.phase with
    | reading _ _ _ watching =>
      rw [show conn.watching = false from watching] at hwatching
      cases hwatching
    | answering _ _ _ _ _ _ _ watching => exact hdone hwatching (watching hwatching) _
    | concluded _ _ _ _ _ _ watching => exact hdone hwatching (watching hwatching) _
    | realtime _ _ _ watching =>
      rw [show conn.watching = false from watching] at hwatching
      cases hwatching
    | batch x http read writing held lease asked early sent transferred closed down requested result =>
      have hcancel := hduring.requestCancellation .disconnect
      obtain ⟨requested', hcancelled⟩ := view_requestCancellation hviewed .disconnect
      refine (hcancel.close hs.lockable (connection_of_view hcancelled) _).orderly hs fun v' hv' => ?_
      cases hclosed : conn.closed with
      | true =>
        rw [close_of_closed (connection_of_view hcancelled) hclosed] at hv'
        obtain rfl := Option.some.inj (hcancelled.symm.trans hv')
        exact ⟨.batch x http read writing held lease asked early sent transferred closed
          (fun _ => hclosed) (fun _ => hclosed) result, hgood.registered, hgood.once, hgood.answers,
          hgood.cause⟩
      | false =>
        obtain ⟨-, -, hheld, hlease, -, -⟩ := parts_of_view hcancelled
        rw [hcancel.view_close hs.lockable (connection_of_view hcancelled) hclosed transferred] at hv'
        obtain rfl := Option.some.inj hv'
        refine ⟨.batch x http read writing (hheld.symm.trans held) (hlease.symm.trans lease) asked early sent
          transferred (fun _ => .inl rfl) (fun _ => rfl) (fun _ => rfl)
          fun r hr => ⟨(result r hr).1, fun _ => rfl⟩, rfl, hgood.once, hgood.answers,
          fun _ _ _ => .inr (.inl rfl)⟩

/-! ## What the worker has posted -/

/-- What an entry that counts for nothing leaves. -/
lemma filterMap_erase_of_none {α β : Type*} [DecidableEq α] {f : α → Option β} {a : α} (h : f a = none)
    (l : List α) : (l.erase a).filterMap f = l.filterMap f := by
  induction l with
  | nil => rfl
  | cons b l ih =>
    by_cases heq : b = a
    · rw [heq, List.erase_cons_head, List.filterMap_cons, h]
    · rw [List.erase_cons_tail (by simpa using heq), List.filterMap_cons, List.filterMap_cons, ih]

/-- A posted result is kept for its session. -/
lemma held_of_posted {result : BatchTranscriptionResult} (h : .batchResult c result ∈ s.posted) :
    some result ∈ s.held c := by
  unfold held
  rw [List.mem_append, List.map_append, List.mem_append]
  refine .inr (.inr (List.mem_map_of_mem (List.mem_filterMap.mpr ⟨_, h, ?_⟩)))
  exact if_pos rfl

/-- A result that is taken is no longer kept. -/
lemma held_erase {result : BatchTranscriptionResult} (h : .batchResult c result ∈ s.posted)
    {x : Option BatchTranscriptionResult} (hheld : s.held c = [x]) :
    x = some result ∧
      HttpServer.held { s with posted := s.posted.erase (.batchResult c result) } c = [] := by
  have hx : x = some result := by
    have hmem := held_of_posted h
    rw [hheld, List.mem_singleton] at hmem
    exact hmem.symm
  refine ⟨hx, ?_⟩
  have hperm := (List.perm_cons_erase h).filterMap (Posted.resultOf c)
  rw [List.filterMap_cons, show Posted.resultOf c (.batchResult c result) = some result from if_pos rfl]
    at hperm
  have hlength := congrArg List.length hheld
  have hcount := hperm.length_eq
  unfold held at hlength ⊢
  simp only [List.length_append, List.length_map, List.length_cons, List.length_nil] at hlength hcount
  apply List.eq_nil_of_length_eq_zero
  simp only [List.length_append, List.length_map]
  omega

/-- A posted handler is taken. -/
lemma During.take (hs : Orderly s) {result : BatchTranscriptionResult} :
    During s { s with posted := s.posted.erase (.batchResult c result) } c := by
  have hheld : ∀ c' ≠ c, HttpServer.held
      { s with posted := s.posted.erase (.batchResult c result) } c' = s.held c' := by
    intro c' hne
    unfold held
    rw [filterMap_erase_of_none
      (show Posted.resultOf c' (.batchResult c result) = none from if_neg (Ne.symm hne))]
  refine ⟨{ hs.shared with heldBy := fun c' hmem => ?_ }, fun c' hne => ?_, fun hbefore hdown => ?_⟩
  · refine hs.shared.heldBy c' fun hnone => hmem ?_
    unfold held at hnone ⊢
    simp only [List.append_eq_nil_iff, List.map_eq_nil_iff, List.filterMap_eq_nil_iff] at hnone ⊢
    exact ⟨hnone.1, hnone.2.1, fun p hp => hnone.2.2 p (List.mem_of_mem_erase hp)⟩
  · exact view_congr rfl Iff.rfl (hheld c' hne) rfl (fun _ _ _ _ => rfl) rfl
  · rcases hbefore hdown with hstopped | hsessions | hrunning | hcleared | hposted
    · exact .inl hstopped
    · exact .inr (.inl hsessions)
    · exact .inr (.inr (.inl hrunning))
    · exact .inr (.inr (.inr (.inl hcleared)))
    · exact .inr (.inr (.inr (.inr ((List.mem_erase_of_ne (by simp)).mpr hposted))))

/-- The result of a batch arrives. -/
lemma Orderly.batchResult (hs : Orderly s) {result : BatchTranscriptionResult}
    (hposted : .batchResult c result ∈ s.posted) :
    Orderly ({ s with posted := s.posted.erase (.batchResult c result) }.onBatchResult c result) := by
  have hmem := held_of_posted hposted
  obtain ⟨conn, hconn⟩ := hs.shared.heldBy c (List.ne_nil_of_mem hmem)
  have hv := view_of_connection hconn
  have hgood := hs.good c _ hv
  have hnone : s.held c = [] → ∀ p : Prop, p := by
    intro hnone
    rw [hnone] at hmem
    cases hmem
  cases hgood.phase with
  | reading _ _ _ _ held => exact hnone held _
  | answering _ _ _ _ held => exact hnone held _
  | concluded _ _ _ held => exact hnone held _
  | realtime _ _ _ _ _ _ _ _ held =>
    rcases held with held | ⟨held, -⟩
    · exact hnone held _
    · rw [show s.held c = [none] from held] at hmem
      simp at hmem
  | batch x http read writing held lease asked early sent transferred closed down requested hresult =>
    obtain ⟨rfl, hnothing⟩ := held_erase hposted held
    obtain ⟨hown, hcancelled⟩ := hresult result rfl
    -- the handler takes the result and marks the session
    have htaken : During s { s with posted := s.posted.erase (.batchResult c result) } c := .take hs
    have hviewed : HttpServer.view { s with posted := s.posted.erase (.batchResult c result) } c = some _ :=
      view_of_connection hconn
    have hmarked := htaken.modify (f := fun conn =>
      { conn with batchRunning := false, batchDone := true, batchCancellation := none }) hconn
      (fun hread => hread) (.inr rfl)
    have hviewed' := view_modify hviewed fun conn =>
      { conn with batchRunning := false, batchDone := true, batchCancellation := none }
    have hobject := connection_of_view hviewed'
    unfold onBatchResult
    dsimp only
    rw [hobject]
    dsimp only
    cases hclosed : conn.closed with
    | true =>
      rw [if_pos (by simp), if_neg (by simp)]
      refine hmarked.orderly hs fun v' hv' => ?_
      obtain rfl := Option.some.inj (hviewed'.symm.trans hv')
      refine ⟨.concluded http read writing hnothing ?_ rfl (fun _ => rfl) (.inl hclosed), hgood.registered,
        hgood.once, ?_, hgood.cause⟩
      · intro l hl
        rw [show s.world.leases.leases c = some {} from lease] at hl
        exact (Option.some.inj hl).symm
      · intro _ response hr
        rw [show conn.sent = [] from sent] at hr
        cases hr
    | false =>
      have hup : s.shuttingDown = false := by
        cases hdown : s.shuttingDown with
        | false => rfl
        | true => exact absurd (hclosed.symm.trans (down hdown)) Bool.false_ne_true
      have hdone : result.cancelled = false := by
        cases hc : result.cancelled with
        | false => rfl
        | true => exact absurd (hclosed.symm.trans (hcancelled hc)) Bool.false_ne_true
      rw [if_neg (by simp [hdone, hup, modify])]
      obtain ⟨⟨text, durationMs⟩, hasked⟩ := Option.isSome_iff_exists.mp asked
      have hasked' : conn.asked = some (text, durationMs) := hasked
      rw [hasked']
      refine hmarked.respond hs hviewed' ⟨http, read, writing, hnothing, ?_, rfl, fun _ => rfl, sent,
        transferred, ?_, closed⟩ fun _ _ => ⟨text, durationMs, result, hasked', hown, hdone, rfl⟩
      · intro l hl
        rw [show s.world.leases.leases c = some {} from lease] at hl
        exact (Option.some.inj hl).symm
      · have hregistered := hgood.registered
        rw [transferred, Bool.not_false, Bool.and_true] at hregistered
        exact hregistered

/-- `on_worker_finished`. -/
lemma Orderly.workerFinished (hs : Orderly s) :
    Orderly (maybeFinishShutdown { s with posted := s.posted.erase .workerFinished }) := by
  have hheld : ∀ c', HttpServer.held { s with posted := s.posted.erase .workerFinished } c' = s.held c' := by
    intro c'
    unfold held
    rw [filterMap_erase_of_none (show Posted.resultOf c' .workerFinished = none from rfl)]
  have hshared : Shared { s with posted := s.posted.erase .workerFinished } :=
    { hs.shared with heldBy := fun c' hmem => hs.shared.heldBy c' (by rwa [hheld] at hmem) }
  refine orderly_maybeFinishShutdown hshared fun c' v hv => hs.good c' v ?_
  have hsame : HttpServer.view { s with posted := s.posted.erase .workerFinished } c' = s.view c' :=
    view_congr rfl Iff.rfl (hheld c') rfl (fun _ _ _ _ => rfl) rfl
  exact hsame.symm.trans hv

end HttpServer

end Voxtral
