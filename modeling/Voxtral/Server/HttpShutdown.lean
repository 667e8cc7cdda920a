import Voxtral.Server.HttpEndings

/-!
# The shutdown of the server

`initiate_shutdown` cancels the live lease and tells one session after the other; until all are told a
session whose batch was cancelled may still be open.
-/

namespace Voxtral

namespace SessionView

variable {v : SessionView}

/-- A good session as a shutdown finds it. -/
def Shaken (v : SessionView) : Prop :=
  v.down = true ∧ ∃ down requested, Good { v with down := down, requested := requested }

/-- Whether its batch was cancelled does not matter. -/
lemma Shaken.request (h : v.Shaken) (requested : Bool) : Shaken { v with requested := requested } := h

/-- A session that has ended, or was upgraded, and a realtime session stay good. -/
lemma Shaken.good (h : v.Shaken)
    (hended : v.conn.realtime = true ∨ v.conn.closed = true ∨ v.conn.transferred = true) : v.Good := by
  obtain ⟨hdown, down', requested', hbefore⟩ := h
  refine ⟨?_, hbefore.registered, hbefore.once, hbefore.answers, hbefore.cause⟩
  cases hbefore.phase with
  | reading http read writing watching held lease token early sent transferred closed =>
    exact .reading http read writing watching held lease token early sent transferred
      fun hclosed => ⟨hdown, (closed hclosed).2⟩
  | batch x http read writing held lease asked early sent transferred closed down requested result =>
    have hclosed : v.conn.closed = true := by
      rcases hended with hreal | hclosed | htransferred
      · exact absurd (http.symm.trans hreal) Bool.false_ne_true
      · exact hclosed
      · exact absurd (transferred.symm.trans htransferred) Bool.false_ne_true
    exact .batch x http read writing held lease asked early sent transferred closed
      (fun _ => hclosed) (fun _ => hclosed) result
  | answering response http read writing held lease token watching sent transferred =>
    exact .answering response http read writing held lease token watching sent transferred
  | concluded http read writing held lease token watching ended =>
    exact .concluded http read writing held lease token watching ended
  | realtime http read writing watching token early sent transferred held lease =>
    exact .realtime http read writing watching token early sent transferred held lease

/-- Any other session is closed. -/
lemma Shaken.close (h : v.Shaken) (hhttp : v.conn.realtime = false) (hopen : v.conn.closed = false)
    (hhere : v.conn.transferred = false) :
    Good { v with conn := { v.conn with closed := true, cause := some .shutdown }, registered := false } := by
  obtain ⟨hdown, down', requested', hbefore⟩ := h
  refine ⟨?_, rfl, hbefore.once, hbefore.answers, fun _ _ _ => .inr (.inr rfl)⟩
  cases hbefore.phase with
  | reading http read writing watching held lease token early sent transferred closed =>
    exact .reading http read writing watching held lease token early sent transferred fun _ => ⟨hdown, rfl⟩
  | batch x http read writing held lease asked early sent transferred closed down requested result =>
    exact .batch x http read writing held lease asked early sent transferred (fun _ => .inr rfl)
      (fun _ => rfl) (fun _ => rfl) fun r hr => ⟨(result r hr).1, fun _ => rfl⟩
  | answering response http read writing held lease token watching sent transferred =>
    exact .answering response http read writing held lease token watching sent transferred
  | concluded http read writing held lease token watching ended =>
    rcases ended with hended | hended
    · exact absurd (hopen.symm.trans hended) Bool.false_ne_true
    · exact absurd (hhere.symm.trans hended) Bool.false_ne_true
  | realtime http => exact absurd (hhttp.symm.trans http) Bool.false_ne_true

end SessionView

namespace HttpServer

variable {ι : Type*} [DecidableEq ι] {s s' : HttpServer ι} {c : ι} {rest : List ι}

/-- The server while the sessions `rest` have still to be told of the shutdown. -/
structure Closing (s : HttpServer ι) (rest : List ι) : Prop where
  shared : Shared s
  down : s.shuttingDown = true
  shaken : ∀ c v, s.view c = some v → v.Shaken
  good : ∀ c ∉ rest, ∀ v, s.view c = some v → v.Good

/-- Registered sessions can be locked all along. -/
lemma Closing.lockable (h : Closing s rest) : Lockable s := by
  intro c v hv hreg
  obtain ⟨-, _, _, hbefore⟩ := h.shaken c v hv
  exact hbefore.alive hreg

/-- A session that was told is good, and the others are as before. -/
lemma Closing.told (h : Closing s (c :: rest)) (hduring : During s s' c)
    (hdown : s'.shuttingDown = true) (hown : ∀ v, s'.view c = some v → v.Good) : Closing s' rest := by
  refine ⟨hduring.shared, hdown, fun c' v hv => ?_, fun c' hc' v hv => ?_⟩
  · by_cases heq : c' = c
    · subst heq
      obtain ⟨-, -, -, -, hsame, -⟩ := parts_of_view hv
      exact ⟨hsame.trans hdown, v.down, v.requested, hown v hv⟩
    · rw [hduring.others c' heq] at hv
      exact h.shaken c' v hv
  · by_cases heq : c' = c
    · subst heq
      exact hown v hv
    · rw [hduring.others c' heq] at hv
      exact h.good c' (by simp [heq, hc']) v hv

/-- Closing a session leaves it to the server whether a shutdown is under way. -/
lemma close_shuttingDown (s : HttpServer ι) (c : ι) (cause : Option CloseCause) :
    (s.close c cause).shuttingDown = s.shuttingDown := by
  unfold close
  split
  · rfl
  · split
    · rfl
    · unfold unregisterSession maybeFinishShutdown
      split <;> rfl

/-- One session is told. -/
lemma Closing.next (h : Closing s (c :: rest)) : Closing (s.initiateSessionShutdown c) rest := by
  have hstart : During s s c := .start h.shared
  unfold initiateSessionShutdown
  cases hconn : s.connections c with
  | none =>
    refine h.told hstart h.down fun v hv => ?_
    rw [view_eq_none.mpr hconn] at hv
    cases hv
  | some conn =>
    obtain ⟨v, hv⟩ : ∃ v, s.view c = some v := ⟨_, view_of_connection hconn⟩
    obtain rfl := Option.some.inj (hconn.symm.trans (connection_of_view hv))
    have hshaken := h.shaken c v hv
    dsimp only
    split
    · next hreal =>
      refine h.told hstart h.down fun v' hv' => ?_
      obtain rfl := Option.some.inj (hv.symm.trans hv')
      exact hshaken.good (.inl hreal)
    · next hhttp =>
      rw [Bool.not_eq_true] at hhttp
      have hcancel := hstart.requestCancellation .shutdown
      obtain ⟨requested', hcancelled⟩ := view_requestCancellation hv .shutdown
      have hobject := connection_of_view hcancelled
      obtain ⟨-, -, hheld, hlease, hdown, -⟩ := parts_of_view hcancelled
      have hshut : (s.requestCancellation c .shutdown).shuttingDown = true := hdown.symm.trans hshaken.1
      by_cases hended : v.conn.closed = true ∨ v.conn.transferred = true
      · have hstays : (s.requestCancellation c .shutdown).close c (some .shutdown) =
            s.requestCancellation c .shutdown := by
          unfold HttpServer.close
          rw [hobject]
          exact if_pos (by simpa using hended)
        rw [hstays]
        refine h.told hcancel hshut fun v' hv' => ?_
        obtain rfl := Option.some.inj (hcancelled.symm.trans hv')
        exact (hshaken.request requested').good (.inr hended)
      · rw [not_or, Bool.not_eq_true, Bool.not_eq_true] at hended
        refine h.told (hcancel.close h.lockable hobject _) ((close_shuttingDown ..).trans hshut)
          fun v' hv' => ?_
        rw [hcancel.view_close h.lockable hobject hended.1 hended.2, ← hheld, ← hlease, ← hdown] at hv'
        obtain rfl := Option.some.inj hv'
        exact (hshaken.request (v.conn.batchCancellation.any fun token =>
          (s.requestCancellation c .shutdown).world.leases.reason token ≠ .none)).close hhttp hended.1
            hended.2

/-- All sessions are told. -/
lemma Closing.all (h : Closing s rest) : Closing (rest.foldl initiateSessionShutdown s) [] := by
  induction rest generalizing s with
  | nil => exact h
  | cons c rest ih => exact ih h.next

/-- `initiate_shutdown`. -/
lemma Orderly.initiateShutdown (hs : Orderly s) (hstep : s.initiateShutdown = some s') : Orderly s' := by
  unfold HttpServer.initiateShutdown at hstep
  split at hstep
  · obtain rfl := Option.some.inj hstep
    exact hs
  · obtain ⟨⟨w, answer⟩, hw, rfl⟩ := Option.map_eq_some_iff.mp hstep
    have hconsistent := ServerWorld.step_consistent hs.shared.consistent hw
    obtain ⟨hworker, hrunning, hleases, hmode, htokens⟩ :=
      ServerWorld.step_beginShutdown hs.shared.consistent hw
    have hworking : w.working = s.world.working := by
      unfold ServerWorld.working
      rw [hworker]
    have hheld : ∀ c', HttpServer.held { s with world := w, shuttingDown := true } c' = s.held c' :=
      fun c' => held_congr (by rw [hworking]) rfl rfl
    have hshared : Shared { s with world := w, shuttingDown := true } :=
      { hs.shared with
        consistent := hconsistent
        down := iff_of_true hmode rfl
        returned := by rw [hworker]; exact hs.shared.returned
        due := by rw [hworker]; exact hs.shared.due
        leased := by rw [hleases]; exact hs.shared.leased
        heldBy := fun c' hmem => hs.shared.heldBy c' (by rwa [hheld] at hmem)
        tokens := by rw [htokens]; exact hs.shared.tokens
        stopped := fun _ => rfl
        listens := fun hup => by cases hup }
    have hclosing : Closing { s with world := w, shuttingDown := true } s.sessions := by
      have hshaken : ∀ c v, HttpServer.view { s with world := w, shuttingDown := true } c = some v →
          v.Shaken ∧ v.registered = decide (c ∈ s.sessions) := by
        intro c v hv
        obtain ⟨conn, hconn, rfl⟩ := Option.map_eq_some_iff.mp hv
        refine ⟨⟨rfl, s.shuttingDown,
          conn.batchCancellation.any fun token => s.world.leases.reason token ≠ .none, ?_⟩, rfl⟩
        have hgood := hs.good c _ (view_of_connection hconn)
        rw [hheld, hleases]
        exact hgood
      refine ⟨hshared, rfl, fun c v hv => (hshaken c v hv).1, fun c hc v hv => ?_⟩
      obtain ⟨h, hreg⟩ := hshaken c v hv
      obtain ⟨-, _, _, hbefore⟩ := id h
      have hout := hbefore.registered
      rw [hreg, decide_eq_false hc] at hout
      refine h.good (.inr ?_)
      cases hclosed : v.conn.closed with
      | true => exact .inl rfl
      | false =>
        rw [hclosed] at hout
        exact .inr (by simpa using hout)
    have hlive : s.sessions.filter (HttpServer.alive { s with world := w, shuttingDown := true }) =
        s.sessions :=
      List.filter_eq_self.mpr fun c hc => hclosing.lockable.alive hshared hc
    dsimp only
    rw [hlive]
    have hdone := hclosing.all
    exact orderly_maybeFinishShutdown hdone.shared fun c v hv => hdone.good c (by simp) v hv

/-- `force_shutdown`. -/
lemma Orderly.forceShutdown (hs : Orderly s) (hdown : s.shuttingDown = true) :
    Orderly { (s.sessions.filter s.alive).foldl initiateSessionShutdown s with stopped := true } := by
  have hclosing : Closing s (s.sessions.filter s.alive) := by
    refine ⟨hs.shared, hdown, fun c v hv => ?_, fun c _ v hv => hs.good c v hv⟩
    obtain ⟨-, -, -, -, hsame, -⟩ := parts_of_view hv
    exact ⟨hsame.trans hdown, v.down, v.requested, hs.good c v hv⟩
  have hdone := hclosing.all
  exact ⟨{ hdone.shared with stopped := fun _ => hdone.down }, fun c v hv => hdone.good c (by simp) v hv,
    fun _ => .inl rfl⟩

end HttpServer

end Voxtral
