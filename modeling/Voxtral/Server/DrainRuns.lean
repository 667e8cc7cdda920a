import Voxtral.Server.DrainProgress

/-!
# The loops around a stream are runs of it

What a loop of `transcribe_batch` or of a session worker does to a stream is a run of public calls, and what
it remembers is made of the events these calls polled, taken in order.  Everything shown about runs
therefore holds of the loops.
-/

namespace Voxtral

variable {α φ ε γ κ ρ : Type*} [Zero α] {eng : Engine α φ ε γ κ} {caller : StreamCaller ρ}
  {s t u : Stream α φ ε γ κ} {r r₁ r₂ : ρ}

/-- What the caller remembers after `events`. -/
def StreamCaller.take (caller : StreamCaller ρ) (r : ρ) (events : List (StreamEvent × PublicEvent)) : ρ :=
  events.foldl (fun r event => (caller.onEvent event.2 r).1) r

/-- Calls took the stream from `s` to `t`, none of them a feed of more than a slice, and the events they
polled took the caller from `r` to `r₁`. -/
def DrivenTo (eng : Engine α φ ε γ κ) (caller : StreamCaller ρ) (s : Stream α φ ε γ κ) (r : ρ)
    (t : Stream α φ ε γ κ) (r₁ : ρ) : Prop :=
  ∃ ops os, runSteps (streamStep eng) s ops = some (t, os) ∧
    (∀ op ∈ ops, op.sampleCount ≤ audioDrainSlice) ∧ caller.take r (polledEvents os) = r₁

/-- A caller that made no call. -/
lemma DrivenTo.refl (s : Stream α φ ε γ κ) (r : ρ) : DrivenTo eng caller s r s r :=
  ⟨[], [], rfl, fun _ hop => absurd hop List.not_mem_nil, rfl⟩

/-- Calls behind calls. -/
lemma DrivenTo.trans (h : DrivenTo eng caller s r t r₁) (h' : DrivenTo eng caller t r₁ u r₂) :
    DrivenTo eng caller s r u r₂ := by
  obtain ⟨ops, os, hrun, hshort, htake⟩ := h
  obtain ⟨ops', os', hrun', hshort', htake'⟩ := h'
  refine ⟨ops ++ ops', os ++ os', runSteps_append.mpr ⟨t, os, os', hrun, hrun', rfl⟩, ?_, ?_⟩
  · intro op hop
    rcases List.mem_append.mp hop with hop | hop
    · exact hshort op hop
    · exact hshort' op hop
  · rw [polledEvents, List.filterMap_append, StreamCaller.take, List.foldl_append]
    subst htake
    exact htake'

/-- A call that is no poll. -/
lemma DrivenTo.call {op : Op} {response : Response} (hstep : streamStep eng s op = some (t, response))
    (hshort : op.sampleCount ≤ audioDrainSlice) (hquiet : response.polledEvent = none) (r : ρ) :
    DrivenTo eng caller s r t r := by
  refine ⟨[op], [response], runSteps_singleton.mpr ⟨response, hstep, rfl⟩, ?_, ?_⟩
  · intro op' hop
    rw [List.mem_singleton.mp hop]
    exact hshort
  · rw [polledEvents, List.filterMap_cons_none hquiet]
    rfl

/-- A poll of a queue that holds an event. -/
lemma DrivenTo.poll {e : StreamEvent} {rest : List StreamEvent} (hqueue : s.events.queue = e :: rest)
    (r : ρ) :
    DrivenTo eng caller s r (streamPollEvent s).1
      (caller.onEvent (publicEvent e (s.events.publicPollSequence + 1)) r).1 := by
  have hpoll := (streamPollEvent_drained hqueue).2.2
  have hstep : streamStep eng s .poll = some ((streamPollEvent s).1,
      .poll (some (e, publicEvent e (s.events.publicPollSequence + 1)))) := by
    rw [← hpoll]
    rfl
  refine ⟨[.poll], _, runSteps_singleton.mpr ⟨_, hstep, rfl⟩, ?_, rfl⟩
  intro op hop
  rw [List.mem_singleton.mp hop]
  exact Nat.zero_le _

/-! ## The loops -/

variable (eng) in
/-- A drain that was not ended by the caller leaves no event. -/
lemma drainEvents_driven {rounds : ℕ} (h : caller.drainEvents rounds s r = some ((t, r₁), true)) :
    DrivenTo eng caller s r t r₁ ∧ t.events.queue = [] := by
  induction rounds generalizing s r with
  | zero => exact absurd h nofun
  | succ rounds ih =>
    cases hqueue : s.events.queue with
    | nil =>
      rw [drainEvents_nil hqueue] at h
      obtain ⟨hsame, -⟩ := Prod.mk.inj (Option.some.inj h)
      obtain ⟨rfl, rfl⟩ := Prod.mk.inj hsame
      exact ⟨.refl s r, hqueue⟩
    | cons e rest =>
      rw [drainEvents_cons hqueue] at h
      split_ifs at h with hgo
      · obtain ⟨hdriven, hempty⟩ := ih h
        exact ⟨(DrivenTo.poll hqueue r).trans hdriven, hempty⟩
      · exact absurd (Prod.mk.inj (Option.some.inj h)).2 Bool.false_ne_true

/-- `EngineStream::feed` is a feed. -/
lemma engineFeed_driven {buf : FeedBuffer} {status : PublicStatus} {consumed : ℕ}
    (h : EngineStream.feed eng s buf = some (t, status, consumed))
    (hshort : buf.samples.length ≤ audioDrainSlice) (r : ρ) : DrivenTo eng caller s r t r := by
  rcases engineFeed_cases eng s buf with ⟨hnone, -⟩ | ⟨t', status', consumed', hsome, hfeed⟩
  · rw [hnone] at h
    exact absurd h nofun
  · obtain ⟨rfl, -⟩ := Prod.mk.inj (Option.some.inj (hsome.symm.trans h))
    have hstep : streamStep eng s (.feed buf) = some (t', .feed status' consumed') := hfeed
    exact .call hstep hshort rfl r

/-- `EngineStream::finish` is a finish. -/
lemma engineFinish_driven {status : PublicStatus} (h : EngineStream.finish eng s = some (t, status))
    (r : ρ) : DrivenTo eng caller s r t r := by
  rcases engineFinish_cases eng s with ⟨hnone, -⟩ | ⟨t', status', hsome, hfinish⟩
  · rw [hnone] at h
    exact absurd h nofun
  · obtain ⟨rfl, -⟩ := Prod.mk.inj (Option.some.inj (hsome.symm.trans h))
    exact .call hfinish (Nat.zero_le _) rfl r

/-- The resume loop drives the stream, and leaves its queue empty. -/
lemma resumeLoop_driven {rounds n : ℕ} (h : caller.resumeLoop rounds eng n s r = some ((t, r₁), true)) :
    DrivenTo eng caller s r t r₁ ∧ t.events.queue = [] := by
  induction n generalizing s r with
  | zero => exact absurd h nofun
  | succ n ih =>
    rw [StreamCaller.resumeLoop] at h
    obtain ⟨⟨⟨u, r₂⟩, goesOn⟩, hdrain, h⟩ := Option.bind_eq_some_iff.mp h
    cases goesOn with
    | false => exact absurd (Prod.mk.inj (Option.some.inj h)).2 Bool.false_ne_true
    | true =>
      obtain ⟨⟨v, status, consumed⟩, hfeed, h⟩ := Option.bind_eq_some_iff.mp h
      have hdriven : DrivenTo eng caller s r v r₂ :=
        (drainEvents_driven eng hdrain).1.trans (engineFeed_driven hfeed (Nat.zero_le _) r₂)
      dsimp only at h
      split_ifs at h with hconsumed hfull hfailed
      · exact absurd (Prod.mk.inj (Option.some.inj h)).2 Bool.false_ne_true
      · exact ⟨hdriven.trans (ih h).1, (ih h).2⟩
      · exact absurd (Prod.mk.inj (Option.some.inj h)).2 Bool.false_ne_true
      · obtain ⟨hlast, hempty⟩ := drainEvents_driven eng h
        exact ⟨hdriven.trans hlast, hempty⟩

/-- The feed loop drives the stream, and leaves an empty queue empty. -/
lemma feedLoop_driven {rounds n : ℕ} {samples : List ℤ} (hshort : samples.length ≤ audioDrainSlice)
    (h : caller.feedLoop rounds eng n s r samples = some ((t, r₁), true)) :
    DrivenTo eng caller s r t r₁ ∧ (s.events.queue = [] → t.events.queue = []) := by
  induction n generalizing s r samples with
  | zero => exact absurd h nofun
  | succ n ih =>
    rw [StreamCaller.feedLoop] at h
    split_ifs at h with hnil
    · obtain ⟨rfl, rfl⟩ := Prod.mk.inj (Prod.mk.inj (Option.some.inj h)).1
      exact ⟨.refl s r, id⟩
    · obtain ⟨⟨u, status, consumed⟩, hfeed, h⟩ := Option.bind_eq_some_iff.mp h
      obtain ⟨⟨⟨v, r₂⟩, goesOn⟩, hdrain, h⟩ := Option.bind_eq_some_iff.mp h
      have hrest : (samples.drop consumed).length ≤ audioDrainSlice := by
        rw [List.length_drop]
        exact (Nat.sub_le _ _).trans hshort
      cases goesOn with
      | false => exact absurd (Prod.mk.inj (Option.some.inj h)).2 Bool.false_ne_true
      | true =>
        obtain ⟨hdrained, hempty⟩ := drainEvents_driven eng hdrain
        have hdriven : DrivenTo eng caller s r v r₂ := (engineFeed_driven hfeed hshort r).trans hdrained
        dsimp only at h
        rw [if_pos rfl] at h
        by_cases hfull : status = .queueFull
        · rw [if_pos hfull] at h
          obtain ⟨⟨⟨w, r₃⟩, goesOn⟩, hresume, h⟩ := Option.bind_eq_some_iff.mp h
          cases goesOn with
          | false => exact absurd (Prod.mk.inj (Option.some.inj h)).2 Bool.false_ne_true
          | true =>
            obtain ⟨hresumed, hcleared⟩ := resumeLoop_driven hresume
            obtain ⟨hmore, hkept⟩ := ih hrest h
            exact ⟨(hdriven.trans hresumed).trans hmore, fun _ => hkept hcleared⟩
        · rw [if_neg hfull] at h
          by_cases hfailed : status ≠ .ok ∨ (consumed = 0 ∧ samples.drop consumed ≠ [])
          · rw [if_pos hfailed] at h
            exact absurd (Prod.mk.inj (Option.some.inj h)).2 Bool.false_ne_true
          · rw [if_neg hfailed] at h
            obtain ⟨hmore, hkept⟩ := ih hrest h
            exact ⟨hdriven.trans hmore, fun _ => hkept hempty⟩

/-- So does the loop over the chunks. -/
lemma feedChunks_driven {rounds : ℕ} {chunks : List (List ℤ)}
    (hshort : ∀ chunk ∈ chunks, chunk.length ≤ audioDrainSlice)
    (h : caller.feedChunks rounds eng s r chunks = some ((t, r₁), true)) :
    DrivenTo eng caller s r t r₁ ∧ (s.events.queue = [] → t.events.queue = []) := by
  induction chunks generalizing s r with
  | nil =>
    obtain ⟨rfl, rfl⟩ := Prod.mk.inj (Prod.mk.inj (Option.some.inj h)).1
    exact ⟨.refl s r, id⟩
  | cons chunk chunks ih =>
    rw [StreamCaller.feedChunks] at h
    obtain ⟨⟨⟨u, r₂⟩, goesOn⟩, hfeed, h⟩ := Option.bind_eq_some_iff.mp h
    cases goesOn with
    | false => exact absurd (Prod.mk.inj (Option.some.inj h)).2 Bool.false_ne_true
    | true =>
      obtain ⟨hfed, hkept⟩ := feedLoop_driven (hshort chunk List.mem_cons_self) hfeed
      obtain ⟨hmore, hkept'⟩ := ih (fun x hx => hshort x (List.mem_cons_of_mem chunk hx)) h
      exact ⟨hfed.trans hmore, hkept' ∘ hkept⟩

/-- The finish loop drives the stream. -/
lemma finishLoop_driven {rounds n : ℕ} (h : caller.finishLoop rounds eng n s r = some ((t, r₁), true)) :
    DrivenTo eng caller s r t r₁ := by
  induction n generalizing s r with
  | zero => exact absurd h nofun
  | succ n ih =>
    rw [StreamCaller.finishLoop] at h
    obtain ⟨⟨u, status⟩, hfinish, h⟩ := Option.bind_eq_some_iff.mp h
    have hdriven : DrivenTo eng caller s r u r := engineFinish_driven hfinish r
    dsimp only at h
    split_ifs at h with hfull hfailed
    · obtain ⟨⟨⟨v, r₂⟩, goesOn⟩, hresume, h⟩ := Option.bind_eq_some_iff.mp h
      cases goesOn with
      | false => exact absurd (Prod.mk.inj (Option.some.inj h)).2 Bool.false_ne_true
      | true => exact (hdriven.trans (resumeLoop_driven hresume).1).trans (ih h)
    · exact absurd (Prod.mk.inj (Option.some.inj h)).2 Bool.false_ne_true
    · obtain ⟨rfl, rfl⟩ := Prod.mk.inj (Prod.mk.inj (Option.some.inj h)).1
      exact hdriven

/-- A caller that came to its end drove the stream there, and left no event behind. -/
theorem driveStream_driven {rounds : ℕ} {chunks : List (List ℤ)}
    (hshort : ∀ chunk ∈ chunks, chunk.length ≤ audioDrainSlice)
    (h : caller.driveStream rounds eng s r chunks = some ((t, r₁), true)) :
    DrivenTo eng caller s r t r₁ ∧ t.events.queue = [] := by
  rw [StreamCaller.driveStream] at h
  obtain ⟨⟨⟨u, r₂⟩, goesOn⟩, hfeed, h⟩ := Option.bind_eq_some_iff.mp h
  cases goesOn with
  | false => exact absurd (Prod.mk.inj (Option.some.inj h)).2 Bool.false_ne_true
  | true =>
    obtain ⟨⟨⟨v, r₃⟩, goesOn⟩, hfinish, h⟩ := Option.bind_eq_some_iff.mp h
    cases goesOn with
    | false => exact absurd (Prod.mk.inj (Option.some.inj h)).2 Bool.false_ne_true
    | true =>
      obtain ⟨hdrained, hempty⟩ := drainEvents_driven eng h
      exact ⟨((feedChunks_driven hshort hfeed).1.trans (finishLoop_driven hfinish)).trans hdrained, hempty⟩

end Voxtral
