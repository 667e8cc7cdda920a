import Voxtral.Server.DrainLoops

/-!
# Draining and resuming make progress

The loops around a stream end: a drain polls a queue that is bounded, every round of a resume delivers a
token of a group the encoder has completed, and a feed or a finish is tried again only on a stream that
works off its backlog.  The audio arrives once and in order, as far as the 32-bit sample range goes.
-/

namespace Voxtral

open Relation

variable {α φ ε γ κ ρ : Type*}

/-- The caller goes on after every event of a stream that has not ended. -/
def StreamCaller.GoesOn (caller : StreamCaller ρ) : Prop :=
  ∀ event r, event.type = .token ∨ event.type = .partialText → (caller.onEvent event r).2 = true

/-- A batch goes on behind every event but the errors. -/
lemma batchCaller_goesOn : batchCaller.GoesOn := by
  intro event result htype
  rcases htype with htype | htype
  · simp [batchCaller, htype]
  · simp [batchCaller, htype]

/-- So does the worker, if its messages are accepted. -/
lemma workerCaller_goesOn {config : RealtimeConfiguration}
    {accepts : OutboundMessage ServerMessage → Bool} (haccepts : ∀ message, accepts message = true) :
    (workerCaller config accepts).GoesOn := by
  intro event worker htype
  have hkind : event.type ≠ .error ∧ event.type ≠ .cancelled := by
    rcases htype with htype | htype <;> rw [htype] <;> decide
  cases hmessage : eventMessage config event with
  | none => rcases htype with htype | htype <;> simp [workerCaller, htype, hmessage]
  | some message => rcases htype with htype | htype <;> simp [workerCaller, htype, hmessage, haccepts]

/-! ## Draining -/

section Drain

variable {caller : StreamCaller ρ} {s : Stream α φ ε γ κ}

/-- One round on a queue that holds an event. -/
lemma drainEvents_cons {e : StreamEvent} {rest : List StreamEvent} (hqueue : s.events.queue = e :: rest)
    (rounds : ℕ) (r : ρ) :
    caller.drainEvents (rounds + 1) s r =
      if (caller.onEvent (publicEvent e (s.events.publicPollSequence + 1)) r).2 then
        caller.drainEvents rounds (streamPollEvent s).1
          (caller.onEvent (publicEvent e (s.events.publicPollSequence + 1)) r).1
      else
        some (((streamPollEvent s).1,
          (caller.onEvent (publicEvent e (s.events.publicPollSequence + 1)) r).1), false) := by
  have hpoll := (streamPollEvent_drained hqueue).2.2
  rw [StreamCaller.drainEvents]
  generalize streamPollEvent s = polled at hpoll ⊢
  obtain ⟨t, response⟩ := polled
  dsimp only at hpoll
  subst hpoll
  rfl

/-- With an empty queue there is nothing to drain. -/
lemma drainEvents_nil (hempty : s.events.queue = []) (rounds : ℕ) (r : ρ) :
    caller.drainEvents (rounds + 1) s r = some ((s, r), true) := by
  have hpoll : streamPollEvent s = (s, .poll none) := by
    unfold streamPollEvent
    rw [hempty]
  rw [StreamCaller.drainEvents, hpoll]

/-- A drain ends, and takes events only. -/
lemma drainEvents_ends {rounds : ℕ} (hrounds : s.events.queue.length < rounds) (r : ρ) :
    ∃ t r' goesOn, caller.drainEvents rounds s r = some ((t, r'), goesOn) ∧ t.frontend = s.frontend := by
  induction rounds generalizing s r with
  | zero => exact absurd hrounds (Nat.not_lt_zero _)
  | succ rounds ih =>
    cases hqueue : s.events.queue with
    | nil => exact ⟨s, r, true, drainEvents_nil hqueue rounds r, rfl⟩
    | cons e rest =>
      obtain ⟨hrest, hsame, -⟩ := streamPollEvent_drained hqueue
      have hfrontend : (drained (streamPollEvent s).1).frontend = (drained s).frontend :=
        congrArg Stream.frontend hsame
      rw [hqueue, List.length_cons] at hrounds
      rw [drainEvents_cons hqueue]
      split_ifs
      · obtain ⟨t, r', goesOn, hdrain, hkept⟩ := ih (s := (streamPollEvent s).1)
          (by rw [hrest]; exact Nat.lt_of_succ_lt_succ hrounds) _
        exact ⟨t, r', goesOn, hdrain, hkept.trans hfrontend⟩
      · exact ⟨_, _, _, rfl, hfrontend⟩

/-- A drain empties the queue, if the caller goes on after each of its events. -/
lemma drainEvents_all
    (hgoes : ∀ e ∈ s.events.queue, ∀ sequence r, (caller.onEvent (publicEvent e sequence) r).2 = true)
    {rounds : ℕ} (hrounds : s.events.queue.length < rounds) (r : ρ) :
    ∃ r', caller.drainEvents rounds s r = some ((drained s, r'), true) := by
  induction rounds generalizing s r with
  | zero => exact absurd hrounds (Nat.not_lt_zero _)
  | succ rounds ih =>
    cases hqueue : s.events.queue with
    | nil =>
      refine ⟨r, ?_⟩
      rw [drainEvents_nil hqueue, drained_of_nil hqueue]
    | cons e rest =>
      obtain ⟨hrest, hsame, -⟩ := streamPollEvent_drained hqueue
      rw [hqueue] at hrounds hgoes
      rw [drainEvents_cons hqueue, if_pos (hgoes e List.mem_cons_self _ r), ← hsame]
      refine ih ?_ ?_ _
      · rw [hrest]
        exact fun x hx => hgoes x (List.mem_cons_of_mem e hx)
      · rw [hrest]
        exact Nat.lt_of_succ_lt_succ hrounds

/-- While the stream is open, a drain empties the queue. -/
lemma drainEvents_open (hgoes : caller.GoesOn) (hmid : ∀ e ∈ s.events.queue, e.IsMidStream) {rounds : ℕ}
    (hrounds : s.events.queue.length < rounds) (r : ρ) :
    ∃ r', caller.drainEvents rounds s r = some ((drained s, r'), true) := by
  refine drainEvents_all (fun e he sequence r => hgoes _ r ?_) hrounds r
  have htype : (publicEvent e sequence).type = e.type := by
    unfold publicEvent
    dsimp only
    rw [if_neg (by rcases hmid e he with h | h <;> rw [h] <;> decide)]
  rw [htype]
  exact hmid e he

end Drain

/-! ## Feeding, resuming and finishing -/

section Calls

variable [Zero α] {eng : Engine α φ ε γ κ} {caller : StreamCaller ρ} {s t u : Stream α φ ε γ κ}

/-- The stream went on from `s` to `t`, open and without backpressure, and took exactly `samples`. -/
structure FedOn (eng : Engine α φ ε γ κ) (s t : Stream α φ ε γ κ) (samples : List ℤ) : Prop where
  between : BetweenCalls eng t
  free : t.events.decoderBackpressured = false
  samples : t.frontend.realSamples = s.frontend.realSamples ++ samples.map eng.sampleOf
  capacity : t.events.maxEvents = s.events.maxEvents

/-- Samples behind samples. -/
lemma FedOn.trans {samples more : List ℤ} (h : FedOn eng s t samples) (h' : FedOn eng t u more) :
    FedOn eng s u (samples ++ more) where
  between := h'.between
  free := h'.free
  samples := by rw [h'.samples, h.samples, List.map_append, List.append_assoc]
  capacity := h'.capacity.trans h.capacity

/-- A stream that is not stalled has taken what it was given. -/
lemma BetweenCalls.fedOn (h : BetweenCalls eng s) (hfree : s.events.decoderBackpressured = false) :
    FedOn eng s s [] where
  between := h
  free := hfree
  samples := (List.append_nil _).symm
  capacity := rfl

/-- `EngineStream::feed` hands on what the stream answers. -/
lemma engineFeed_cases (eng : Engine α φ ε γ κ) (s : Stream α φ ε γ κ) (buf : FeedBuffer) :
    (EngineStream.feed eng s buf = none ∧ streamFeedPcm16 eng s buf = none) ∨
      ∃ t status consumed, EngineStream.feed eng s buf = some (t, status, consumed) ∧
        streamFeedPcm16 eng s buf = some (t, .feed status consumed) := by
  unfold EngineStream.feed streamFeedPcm16
  cases feedCommon eng s buf with
  | none => exact Or.inl ⟨rfl, rfl⟩
  | some r => exact Or.inr ⟨_, _, _, rfl, rfl⟩

/-- A finish has no result, or that of the public call. -/
lemma engineFinish_cases (eng : Engine α φ ε γ κ) (s : Stream α φ ε γ κ) :
    (EngineStream.finish eng s = none ∧ finishInternal eng s = none) ∨
      ∃ t status, EngineStream.finish eng s = some (t, status) ∧
        streamStep eng s .finish = some (t, .finish status) := by
  unfold EngineStream.finish streamStep
  cases finishInternal eng s with
  | none => exact Or.inl ⟨rfl, rfl⟩
  | some r => exact Or.inr ⟨_, _, rfl, rfl⟩

/-- The rounds that are enough for every loop around a stream of this capacity and so many samples. -/
def enoughRounds (maxEvents samples : ℕ) : ℕ := maxEvents + samples + 128

/-- The resume loop returns: every round delivers a token, and the groups of the encoder bound the
tokens. -/
lemma resumeLoop_returns (hruns : ∀ n, eng.submitFails n = false) (hgoes : caller.GoesOn)
    (h : BetweenCalls eng s) (hbp : s.events.decoderBackpressured = true) {rounds : ℕ}
    (hrounds : s.events.maxEvents < rounds) {n : ℕ}
    (hn : 32 + s.frontend.realSamples.length ≤ deliveredTo s + n) (r : ρ) :
    ∃ t r', caller.resumeLoop rounds eng n s r = some ((t, r'), true) ∧ FedOn eng s t [] := by
  induction n generalizing s r with
  | zero =>
    have hbehind := (h.stalled hbp).2
    omega
  | succ n ih =>
    have hqueue : ∀ {u : Stream α φ ε γ κ}, BetweenCalls eng u → u.events.maxEvents = s.events.maxEvents →
        u.events.queue.length < rounds := by
      intro u hu hcap
      have hlen := hu.streamReady.queue
      rw [hcap] at hlen
      exact lt_of_le_of_lt hlen hrounds
    obtain ⟨r₁, hdrain⟩ := drainEvents_open hgoes h.queue (hqueue h rfl) r
    obtain ⟨t, status, hfeed, ht, hanswer, hfrontend, hmoved, -⟩ := h.drained.resume hruns hbp rfl
    have hengine : EngineStream.feed eng (drained s) (.null 0) = some (t, status, 0) := by
      unfold EngineStream.feed
      rw [hfeed]
      rfl
    have hstep : streamStep eng (drained s) (.feed (.null 0)) = some (t, .feed status 0) := hfeed
    have hcap : t.events.maxEvents = s.events.maxEvents := h.drained.maxEvents hstep
    have hsame : t.frontend = s.frontend := hfrontend
    rw [StreamCaller.resumeLoop, hdrain]
    simp only [Option.bind_some, if_true, hengine, ne_eq, not_true_eq_false, if_false]
    rcases hanswer with ⟨rfl, hfree⟩ | ⟨rfl, hstalled⟩
    · -- the backlog is worked off: the last events are drained
      obtain ⟨r₂, hlast⟩ := drainEvents_open hgoes ht.queue (hqueue ht hcap) r₁
      refine ⟨drained t, r₂, ?_, ht.drained, hfree, ?_, hcap⟩
      · rw [if_neg (by decide), if_neg (by decide)]
        exact hlast
      · rw [List.map_nil, List.append_nil, ← hsame]
        rfl
    · -- the queue is full again, and the decoder has moved
      have hless : deliveredTo s < deliveredTo t := hmoved
      obtain ⟨u, r₂, hloop, hu⟩ := ih ht hstalled (by rw [hcap]; exact hrounds) (r := r₁)
        (by rw [hsame]; omega)
      refine ⟨u, r₂, ?_, hu.between, hu.free, ?_, hu.capacity.trans hcap⟩
      · rw [if_pos rfl]
        exact hloop
      · rw [hu.samples, hsame]

/-- Past the 32-bit range with the left padding alone, the padded total is so too. -/
lemma not_paddedFits {m n : ℕ} (hpast : 2 ^ 31 ≤ streamLeftPad + m) (hle : m ≤ n) : ¬ PaddedFits n :=
  fun hfits => absurd (hfits.received hle) (Nat.not_lt.mpr hpast)

/-- A chunk is fed in one call, and what it stalls is resumed. -/
lemma feedLoop_returns (hruns : ∀ n, eng.submitFails n = false) (hgoes : caller.GoesOn)
    (h : BetweenCalls eng s) (hfree : s.events.decoderBackpressured = false) {samples : List ℤ}
    (hlen : samples.length ≤ maxFeedSamples) {rounds : ℕ}
    (hrounds : enoughRounds s.events.maxEvents (s.frontend.realSamples.length + samples.length) ≤ rounds)
    {n : ℕ} (hn : 2 ≤ n) (r : ρ) :
    (caller.feedLoop rounds eng n s r samples = none ∧
        2 ^ 31 ≤ streamLeftPad + (s.frontend.realSamples.length + samples.length)) ∨
      ∃ t r', caller.feedLoop rounds eng n s r samples = some ((t, r'), true) ∧ FedOn eng s t samples := by
  obtain ⟨n, rfl⟩ : ∃ m, n = m + 2 := ⟨n - 2, by omega⟩
  unfold enoughRounds at hrounds
  by_cases hnil : samples = []
  · refine Or.inr ⟨s, r, ?_, ?_⟩
    · rw [StreamCaller.feedLoop, if_pos hnil]
    · rw [hnil]
      exact h.fedOn hfree
  rw [StreamCaller.feedLoop, if_neg hnil]
  rcases engineFeed_cases eng s (.data samples) with ⟨hengine, hnone⟩ | ⟨t, status, consumed, hengine, hfeed⟩
  · refine Or.inl ⟨by rw [hengine]; rfl, ?_⟩
    by_contra hfits
    have hsome : (feedCommon eng s (.data samples)).isSome = true :=
      feedCommon_isSome h.ready fun _ => not_le.mp hfits
    unfold streamFeedPcm16 at hnone
    rw [Option.map_eq_none_iff.mp hnone] at hsome
    exact Bool.false_ne_true hsome
  · right
    obtain ⟨ht, hanswer, hconsumed, hsamples⟩ := h.feed hruns hfree hnil hlen hfeed
    have hstep : streamStep eng s (.feed (.data samples)) = some (t, .feed status consumed) := hfeed
    have hcap : t.events.maxEvents = s.events.maxEvents := h.maxEvents hstep
    have hqueue := ht.streamReady.queue
    have hlast : t.events.queue.length < rounds := by omega
    obtain ⟨r₁, hdrain⟩ := drainEvents_open hgoes ht.queue hlast r
    have hrest : samples.drop consumed = [] := by rw [hconsumed, List.drop_length]
    have hdone : ∀ (u : Stream α φ ε γ κ) (r : ρ),
        caller.feedLoop rounds eng (n + 1) u r [] = some ((u, r), true) := by
      intro u r
      rw [StreamCaller.feedLoop, if_pos rfl]
    simp only [hengine, Option.bind_some, hdrain, if_true, hrest]
    rcases hanswer with ⟨rfl, htfree⟩ | ⟨rfl, hstalled⟩
    · refine ⟨drained t, r₁, ?_, ht.drained, htfree, hsamples, hcap⟩
      rw [if_neg (by decide), if_neg (by simp)]
      exact hdone _ _
    · have hpolls : (drained t).events.maxEvents < rounds := by
        change t.events.maxEvents < rounds
        omega
      have htokens : 32 + (drained t).frontend.realSamples.length ≤ deliveredTo (drained t) + rounds := by
        change 32 + t.frontend.realSamples.length ≤ _
        rw [hsamples, List.length_append, List.length_map]
        omega
      obtain ⟨u, r₂, hresume, hu⟩ := resumeLoop_returns hruns hgoes ht.drained hstalled hpolls htokens r₁
      refine ⟨u, r₂, ?_, hu.between, hu.free, ?_, hu.capacity.trans hcap⟩
      · rw [if_pos rfl, hresume]
        exact hdone _ _
      · rw [hu.samples, List.map_nil, List.append_nil]
        exact hsamples

/-- All chunks are fed, each of them once and in order. -/
lemma feedChunks_returns (hruns : ∀ n, eng.submitFails n = false) (hgoes : caller.GoesOn)
    {chunks : List (List ℤ)} (h : BetweenCalls eng s) (hfree : s.events.decoderBackpressured = false)
    (hlen : ∀ chunk ∈ chunks, chunk.length ≤ maxFeedSamples) {rounds : ℕ}
    (hrounds : enoughRounds s.events.maxEvents
      (s.frontend.realSamples.length + chunks.flatten.length) ≤ rounds) (r : ρ) :
    (caller.feedChunks rounds eng s r chunks = none ∧
        ¬ PaddedFits (s.frontend.realSamples.length + chunks.flatten.length)) ∨
      ∃ t r', caller.feedChunks rounds eng s r chunks = some ((t, r'), true) ∧
        FedOn eng s t chunks.flatten := by
  induction chunks generalizing s r with
  | nil => exact Or.inr ⟨s, r, rfl, h.fedOn hfree⟩
  | cons chunk chunks ih =>
    rw [List.flatten_cons, List.length_append] at hrounds ⊢
    unfold enoughRounds at hrounds ih
    have hchunk : enoughRounds s.events.maxEvents (s.frontend.realSamples.length + chunk.length) ≤
        rounds := by
      unfold enoughRounds
      omega
    have htwo : 2 ≤ rounds := by omega
    rcases feedLoop_returns hruns hgoes h hfree (hlen chunk List.mem_cons_self) hchunk htwo r with
      ⟨hnone, hpast⟩ | ⟨t, r₁, hfed, ht⟩
    · refine Or.inl ⟨by rw [StreamCaller.feedChunks, hnone]; rfl, not_paddedFits hpast ?_⟩
      exact Nat.add_le_add_left (Nat.le_add_right _ _) _
    · have hreceived : t.frontend.realSamples.length =
          s.frontend.realSamples.length + chunk.length := by
        rw [ht.samples, List.length_append, List.length_map]
      rw [StreamCaller.feedChunks, hfed]
      dsimp only [Option.bind_some]
      rw [if_pos rfl, ← Nat.add_assoc, ← hreceived]
      have hcap := ht.capacity
      rcases ih ht.between ht.free (fun x hx => hlen x (List.mem_cons_of_mem chunk hx))
          (by omega) r₁ with hstuck | ⟨u, r₂, hrest, hu⟩
      · exact Or.inl hstuck
      · exact Or.inr ⟨u, r₂, hrest, ht.trans hu⟩

/-- A finish is tried once. -/
lemma finishLoop_returns (h : BetweenCalls eng s) (hfree : s.events.decoderBackpressured = false)
    {rounds n : ℕ} (hn : 0 < n) (r : ρ) :
    (caller.finishLoop rounds eng n s r = none ∧ ¬ PaddedFits s.frontend.realSamples.length) ∨
      (PaddedFits s.frontend.realSamples.length ∧ ∃ t r' goesOn,
        caller.finishLoop rounds eng n s r = some ((t, r'), goesOn) ∧
        t.frontend.realSamples = s.frontend.realSamples ∧
        (goesOn = true → t.events.queue.length ≤ s.events.maxEvents + terminalEventHeadroom + 2)) := by
  obtain ⟨n, rfl⟩ := Nat.exists_eq_succ_of_ne_zero hn.ne'
  rw [StreamCaller.finishLoop]
  rcases engineFinish_cases eng s with ⟨hengine, hnone⟩ | ⟨t, status, hengine, hfinish⟩
  · refine Or.inl ⟨by rw [hengine]; rfl, fun hfits => ?_⟩
    have hsome := finishInternal_isSome h.ready fun _ => hfits
    rw [hnone] at hsome
    exact Bool.false_ne_true hsome
  · obtain ⟨hstatus, hsamples, hfits, hqueue⟩ := h.finish hfree hfinish
    refine Or.inr ⟨hfits, ?_⟩
    rw [hengine]
    dsimp only [Option.bind_some]
    rw [if_neg hstatus]
    by_cases hok : status = .ok
    · exact ⟨t, r, true, by rw [if_neg (not_not.mpr hok)], hsamples, fun _ => hqueue hok⟩
    · exact ⟨t, _, false, by rw [if_pos hok], hsamples, fun hfalse => absurd hfalse Bool.false_ne_true⟩

/-- A caller that feeds `chunks` and finishes returns, with all their samples received, exactly when the
padded total fits the 32-bit range. -/
lemma driveStream_returns (hruns : ∀ n, eng.submitFails n = false) (hgoes : caller.GoesOn)
    {chunks : List (List ℤ)} (h : BetweenCalls eng s) (hfree : s.events.decoderBackpressured = false)
    (hlen : ∀ chunk ∈ chunks, chunk.length ≤ maxFeedSamples) {rounds : ℕ}
    (hrounds : enoughRounds s.events.maxEvents
      (s.frontend.realSamples.length + chunks.flatten.length) ≤ rounds) (r : ρ) :
    (caller.driveStream rounds eng s r chunks = none ∧
        ¬ PaddedFits (s.frontend.realSamples.length + chunks.flatten.length)) ∨
      (PaddedFits (s.frontend.realSamples.length + chunks.flatten.length) ∧ ∃ t r' goesOn,
        caller.driveStream rounds eng s r chunks = some ((t, r'), goesOn) ∧
        t.frontend.realSamples = s.frontend.realSamples ++ chunks.flatten.map eng.sampleOf) := by
  rcases feedChunks_returns hruns hgoes h hfree hlen hrounds r with ⟨hnone, hpast⟩ | ⟨t, r₁, hfed, ht⟩
  · exact Or.inl ⟨by rw [StreamCaller.driveStream, hnone]; rfl, hpast⟩
  have hreceived : t.frontend.realSamples.length =
      s.frontend.realSamples.length + chunks.flatten.length := by
    rw [ht.samples, List.length_append, List.length_map]
  have hcap := ht.capacity
  unfold enoughRounds at hrounds
  rw [StreamCaller.driveStream, hfed, ← hreceived]
  dsimp only [Option.bind_some]
  rw [if_pos rfl]
  have hend : (caller.finishLoop rounds eng rounds t r₁ = none ∧ _) ∨ _ :=
    finishLoop_returns ht.between ht.free (by omega) r₁
  rcases hend with ⟨hnone, hpast⟩ | ⟨hfits, u, r₂, goesOn, hfinish, hsamples, hqueue⟩
  · exact Or.inl ⟨by rw [hnone]; rfl, hpast⟩
  · refine Or.inr ⟨hfits, ?_⟩
    rw [hfinish]
    dsimp only [Option.bind_some]
    cases goesOn with
    | false => exact ⟨u, r₂, false, rfl, hsamples.trans ht.samples⟩
    | true =>
      have hbound := hqueue rfl
      rw [show terminalEventHeadroom = 64 from rfl] at hbound
      have hlast : u.events.queue.length < rounds := by omega
      obtain ⟨v, r₃, ended, hdrain, hkept⟩ := drainEvents_ends hlast r₂
      refine ⟨v, r₃, ended, hdrain, ?_⟩
      rw [hkept]
      exact hsamples.trans ht.samples

end Calls

/-! ## The chunks -/

/-- The chunks of a batch are its samples. -/
lemma flatten_batchChunks {rounds : ℕ} {samples : List ℤ} (h : samples.length ≤ rounds) :
    (batchChunks rounds samples).flatten = samples := by
  induction rounds generalizing samples with
  | zero =>
    rw [List.length_eq_zero_iff.mp (Nat.le_zero.mp h)]
    rfl
  | succ rounds ih =>
    rw [batchChunks]
    split_ifs with hnil
    · rw [hnil]
      rfl
    · have hlength := List.length_pos_iff.mpr hnil
      rw [List.flatten_cons, ih (by rw [List.length_drop]; unfold kBatchChunkSamples; omega),
        List.take_append_drop]

/-- The chunks of a batch are a second long at most. -/
lemma length_of_mem_batchChunks_le (rounds : ℕ) (samples : List ℤ) :
    ∀ chunk ∈ batchChunks rounds samples, chunk.length ≤ kBatchChunkSamples := by
  induction rounds generalizing samples with
  | zero => exact fun _ hchunk => absurd hchunk List.not_mem_nil
  | succ rounds ih =>
    intro chunk hchunk
    unfold batchChunks at hchunk
    split_ifs at hchunk
    · exact absurd hchunk List.not_mem_nil
    · rcases List.mem_cons.mp hchunk with rfl | hchunk
      · exact List.length_take_le _ _
      · exact ih _ chunk hchunk

/-- They are short enough for one feed. -/
lemma length_of_mem_batchChunks (rounds : ℕ) (samples : List ℤ) :
    ∀ chunk ∈ batchChunks rounds samples, chunk.length ≤ maxFeedSamples := fun chunk hchunk =>
  (length_of_mem_batchChunks_le rounds samples chunk hchunk).trans (by decide)

/-- The worker feeds what it pops, and never nothing. -/
lemma poppedChunks_size {capacity : ℕ} {calls : List PcmCall} {path : PcmPath}
    {results : List (Option PopResult)}
    (hrun : runSteps PcmPath.step (PcmPath.start capacity) calls = some (path, results)) :
    ∀ chunk ∈ poppedChunks results, chunk ≠ [] ∧ chunk.length ≤ kWorkerChunkSamples := by
  intro chunk hchunk
  obtain ⟨result, hresult, hchunk⟩ := List.mem_filterMap.mp hchunk
  have hpopped : ∀ popped, some (PopResult.audio popped) = result → PcmPath.WorkerChunk popped :=
    fun popped hpopped => PcmPath.popped_workerChunk hrun popped (hpopped ▸ hresult)
  split at hchunk
  · next popped =>
    rw [← Option.some.inj hchunk, List.length_map, Ne, List.map_eq_nil_iff]
    exact hpopped popped rfl
  · exact absurd hchunk (by simp)

/-- It is never longer than a feed may be. -/
lemma length_of_mem_poppedChunks {capacity : ℕ} {calls : List PcmCall} {path : PcmPath}
    {results : List (Option PopResult)}
    (hrun : runSteps PcmPath.step (PcmPath.start capacity) calls = some (path, results)) :
    ∀ chunk ∈ poppedChunks results, chunk.length ≤ maxFeedSamples := fun chunk hchunk =>
  (poppedChunks_size hrun chunk hchunk).2.trans (by decide)

/-! ## The guarantees -/

section Guarantees

variable [Zero α] {eng : Engine α φ ε γ κ} {s t : Stream α φ ε γ κ}

/-- A round of the resume loop that finds the queue full again. -/
def ResumeRound (eng : Engine α φ ε γ κ) (s t : Stream α φ ε γ κ) : Prop :=
  streamFeedPcm16 eng (drained s) (.null 0) = some (t, .feed .queueFull 0)

/-- The stream takes what is retried on it. -/
structure TakesOn (eng : Engine α φ ε γ κ) (s : Stream α φ ε γ κ) : Prop where
  feed : ∀ samples t status consumed, samples ≠ [] → samples.length ≤ maxFeedSamples →
    streamFeedPcm16 eng s (.data samples) = some (t, .feed status consumed) → consumed = samples.length
  finish : ∀ t status, streamStep eng s .finish = some (t, .finish status) → status ≠ .queueFull

/-- What draining and resuming the stalled stream `s` comes to. -/
structure ResumeProgress (eng : Engine α φ ε γ κ) (s : Stream α φ ε γ κ) : Prop where
  /-- Every round is answered OK or finds the queue full again, and enqueues a TOKEN event in the queue
  that was drained. -/
  round : ∀ t, ReflTransGen (ResumeRound eng) s t → ∃ u status,
    streamFeedPcm16 eng (drained t) (.null 0) = some (u, .feed status 0) ∧
      (status = .ok ∨ status = .queueFull) ∧ ∃ e ∈ u.events.queue, e.isToken = true
  batch : ∃ least, ∀ rounds, least ≤ rounds → ∀ result, ∃ t result',
    resumeAfterBackpressure rounds eng s result = some ((t, result'), true) ∧ TakesOn eng t
  session : ∃ least, ∀ rounds, least ≤ rounds → ∀ config accepts,
    (∀ message, accepts message = true) → ∀ worker, ∃ t worker',
      resumeBackpressure config accepts rounds eng s worker = some ((t, worker'), true) ∧ TakesOn eng t

/-- `transcribe_batch` returns, and the stream received all samples, each once and in order. -/
def BatchPasses (eng : Engine α φ ε γ κ) (s : Stream α φ ε γ κ) (samples : List ℤ) : Prop :=
  ∃ least, ∀ rounds, least ≤ rounds → ∃ t result,
    transcribeBatch rounds eng s samples = some (t, result) ∧
      t.frontend.realSamples = samples.map eng.sampleOf

/-- So does the worker of a session for the chunks it pops. -/
def SessionPasses (eng : Engine α φ ε γ κ) (config : RealtimeConfiguration)
    (accepts : OutboundMessage ServerMessage → Bool) (s : Stream α φ ε γ κ) (chunks : List (List ℤ)) :
    Prop :=
  ∃ least, ∀ rounds, least ≤ rounds → ∃ t worker,
    inferenceWorker config accepts rounds eng s chunks = some (t, worker) ∧
      t.frontend.realSamples = chunks.flatten.map eng.sampleOf

/-- A stream that takes samples takes more of them. -/
lemma FedOn.takesOn {samples : List ℤ} (hruns : ∀ n, eng.submitFails n = false)
    (h : FedOn eng s t samples) : TakesOn eng t where
  feed := by
    intro more u status consumed hne hlen hfeed
    exact (h.between.feed hruns h.free hne hlen hfeed).2.2.1
  finish := by
    intro u status hfinish
    exact (h.between.finish h.free hfinish).1

/-- The rounds of the resume loop stay between calls of a stalled stream. -/
lemma resumeRounds_between (hruns : ∀ n, eng.submitFails n = false) (h : BetweenCalls eng s)
    (hbp : s.events.decoderBackpressured = true) (hrounds : ReflTransGen (ResumeRound eng) s t) :
    BetweenCalls eng t ∧ t.events.decoderBackpressured = true := by
  induction hrounds with
  | refl => exact ⟨h, hbp⟩
  | tail _ hround ih =>
    obtain ⟨u, status, hfeed, hu, hanswer, -⟩ := ih.1.drained.resume hruns ih.2 rfl
    obtain ⟨rfl, hresponse⟩ := Prod.mk.inj (Option.some.inj (hround.symm.trans hfeed))
    obtain ⟨rfl, -⟩ := Response.feed.inj hresponse
    rcases hanswer with ⟨hok, -⟩ | ⟨-, hstalled⟩
    · exact absurd hok (by decide)
    · exact ⟨hu, hstalled⟩

/-- Draining and resuming makes progress. -/
lemma BetweenCalls.resumeProgress (hruns : ∀ n, eng.submitFails n = false) (h : BetweenCalls eng s)
    (hbp : s.events.decoderBackpressured = true) : ResumeProgress eng s := by
  have hloop : ∀ {σ : Type} {caller : StreamCaller σ}, caller.GoesOn → ∀ rounds,
      enoughRounds s.events.maxEvents s.frontend.realSamples.length ≤ rounds → ∀ r, ∃ t r',
        caller.resumeLoop rounds eng rounds s r = some ((t, r'), true) ∧ TakesOn eng t := by
    intro σ caller hgoes rounds hrounds r
    unfold enoughRounds at hrounds
    obtain ⟨t, r', hresume, ht⟩ := resumeLoop_returns hruns hgoes h hbp
      (show s.events.maxEvents < rounds by omega)
      (show 32 + s.frontend.realSamples.length ≤ deliveredTo s + rounds by omega) r
    exact ⟨t, r', hresume, ht.takesOn hruns⟩
  constructor
  · intro t hrounds
    obtain ⟨ht, hstalled⟩ := resumeRounds_between hruns h hbp hrounds
    obtain ⟨u, status, hfeed, -, hanswer, -, -, htokens⟩ := ht.drained.resume hruns hstalled rfl
    obtain ⟨e, he⟩ := List.exists_mem_of_ne_nil _ htokens
    obtain ⟨hmem, htoken⟩ := List.mem_filter.mp he
    exact ⟨u, status, hfeed, hanswer.imp And.left And.left, e, hmem, htoken⟩
  · exact ⟨_, hloop batchCaller_goesOn⟩
  · exact ⟨_, fun rounds hrounds config accepts haccepts =>
      hloop (workerCaller_goesOn haccepts) rounds hrounds⟩

/-- A caller passes its chunks to a new stream exactly when the padded total fits the 32-bit range. -/
lemma driveStream_iff (hruns : ∀ n, eng.submitFails n = false) {maxEvents : ℕ} (hcap : 0 < maxEvents)
    (device : Device ε γ κ) {caller : StreamCaller ρ} (hgoes : caller.GoesOn) {chunks : List (List ℤ)}
    (hlen : ∀ chunk ∈ chunks, chunk.length ≤ maxFeedSamples) (r : ρ) :
    (∃ least, ∀ rounds, least ≤ rounds → ∃ t r' goesOn,
        caller.driveStream rounds eng (Stream.create maxEvents device) r chunks =
          some ((t, r'), goesOn) ∧
        t.frontend.realSamples = chunks.flatten.map eng.sampleOf) ↔
      PaddedFits chunks.flatten.length := by
  have hnew := betweenCalls_create eng hcap device
  have hreceived : (Stream.create maxEvents device : Stream α φ ε γ κ).frontend.realSamples = [] := rfl
  have hreturns := fun rounds (hrounds : enoughRounds maxEvents (0 + chunks.flatten.length) ≤ rounds) =>
    driveStream_returns hruns hgoes hnew rfl hlen hrounds r
  rw [hreceived, List.length_nil, Nat.zero_add] at hreturns
  constructor
  · rintro ⟨least, hpasses⟩
    rcases hreturns (max least (enoughRounds maxEvents chunks.flatten.length)) (le_max_right _ _) with
      ⟨hnone, -⟩ | ⟨hfits, -⟩
    · obtain ⟨t, r', goesOn, hdrive, -⟩ := hpasses _ (le_max_left _ _)
      exact absurd (hnone.symm.trans hdrive) nofun
    · exact hfits
  · intro hfits
    refine ⟨enoughRounds maxEvents chunks.flatten.length, fun rounds hrounds => ?_⟩
    rcases hreturns rounds hrounds with ⟨-, hpast⟩ | ⟨-, hdrive⟩
    · exact absurd hfits hpast
    · exact hdrive

/-- `transcribe_batch` ends with the stream its loops leave. -/
lemma transcribeBatch_stream (eng : Engine α φ ε γ κ) (rounds : ℕ) (s : Stream α φ ε γ κ)
    (samples : List ℤ) :
    (transcribeBatch rounds eng s samples).map Prod.fst =
      (batchCaller.driveStream rounds eng s {} (batchChunks samples.length samples)).map
        fun ended => ended.1.1 := by
  rw [transcribeBatch, Option.map_map]
  congr 1
  funext ended
  obtain ⟨⟨t, result⟩, goesOn⟩ := ended
  dsimp only [Function.comp_apply]
  split_ifs <;> rfl

/-- The stream of the worker is the one its loops end with. -/
lemma inferenceWorker_stream (config : RealtimeConfiguration)
    (accepts : OutboundMessage ServerMessage → Bool) (eng : Engine α φ ε γ κ) (rounds : ℕ)
    (s : Stream α φ ε γ κ) (chunks : List (List ℤ)) :
    (inferenceWorker config accepts rounds eng s chunks).map Prod.fst =
      ((workerCaller config accepts).driveStream rounds eng s {} chunks).map fun ended => ended.1.1 := by
  rw [inferenceWorker, Option.map_map]
  congr 1
  funext ended
  obtain ⟨⟨t, worker⟩, goesOn⟩ := ended
  dsimp only [Function.comp_apply]
  split_ifs <;> rfl

omit [Zero α] in
/-- Results with the same stream pass the same samples. -/
lemma exists_stream_iff {σ τ : Type*} {ended : Option (Stream α φ ε γ κ × σ)}
    {driven : Option ((Stream α φ ε γ κ × τ) × Bool)}
    (hsame : ended.map Prod.fst = driven.map fun ended => ended.1.1) (P : Stream α φ ε γ κ → Prop) :
    (∃ t r, ended = some (t, r) ∧ P t) ↔ ∃ t r goesOn, driven = some ((t, r), goesOn) ∧ P t := by
  constructor
  · rintro ⟨t, r, rfl, ht⟩
    obtain ⟨⟨⟨u, r'⟩, goesOn⟩, hdriven, rfl⟩ := Option.map_eq_some_iff.mp hsame.symm
    exact ⟨u, r', goesOn, hdriven, ht⟩
  · rintro ⟨t, r, goesOn, rfl, ht⟩
    obtain ⟨⟨u, r'⟩, hended, rfl⟩ := Option.map_eq_some_iff.mp hsame
    exact ⟨u, r', hended, ht⟩

/-- So does `transcribe_batch`. -/
lemma batchPasses_iff (hruns : ∀ n, eng.submitFails n = false) {maxEvents : ℕ} (hcap : 0 < maxEvents)
    (device : Device ε γ κ) (samples : List ℤ) :
    BatchPasses eng (Stream.create maxEvents device) samples ↔ PaddedFits samples.length := by
  have hflatten : (batchChunks samples.length samples).flatten = samples := flatten_batchChunks le_rfl
  have hdrive := driveStream_iff hruns hcap device batchCaller_goesOn
    (length_of_mem_batchChunks samples.length samples) {}
  rw [hflatten] at hdrive
  rw [← hdrive]
  refine exists_congr fun least => forall₂_congr fun rounds _ => ?_
  exact exists_stream_iff (transcribeBatch_stream eng rounds _ samples) _

/-- And the worker of a session, whose messages the outbound queue takes. -/
lemma sessionPasses_iff (hruns : ∀ n, eng.submitFails n = false) {maxEvents : ℕ} (hcap : 0 < maxEvents)
    (device : Device ε γ κ) {config : RealtimeConfiguration}
    {accepts : OutboundMessage ServerMessage → Bool} (haccepts : ∀ message, accepts message = true)
    {chunks : List (List ℤ)} (hlen : ∀ chunk ∈ chunks, chunk.length ≤ maxFeedSamples) :
    SessionPasses eng config accepts (Stream.create maxEvents device) chunks ↔
      PaddedFits chunks.flatten.length := by
  rw [← driveStream_iff hruns hcap device (workerCaller_goesOn haccepts) hlen {}]
  refine exists_congr fun least => forall₂_congr fun rounds _ => ?_
  exact exists_stream_iff (inferenceWorker_stream config accepts eng rounds _ chunks) _

end Guarantees

/-- Draining and resuming makes progress on every stalled stream that calls and resets lead to, whatever
its capacity and backlog, when no graph fails.  `transcribe_batch` and the worker of a session return, with
every sample received once and in order, exactly when the padded total of the samples fits the 32-bit
range; the worker feeds the chunks that any run of the audio path pops. -/
theorem drain_and_resume_progress [Zero α] {eng : Engine α φ ε γ κ}
    (hruns : ∀ n, eng.submitFails n = false) {maxEvents : ℕ} (hcap : 0 < maxEvents) :
    (∀ (device : Device ε γ κ) (clearKv : κ → κ) (calls : List Call) (os : List CallResponse)
        (s : Stream α φ ε γ κ),
      runSteps (callStep eng clearKv) (Stream.create maxEvents device) calls = some (s, os) →
        s.Open → s.events.decoderBackpressured = true → ResumeProgress eng s) ∧
    (∀ (device : Device ε γ κ) (samples : List ℤ),
      BatchPasses eng (Stream.create maxEvents device) samples ↔ PaddedFits samples.length) ∧
    ∀ (device : Device ε γ κ) (config : RealtimeConfiguration)
        (accepts : OutboundMessage ServerMessage → Bool) (capacity : ℕ) (calls : List PcmCall)
        (path : PcmPath) (results : List (Option PopResult)),
      (∀ message, accepts message = true) →
        runSteps PcmPath.step (PcmPath.start capacity) calls = some (path, results) →
          (SessionPasses eng config accepts (Stream.create maxEvents device) (poppedChunks results) ↔
            PaddedFits (poppedChunks results).flatten.length) := by
  refine ⟨?_, fun device samples => batchPasses_iff hruns hcap device samples, ?_⟩
  · intro device clearKv calls os s hrun hopen hbp
    exact (betweenCalls_run hcap hrun hopen).resumeProgress hruns hbp
  · intro device config accepts capacity calls path results haccepts hrun
    exact sessionPasses_iff hruns hcap device haccepts (length_of_mem_poppedChunks hrun)

/-- A second of audio stalls a queue of one event, and draining and resuming makes progress.  A batch of one
sample passes, and so does a session whose worker pops three. -/
theorem drain_and_resume_progress_small :
    (∃ s os, runSteps (callStep (plainEngine defaultSchedule) id) (Stream.create 1 plainDevice)
        [.op (feedZeros 16000)] = some (s, os) ∧
      s.events.decoderBackpressured = true ∧ ResumeProgress (plainEngine defaultSchedule) s) ∧
    BatchPasses (plainEngine defaultSchedule) (Stream.create 1 plainDevice) [0] ∧
      ∃ path results, runSteps PcmPath.step (PcmPath.start 16)
        [.readBinary [1, 0, 2, 0, 255, 255], .pump, .pump, .pop] = some (path, results) ∧
      SessionPasses (plainEngine defaultSchedule) ⟨true, true⟩ (fun _ => true)
        (Stream.create 1 plainDevice) (poppedChunks results) := by
  have hruns : ∀ n, (plainEngine defaultSchedule).submitFails n = false := fun _ => rfl
  obtain ⟨hresumes, hbatch, hsession⟩ := drain_and_resume_progress hruns (show 0 < 1 by decide)
  have hpops : ∃ path results, runSteps PcmPath.step (PcmPath.start 16)
      [.readBinary [1, 0, 2, 0, 255, 255], .pump, .pump, .pop] = some (path, results) ∧
        (poppedChunks results).flatten.length = 3 := by
    refine ⟨_, _, rfl, ?_⟩
    decide
  obtain ⟨path, results, hrun, hthree⟩ := hpops
  refine ⟨?_, (hbatch plainDevice [0]).mpr ?_, path, results, hrun, ?_⟩
  · obtain ⟨s, os, hfeed, -, halike⟩ := exists_pacedRun hruns 1 [feedZeros 16000] (by simp [TotalFits])
    simp only [List.map_cons, feedZeros_paced, List.map_nil] at halike
    have hmodel : let m := (pacedRun (plainEngine defaultSchedule) 1 plainDevice [.feed false 16000]).1
        (m.lifecycle.state, m.events.decoderBackpressured) = (.running, true) := by decide +kernel
    simp only [halike.lifecycle, halike.events, Prod.mk.injEq] at hmodel
    obtain ⟨hrunning, hstalled⟩ := hmodel
    have hcalls := callStep_ops id hfeed
    exact ⟨s, _, hcalls, hstalled,
      hresumes plainDevice id _ _ s hcalls (.inr hrunning) hstalled⟩
  · change 40960 + 1 + finishRightPad 1 < 2 ^ 31
    decide
  · have hsession' := hsession plainDevice ⟨true, true⟩ (fun _ => true) 16 _ path results
      (fun _ => rfl) hrun
    rw [hsession', hthree]
    change 40960 + 3 + finishRightPad 3 < 2 ^ 31
    decide

/-- A day and a half of silence is more than either loop passes: 134220 batch chunks, or 1677750 chunks of
the worker. -/
theorem drain_stuck_after_37_hours :
    ¬ BatchPasses (plainEngine defaultSchedule) (Stream.create 64 plainDevice)
        (List.replicate 2147520000 0) ∧
      ¬ SessionPasses (plainEngine defaultSchedule) ⟨true, true⟩ (fun _ => true)
        (Stream.create 64 plainDevice) (List.replicate 1677750 (List.replicate kWorkerChunkSamples 0)) := by
  have hruns : ∀ n, (plainEngine defaultSchedule).submitFails n = false := fun _ => rfl
  have hpast : ¬ PaddedFits 2147520000 := by
    intro hfits
    have hreceived := hfits.received le_rfl
    exact absurd hreceived (by decide)
  constructor
  · rw [batchPasses_iff hruns (by decide), List.length_replicate]
    exact hpast
  · rw [sessionPasses_iff hruns (by decide) plainDevice (fun _ => rfl)]
    · rw [List.length_flatten, List.map_replicate, List.length_replicate, List.sum_replicate]
      exact hpast
    · intro chunk hchunk
      rw [List.eq_of_mem_replicate hchunk, List.length_replicate]
      decide

end Voxtral
