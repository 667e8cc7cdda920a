import Voxtral.Server.SessionStream

/-!
# The loops of a calm worker

A loop of `inferenceWorker` that returns leads the worker of a calm session along its way: to the access
behind the loop, or to the report of its failure.  So every undisturbed session, however its threads are
interleaved and whatever its lag below the hard limit, enqueues what `inferenceWorker` enqueues.
-/

namespace Voxtral

open SessionThreads

variable {α φ ε γ κ : Type*}

namespace InferenceWorker

/-- The messages of the transcript that a worker enqueued. -/
def transcript (worker : InferenceWorker) : List ServerMessage :=
  (worker.enqueued.map OutboundMessage.payload).filter fun message => !message.isAside

/-- The view of a session whose worker is at `point` and noted and enqueued this. -/
def seenAt (worker : InferenceWorker) (point : WorkerPoint) : SessionThreads where
  worker := point
  terminal := worker.terminal
  enqueued := worker.transcript
  inputFinishing := true

/-- All the worker has to say: its transcript, and the failure it reports. -/
def sent (worker : InferenceWorker) : List ServerMessage :=
  worker.transcript ++
    match worker.failure with
    | none => []
    | some (status, _) => [.error (apiErrorCode status) (safeStatusMessage status) true]

/-- The worker behind an event that is no error: it noted it, and enqueued its message. -/
def noted (config : RealtimeConfiguration) (worker : InferenceWorker) (event : PublicEvent) :
    InferenceWorker :=
  { worker with
    terminal := worker.terminal.observe event
    enqueued := worker.enqueued ++ (eventMessage config event).toList }

variable {worker : InferenceWorker} {point next : WorkerPoint}

/-- The view is its own view. -/
lemma view_seenAt (hpoint : point ≠ .warn) : (worker.seenAt point).view = worker.seenAt point := by
  simp [SessionThreads.view, seenAt, hpoint, transcript]

/-- The worker goes on. -/
lemma seenAt_goTo (hnext : next ≠ .warn) :
    ((worker.seenAt point).goTo next).view = worker.seenAt next :=
  view_seenAt hnext

/-- The worker enqueues a message of the transcript. -/
lemma seenAt_enqueue (message : OutboundMessage ServerMessage) (hmessage : message.payload.isAside = false)
    (hnext : next ≠ .warn) :
    (((worker.seenAt point).enqueue message.payload).goTo next).view =
      { worker with enqueued := worker.enqueued ++ [message] }.seenAt next := by
  simp [SessionThreads.view, seenAt, enqueue, goTo, hnext, transcript, hmessage]

/-- The worker requests the close. -/
lemma seenAt_close (code : CloseCode) (hnext : next ≠ .warn) :
    (((worker.seenAt point).requestCloseAfterDrain code).goTo next).view = worker.seenAt next := by
  simp [SessionThreads.view, seenAt, requestCloseAfterDrain, goTo, hnext, transcript]

end InferenceWorker

/-- What `drain_events` enqueues is part of the transcript. -/
lemma isAside_eventMessage {config : RealtimeConfiguration} {event : PublicEvent}
    {message : OutboundMessage ServerMessage} (h : eventMessage config event = some message) :
    message.payload.isAside = false := by
  unfold eventMessage at h
  split at h
  · split_ifs at h
    obtain rfl := Option.some.inj h
    rfl
  · split_ifs at h
    obtain rfl := Option.some.inj h
    rfl
  · exact absurd h nofun

namespace StreamSession

variable [Zero α] {config : RealtimeConfiguration} {eng : Engine α φ ε γ κ}

/-- Where a loop leads from `m`, with what the worker `r` noted: behind the loop to `point`, or to the report
of the failure it noted. -/
structure Arrives (config : RealtimeConfiguration) (eng : Engine α φ ε γ κ) (m : StreamSession α φ ε γ κ)
    (r : InferenceWorker) (ended : (Stream α φ ε γ κ × InferenceWorker) × Bool) (point : WorkerPoint)
    (samples : List ℤ) (chunks : List (List ℤ)) : Prop where
  goesOn : ended.2 = true → ended.1.2.failure = r.failure ∧
    Leads (next config eng) m ⟨ended.1.2.seenAt point, ended.1.1, samples, chunks⟩
  fails : ended.2 = false → ∃ status detail input, ended.1.2.failure = some (status, detail) ∧
    input.stream = ended.1.1 ∧
    Leads (next config eng) m ⟨ended.1.2.seenAt (engineError status), input⟩

variable {m m' : StreamSession α φ ε γ κ} {r r' : InferenceWorker} {s t : Stream α φ ε γ κ}
  {ended : (Stream α φ ε γ κ × InferenceWorker) × Bool} {point point' : WorkerPoint}
  {samples samples' : List ℤ} {chunks chunks' : List (List ℤ)}

/-- A loop with nothing to do. -/
lemma Arrives.refl :
    Arrives config eng ⟨r.seenAt point, s, samples, chunks⟩ r ((s, r), true) point samples chunks :=
  ⟨fun _ => ⟨rfl, .refl _⟩, fun h => absurd h nofun⟩

/-- A stretch of the way in front of a loop. -/
lemma Arrives.along (hleads : Leads (next config eng) m m')
    (h : Arrives config eng m' r' ended point samples chunks) (hfailure : r'.failure = r.failure) :
    Arrives config eng m r ended point samples chunks where
  goesOn hgo := ⟨(h.goesOn hgo).1.trans hfailure, hleads.trans (h.goesOn hgo).2⟩
  fails hstop := by
    obtain ⟨status, detail, input, hfails, hinput, hthen⟩ := h.fails hstop
    exact ⟨status, detail, input, hfails, hinput, hleads.trans hthen⟩

/-- An access in front of a loop. -/
lemma Arrives.head (hnext : next config eng m = some m')
    (h : Arrives config eng m' r' ended point samples chunks) (hfailure : r'.failure = r.failure) :
    Arrives config eng m r ended point samples chunks := h.along (.single hnext) hfailure

/-- A failure that the worker goes to report. -/
lemma Arrives.failed {status : PublicStatus} {detail : Bytes} (input : WorkerInput α φ ε γ κ)
    (hleads : Leads (next config eng) m ⟨r'.seenAt (engineError status), input⟩)
    (hfailure : r'.failure = some (status, detail)) :
    Arrives config eng m r ((input.stream, r'), false) point samples chunks :=
  ⟨fun h => absurd h nofun, fun _ => ⟨status, detail, input, hfailure, rfl, hleads⟩⟩

/-- A loop, and what follows if it goes on. -/
lemma Arrives.andThen {first : Option ((Stream α φ ε γ κ × InferenceWorker) × Bool)}
    {rest : (Stream α φ ε γ κ × InferenceWorker) × Bool →
      Option ((Stream α φ ε γ κ × InferenceWorker) × Bool)}
    (h : first.bind rest = some ended)
    (hfirst : ∀ ended, first = some ended → Arrives config eng m r ended point samples chunks)
    (hstop : ∀ t r', rest ((t, r'), false) = some ((t, r'), false))
    (hrest : ∀ t r', rest ((t, r'), true) = some ended →
      Arrives config eng ⟨r'.seenAt point, t, samples, chunks⟩ r' ended point' samples' chunks') :
    Arrives config eng m r ended point' samples' chunks' := by
  obtain ⟨⟨⟨t, r'⟩, goesOn⟩, hended, h⟩ := Option.bind_eq_some_iff.mp h
  have harrives := hfirst _ hended
  cases goesOn with
  | true =>
    obtain ⟨hfailure, hleads⟩ := harrives.goesOn rfl
    exact (hrest t r' h).along hleads hfailure
  | false =>
    obtain rfl := Option.some.inj ((hstop t r').symm.trans h)
    exact ⟨fun hgo => absurd hgo nofun, fun _ => harrives.fails rfl⟩

/-- What is seen behind an access. -/
lemma next_seenAt (answer : WorkerAnswer) {input input' : WorkerInput α φ ε γ κ} {threads : SessionThreads}
    (hanswer : StreamSession.answer eng ⟨r.seenAt point, input⟩ .ok = some (input', answer))
    (hstep : (r.seenAt point).workerStep config answer = some threads)
    (hview : threads.view = r'.seenAt point') :
    next config eng ⟨r.seenAt point, input⟩ = some ⟨r'.seenAt point', input'⟩ :=
  next_eq hanswer (by rw [hstep, Option.map_some, hview])

/-- What is seen behind an access at which the worker only goes on. -/
lemma next_goTo (answer : WorkerAnswer) {input input' : WorkerInput α φ ε γ κ}
    (hanswer : StreamSession.answer eng ⟨r.seenAt point, input⟩ .ok = some (input', answer))
    (hstep : (r.seenAt point).workerStep config answer = some ((r.seenAt point).goTo point'))
    (hpoint : point' ≠ .warn) :
    next config eng ⟨r.seenAt point, input⟩ = some ⟨r.seenAt point', input'⟩ :=
  next_seenAt answer hanswer hstep (InferenceWorker.seenAt_goTo hpoint)

/-! ## Draining -/

/-- No warning stands behind a drain. -/
lemma drained_ne_warn (site : DrainSite) : SessionThreads.drained site ≠ .warn := by
  rcases site with (more | more | ⟨code, message⟩) | caller | (more | _) | _
  all_goals try cases more
  all_goals exact nofun

/-- An error event ends the loops of the worker. -/
lemma onEvent_failed {event : PublicEvent} (hkind : event.type = .error ∨ event.type = .cancelled) :
    (workerCaller config fun _ => true).onEvent event r =
      ({ r with failure := some (event.status, event.text) }, false) := by
  rcases hkind with htype | htype <;> simp [workerCaller, htype, TerminalEvents.observe]

/-- The others are noted. -/
lemma onEvent_noted {event : PublicEvent} (hkind : ¬ (event.type = .error ∨ event.type = .cancelled)) :
    (workerCaller config fun _ => true).onEvent event r = (r.noted config event, true) := by
  cases htype : event.type <;> cases hmessage : eventMessage config event <;>
    simp_all [workerCaller, InferenceWorker.noted]

/-- The threads report an error event. -/
lemma drainEvent_failed {threads : SessionThreads} {site : DrainSite} {event : PublicEvent}
    (hkind : event.type = .error ∨ event.type = .cancelled) :
    drainEvent config threads site event =
      threads.goTo (if event.status = .cancelled then .cancelledEvent site else engineError event.status) := by
  rcases hkind with htype | htype <;> simp only [drainEvent, htype]

/-- They note the others. -/
lemma drainEvent_noted {threads : SessionThreads} {site : DrainSite} {event : PublicEvent}
    (hkind : ¬ (event.type = .error ∨ event.type = .cancelled)) :
    drainEvent config threads site event =
      let threads := { threads with terminal := threads.terminal.observe event }
      if (eventMessage config event).isSome then threads.goTo (.drainEnqueue site event) else threads := by
  unfold drainEvent
  cases htype : event.type <;> simp_all

/-- A drain polls the stream. -/
lemma answer_drain {site : DrainSite} {e : StreamEvent} {event : PublicEvent}
    (hpoll : (streamPollEvent s).2 = .poll (some (e, event))) :
    StreamSession.answer eng ⟨r.seenAt (.drain site), s, samples, chunks⟩ .ok =
      some (⟨(streamPollEvent s).1, samples, chunks⟩, .event event) := by
  have hpolled : streamPollEvent s = ((streamPollEvent s).1, .poll (some (e, event))) := Prod.ext rfl hpoll
  unfold StreamSession.answer
  dsimp only [InferenceWorker.seenAt]
  rw [hpolled]
  rfl

/-- It finds the end of the queue. -/
lemma answer_drain_nil {site : DrainSite} (hqueue : s.events.queue = []) :
    StreamSession.answer eng ⟨r.seenAt (.drain site), s, samples, chunks⟩ .ok =
      some (⟨s, samples, chunks⟩, .notReady) := by
  have hpolled : streamPollEvent s = (s, .poll none) := by
    unfold streamPollEvent
    rw [hqueue]
  unfold StreamSession.answer
  dsimp only [InferenceWorker.seenAt]
  rw [hpolled]
  rfl

/-- An error event leads to the report of its failure. -/
lemma drain_failed {site : DrainSite} {e : StreamEvent} {event : PublicEvent}
    (hpoll : (streamPollEvent s).2 = .poll (some (e, event)))
    (hkind : event.type = .error ∨ event.type = .cancelled) :
    Leads (next config eng) ⟨r.seenAt (.drain site), s, samples, chunks⟩
      ⟨r.seenAt (engineError event.status), (streamPollEvent s).1, samples, chunks⟩ := by
  have hstep : (r.seenAt (.drain site)).workerStep config (.event event) = some ((r.seenAt (.drain site)).goTo
      (if event.status = .cancelled then .cancelledEvent site else engineError event.status)) :=
    congrArg some (drainEvent_failed hkind)
  by_cases hcancelled : event.status = .cancelled
  · -- one that says CANCELLED is reported behind a further look at the cancellation
    rw [if_pos hcancelled] at hstep
    refine .head (next_goTo _ (answer_drain hpoll) hstep (by rintro ⟨⟩)) (.single ?_)
    rw [hcancelled]
    exact next_goTo .ok rfl rfl (by rintro ⟨⟩)
  · rw [if_neg hcancelled] at hstep
    exact .single (next_goTo _ (answer_drain hpoll) hstep (by rintro ⟨⟩))

/-- The message of an event is enqueued before the next poll. -/
lemma next_drainEnqueue {site : DrainSite} {event : PublicEvent} {message : OutboundMessage ServerMessage}
    (hmessage : eventMessage config event = some message) (input : WorkerInput α φ ε γ κ) :
    next config eng ⟨r.seenAt (.drainEnqueue site event), input⟩ =
      some ⟨{ r with enqueued := r.enqueued ++ [message] }.seenAt (.drain site), input⟩ := by
  have henqueue : (r.seenAt (.drainEnqueue site event)).workerStep config .ok =
      some (((r.seenAt (.drainEnqueue site event)).enqueue message.payload).goTo (.drain site)) := by
    unfold workerStep
    dsimp only [InferenceWorker.seenAt]
    rw [hmessage]
    rfl
  exact next_seenAt .ok rfl henqueue
    (InferenceWorker.seenAt_enqueue message (isAside_eventMessage hmessage) (by rintro ⟨⟩))

/-- Any other event is noted on the way to the next poll. -/
lemma drain_noted {site : DrainSite} {e : StreamEvent} {event : PublicEvent}
    (hpoll : (streamPollEvent s).2 = .poll (some (e, event)))
    (hkind : ¬ (event.type = .error ∨ event.type = .cancelled)) :
    Leads (next config eng) ⟨r.seenAt (.drain site), s, samples, chunks⟩
      ⟨(r.noted config event).seenAt (.drain site), (streamPollEvent s).1, samples, chunks⟩ := by
  have hnoted : (r.seenAt (.drain site)).workerStep config (.event event) =
      some (drainEvent config (r.seenAt (.drain site)) site event) := rfl
  rw [drainEvent_noted hkind] at hnoted
  set observed : InferenceWorker := { r with terminal := r.terminal.observe event }
  cases hmessage : eventMessage config event with
  | none =>
    have hsame : r.noted config event = observed := by
      rw [InferenceWorker.noted, hmessage, Option.toList_none, List.append_nil]
    have hstep : (r.seenAt (.drain site)).workerStep config (.event event) =
        some (observed.seenAt (.drain site)) := by
      rw [hnoted, hmessage]
      rfl
    rw [hsame]
    exact .single (next_seenAt _ (answer_drain hpoll) hstep (InferenceWorker.view_seenAt (by rintro ⟨⟩)))
  | some message =>
    have hsame : r.noted config event = { observed with enqueued := observed.enqueued ++ [message] } := by
      rw [InferenceWorker.noted, hmessage, Option.toList_some]
    have hstep : (r.seenAt (.drain site)).workerStep config (.event event) =
        some (observed.seenAt (.drainEnqueue site event)) := by
      rw [hnoted, hmessage]
      rfl
    rw [hsame]
    exact .head (next_seenAt _ (answer_drain hpoll) hstep (InferenceWorker.view_seenAt (by rintro ⟨⟩)))
      (.single (next_drainEnqueue hmessage _))

/-- A drain leads behind it. -/
lemma drainEvents_arrives {site : DrainSite} {rounds : ℕ}
    (h : (workerCaller config fun _ => true).drainEvents rounds s r = some ended) :
    Arrives config eng ⟨r.seenAt (.drain site), s, samples, chunks⟩ r ended (SessionThreads.drained site)
      samples chunks := by
  induction rounds generalizing s r with
  | zero => exact absurd h nofun
  | succ rounds ih =>
    cases hqueue : s.events.queue with
    | nil =>
      rw [drainEvents_nil hqueue] at h
      obtain rfl := Option.some.inj h
      exact .head (next_goTo _ (answer_drain_nil hqueue) rfl (drained_ne_warn site)) .refl rfl
    | cons e rest =>
      have hpoll := (streamPollEvent_drained hqueue).2.2
      rw [drainEvents_cons hqueue] at h
      generalize publicEvent e (s.events.publicPollSequence + 1) = event at h hpoll
      by_cases hkind : event.type = .error ∨ event.type = .cancelled
      · rw [onEvent_failed hkind] at h
        obtain rfl := Option.some.inj h
        have hreport : Leads (next config eng) ⟨r.seenAt (.drain site), s, samples, chunks⟩
            ⟨{ r with failure := some (event.status, event.text) }.seenAt (engineError event.status),
              (streamPollEvent s).1, samples, chunks⟩ := drain_failed hpoll hkind
        exact .failed _ hreport rfl
      · rw [onEvent_noted hkind] at h
        exact .along (drain_noted hpoll hkind) (ih h) rfl

/-! ## Resuming, feeding and finishing -/

/-- A failed call of the engine leads to its report. -/
lemma next_failed {status : PublicStatus} {detail : Bytes} {input input' : WorkerInput α φ ε γ κ}
    {answer : WorkerAnswer}
    (hanswer : StreamSession.answer eng ⟨r.seenAt point, input⟩ .ok = some (input', answer))
    (hstep : (r.seenAt point).workerStep config answer = some ((r.seenAt point).goTo (engineError status))) :
    next config eng ⟨r.seenAt point, input⟩ =
      some ⟨((workerCaller config fun _ => true).onFailure status detail r).seenAt (engineError status),
        input'⟩ :=
  next_goTo _ hanswer hstep (by rintro ⟨⟩)

/-- What the worker makes of a status that is neither good nor asks to try again. -/
lemma statusAnswer_failed {status : PublicStatus} (hfull : status ≠ .queueFull) (hok : status ≠ .ok) :
    statusAnswer status = .failed (apiErrorCode status) (safeStatusMessage status) := by
  rw [statusAnswer, if_neg hfull, if_pos hok]

/-- The resume loop leads behind its last drain. -/
lemma resumeLoop_arrives {caller : ResumeCaller} {rounds n : ℕ}
    (h : (workerCaller config fun _ => true).resumeLoop rounds eng n s r = some ended) :
    Arrives config eng ⟨r.seenAt (.resumeCheck caller), s, samples, chunks⟩ r ended
      (SessionThreads.drained (.resumed caller)) samples chunks := by
  induction n generalizing s r with
  | zero => exact absurd h nofun
  | succ n ih =>
    rw [StreamCaller.resumeLoop] at h
    have hcheck : next config eng ⟨r.seenAt (.resumeCheck caller), s, samples, chunks⟩ =
        some ⟨r.seenAt (.drain (.resume caller)), s, samples, chunks⟩ :=
      next_goTo .ok rfl rfl (by rintro ⟨⟩)
    refine .head hcheck
      (Arrives.andThen h (fun _ => drainEvents_arrives) (fun _ _ => rfl) fun t r' hrest => ?_) rfl
    dsimp only at hrest
    rw [if_pos rfl] at hrest
    obtain ⟨⟨u, status, consumed⟩, hfeed, hrest⟩ := Option.bind_eq_some_iff.mp hrest
    have hanswer : StreamSession.answer eng ⟨r'.seenAt (.resumeFeed caller), t, samples, chunks⟩ .ok =
        some (⟨u, samples, chunks⟩, statusAnswer (if consumed ≠ 0 then .internalError else status)) := by
      change (EngineStream.feed eng t (.null 0)).map _ = _
      rw [hfeed]
      rfl
    dsimp only at hrest
    by_cases hconsumed : consumed ≠ 0
    · rw [if_pos hconsumed] at hrest hanswer
      obtain rfl := Option.some.inj hrest
      exact .failed _ (.single (next_failed hanswer rfl)) rfl
    · rw [if_neg hconsumed] at hrest hanswer
      by_cases hfull : status = .queueFull
      · subst hfull
        have hagain : next config eng ⟨r'.seenAt (.resumeFeed caller), t, samples, chunks⟩ =
            some ⟨r'.seenAt (.resumeCheck caller), u, samples, chunks⟩ :=
          next_goTo _ hanswer rfl (by rintro ⟨⟩)
        exact .head hagain (ih hrest) rfl
      · rw [if_neg hfull] at hrest
        by_cases hok : status = .ok
        · subst hok
          have hdrain : next config eng ⟨r'.seenAt (.resumeFeed caller), t, samples, chunks⟩ =
              some ⟨r'.seenAt (.drain (.resumed caller)), u, samples, chunks⟩ :=
            next_goTo _ hanswer rfl (by rintro ⟨⟩)
          exact .head hdrain (drainEvents_arrives hrest) rfl
        · rw [if_pos hok] at hrest
          rw [statusAnswer_failed hfull hok] at hanswer
          obtain rfl := Option.some.inj hrest
          exact .failed _ (.single (next_failed hanswer rfl)) rfl

/-- The feed of a chunk leads to the observation of the lag. -/
lemma feedLoop_arrives {rounds n : ℕ}
    (h : (workerCaller config fun _ => true).feedLoop rounds eng n s r samples = some ended) :
    Arrives config eng ⟨r.seenAt (nextFeed (samples ≠ [])), s, samples, chunks⟩ r ended .observeLag []
      chunks := by
  induction n generalizing s r samples with
  | zero => exact absurd h nofun
  | succ n ih =>
    rw [StreamCaller.feedLoop] at h
    by_cases hnil : samples = []
    · subst hnil
      obtain rfl := Option.some.inj h
      exact .refl
    · rw [if_neg hnil] at h
      obtain ⟨⟨t, status, consumed⟩, hfeed, h⟩ := Option.bind_eq_some_iff.mp h
      dsimp only at h
      set rest := samples.drop consumed with hrest
      have hanswer : StreamSession.answer eng ⟨r.seenAt .feedCheck, s, samples, chunks⟩ .ok =
          some (⟨t, rest, chunks⟩, .feed (feedAnswer status consumed rest)) := by
        change (EngineStream.feed eng s (.data samples)).map _ = _
        rw [hfeed]
        rfl
      have hdrain : next config eng ⟨r.seenAt .feedCheck, s, samples, chunks⟩ =
          some ⟨r.seenAt (.drain (.afterFeed (feedAnswer status consumed rest))), t, rest, chunks⟩ :=
        next_goTo _ hanswer rfl (by rintro ⟨⟩)
      rw [show nextFeed (samples ≠ []) = .feedCheck by simp [nextFeed, hnil]]
      refine .head hdrain
        (Arrives.andThen h (fun _ => drainEvents_arrives) (fun _ _ => rfl) fun u r' hthen => ?_) rfl
      rw [if_pos rfl] at hthen
      by_cases hfull : status = .queueFull
      · -- the stream stalled and is resumed before the rest of the chunk is fed
        rw [if_pos hfull] at hthen
        have hfeed : feedAnswer status consumed rest = .queueFull (rest ≠ []) := if_pos hfull
        rw [hfeed]
        refine Arrives.andThen hthen (fun _ => resumeLoop_arrives) (fun _ _ => rfl) fun v r'' hagain => ?_
        exact ih hagain
      · rw [if_neg hfull] at hthen
        by_cases hfails : status ≠ .ok ∨ consumed = 0 ∧ rest ≠ []
        · rw [if_pos hfails] at hthen
          have hfeed : feedAnswer status consumed rest =
              .failed (apiErrorCode (if status = .ok then .internalError else status))
                (safeStatusMessage (if status = .ok then .internalError else status)) := by
            rw [feedAnswer, if_neg hfull, if_pos hfails]
          rw [hfeed]
          generalize (if status = .ok then PublicStatus.internalError else status) = failure at hthen ⊢
          obtain rfl := Option.some.inj hthen
          have hreport : Leads (next config eng)
              ⟨r'.seenAt (SessionThreads.drained (.afterFeed (.failed (apiErrorCode failure)
                (safeStatusMessage failure)))), u, rest, chunks⟩
              ⟨((workerCaller config fun _ => true).onFailure failure (EngineStream.lastError u) r').seenAt
                (engineError failure), u, rest, chunks⟩ := .refl _
          exact .failed _ hreport rfl
        · rw [if_neg hfails] at hthen
          have hfeed : feedAnswer status consumed rest = .ok (rest ≠ []) := by
            rw [feedAnswer, if_neg hfull, if_neg hfails]
          rw [hfeed]
          exact ih hthen

/-- The loop over the chunks leads behind the last of them. -/
lemma feedChunks_arrives {rounds : ℕ} (hchunks : ∀ chunk ∈ chunks, chunk ≠ [])
    (h : (workerCaller config fun _ => true).feedChunks rounds eng s r chunks = some ended) :
    Arrives config eng ⟨r.seenAt .pop, s, [], chunks⟩ r ended .pop [] [] := by
  induction chunks generalizing s r with
  | nil =>
    obtain rfl := Option.some.inj h
    exact .refl
  | cons chunk chunks ih =>
    rw [StreamCaller.feedChunks] at h
    have hpop : next config eng ⟨r.seenAt .pop, s, [], chunk :: chunks⟩ =
        some ⟨r.seenAt (.popCheck false), s, chunk, chunks⟩ :=
      next_goTo .audio rfl rfl (by rintro ⟨⟩)
    have hcheck : next config eng ⟨r.seenAt (.popCheck false), s, chunk, chunks⟩ =
        some ⟨r.seenAt (nextFeed (chunk ≠ [])), s, chunk, chunks⟩ := by
      have hfeed : nextFeed (chunk ≠ []) = .feedCheck := by
        simp [nextFeed, hchunks chunk List.mem_cons_self]
      rw [hfeed]
      exact next_goTo .ok rfl rfl (by rintro ⟨⟩)
    refine .head hpop (.head hcheck
      (Arrives.andThen h (fun _ => feedLoop_arrives) (fun _ _ => rfl) fun t r' hrest => ?_) rfl) rfl
    have hlag : next config eng ⟨r'.seenAt .observeLag, t, [], chunks⟩ =
        some ⟨r'.seenAt .pop, t, [], chunks⟩ :=
      next_goTo .ok rfl rfl (by rintro ⟨⟩)
    exact .head hlag (ih (fun c hc => hchunks c (List.mem_cons_of_mem chunk hc)) hrest) rfl

/-- The loop around `finish` leads to the last drain. -/
lemma finishLoop_arrives {rounds n : ℕ}
    (h : (workerCaller config fun _ => true).finishLoop rounds eng n s r = some ended) :
    Arrives config eng ⟨r.seenAt .finishCheck, s, samples, chunks⟩ r ended (.drain .last) samples
      chunks := by
  induction n generalizing s r with
  | zero => exact absurd h nofun
  | succ n ih =>
    rw [StreamCaller.finishLoop] at h
    obtain ⟨⟨t, status⟩, hfinish, h⟩ := Option.bind_eq_some_iff.mp h
    dsimp only at h
    have hanswer : StreamSession.answer eng ⟨r.seenAt .finishCheck, s, samples, chunks⟩ .ok =
        some (⟨t, samples, chunks⟩, statusAnswer status) := by
      change (EngineStream.finish eng s).map _ = _
      rw [hfinish]
      rfl
    by_cases hfull : status = .queueFull
    · subst hfull
      have hresume : next config eng ⟨r.seenAt .finishCheck, s, samples, chunks⟩ =
          some ⟨r.seenAt (.resumeCheck .finish), t, samples, chunks⟩ :=
        next_goTo _ hanswer rfl (by rintro ⟨⟩)
      exact .head hresume
        (Arrives.andThen h (fun _ => resumeLoop_arrives) (fun _ _ => rfl) fun u r' hagain => ih hagain) rfl
    · rw [if_neg hfull] at h
      by_cases hok : status = .ok
      · subst hok
        obtain rfl := Option.some.inj h
        have hlast : next config eng ⟨r.seenAt .finishCheck, s, samples, chunks⟩ =
            some ⟨r.seenAt (.drain .last), t, samples, chunks⟩ :=
          next_goTo _ hanswer rfl (by rintro ⟨⟩)
        exact .head hlast .refl rfl
      · rw [if_pos hok] at h
        rw [statusAnswer_failed hfull hok] at hanswer
        obtain rfl := Option.some.inj h
        exact .failed _ (.single (next_failed hanswer rfl)) rfl

/-- All chunks, the finish and its events lead to the final text. -/
lemma driveStream_arrives {rounds : ℕ} (hchunks : ∀ chunk ∈ chunks, chunk ≠ [])
    (h : (workerCaller config fun _ => true).driveStream rounds eng s r chunks = some ended) :
    Arrives config eng ⟨r.seenAt .createStream, s, [], chunks⟩ r ended .readFinal [] [] := by
  have hcreate : next config eng ⟨r.seenAt .createStream, s, [], chunks⟩ =
      some ⟨r.seenAt .pop, s, [], chunks⟩ :=
    next_goTo .ok rfl rfl (by rintro ⟨⟩)
  rw [StreamCaller.driveStream] at h
  refine .head hcreate (Arrives.andThen h (fun _ => feedChunks_arrives hchunks) (fun _ _ => rfl)
    fun t r' hthen => ?_) rfl
  have hpop : next config eng ⟨r'.seenAt .pop, t, [], []⟩ = some ⟨r'.seenAt (.popCheck true), t, [], []⟩ :=
    next_goTo .finish rfl rfl (by rintro ⟨⟩)
  have hcheck : next config eng ⟨r'.seenAt (.popCheck true), t, [], []⟩ =
      some ⟨r'.seenAt .finishCheck, t, [], []⟩ :=
    next_goTo .ok rfl rfl (by rintro ⟨⟩)
  exact .head hpop (.head hcheck (Arrives.andThen hthen (fun _ => finishLoop_arrives) (fun _ _ => rfl)
    fun u r'' hlast => drainEvents_arrives hlast) rfl) rfl

/-! ## The whole worker -/

/-- The report of a failure leads to the end. -/
lemma report_leads (config : RealtimeConfiguration) (eng : Engine α φ ε γ κ) (r : InferenceWorker)
    (status : PublicStatus) (input : WorkerInput α φ ε γ κ) :
    ∃ last : StreamSession α φ ε γ κ, Leads (next config eng) ⟨r.seenAt (engineError status), input⟩ last ∧
      last.threads.worker = .done ∧ last.input = input ∧
      last.threads.enqueued =
        r.transcript ++ [.error (apiErrorCode status) (safeStatusMessage status) true] := by
  set message : OutboundMessage ServerMessage :=
    ⟨.error (apiErrorCode status) (safeStatusMessage status) true, .mandatory⟩ with hmessage
  set reported : InferenceWorker := { r with enqueued := r.enqueued ++ [message] } with hreported
  have hcheck : next config eng ⟨r.seenAt (engineError status), input⟩ =
      some ⟨r.seenAt (.failureEnqueue (apiErrorCode status) (safeStatusMessage status)), input⟩ :=
    next_goTo .ok rfl rfl (by rintro ⟨⟩)
  have henqueue : next config eng
      ⟨r.seenAt (.failureEnqueue (apiErrorCode status) (safeStatusMessage status)), input⟩ =
        some ⟨reported.seenAt .failureClose, input⟩ :=
    next_seenAt .ok rfl rfl (InferenceWorker.seenAt_enqueue message rfl (by rintro ⟨⟩))
  have hclose : next config eng ⟨reported.seenAt .failureClose, input⟩ =
      some ⟨reported.seenAt .done, input⟩ :=
    next_seenAt .ok rfl rfl (InferenceWorker.seenAt_close _ (by rintro ⟨⟩))
  refine ⟨⟨reported.seenAt .done, input⟩, .head hcheck (.head henqueue (.single hclose)), rfl, rfl, ?_⟩
  simp [hreported, hmessage, InferenceWorker.seenAt, InferenceWorker.transcript, ServerMessage.isAside]

/-- The two messages behind the last drain, and the close. -/
lemma completed_leads (input : WorkerInput α φ ε γ κ)
    (hstate : input.stream.lifecycle.state = .completed)
    (hseen : r.terminal.finalSeen ∧ r.terminal.completedSeen) :
    Leads (next config eng) ⟨r.seenAt .readFinal, input⟩
      ⟨{ r with
          enqueued := r.enqueued ++ r.terminal.messages (EngineStream.finalText input.stream) }.seenAt .done,
        input⟩ := by
  set text := EngineStream.finalText input.stream with htext
  set final : OutboundMessage ServerMessage :=
    ⟨.final r.terminal.finalSequence text r.terminal.finalAudioEndMs, .mandatory⟩ with hfinal
  set completed : OutboundMessage ServerMessage :=
    ⟨.completed r.terminal.completedSequence, .mandatory⟩ with hcompleted
  have hmessages : r.terminal.messages text = [final] ++ [completed] := by
    rw [TerminalEvents.messages, if_pos hseen]
    rfl
  rw [hmessages, ← List.append_assoc]
  have hanswer : StreamSession.answer eng ⟨r.seenAt .readFinal, input⟩ .ok =
      some (input, .completed text) := by
    change some (input, if input.stream.lifecycle.state = .completed then _ else _) = _
    rw [if_pos hstate]
  have hstep : (r.seenAt .readFinal).workerStep config (.completed text) =
      some ((r.seenAt .readFinal).goTo (.enqueueFinal text)) := by
    change some ((r.seenAt .readFinal).goTo
      (if r.terminal.finalSeen ∧ r.terminal.completedSeen then _ else _)) = _
    rw [if_pos hseen]
  have hread : next config eng ⟨r.seenAt .readFinal, input⟩ =
      some ⟨r.seenAt (.enqueueFinal text), input⟩ :=
    next_goTo _ hanswer hstep (by rintro ⟨⟩)
  have henqueue : next config eng ⟨r.seenAt (.enqueueFinal text), input⟩ =
      some ⟨{ r with enqueued := r.enqueued ++ [final] }.seenAt .enqueueCompleted, input⟩ :=
    next_seenAt .ok rfl rfl (InferenceWorker.seenAt_enqueue final rfl (by rintro ⟨⟩))
  have hcomplete : next config eng
      ⟨{ r with enqueued := r.enqueued ++ [final] }.seenAt .enqueueCompleted, input⟩ =
        some ⟨{ r with enqueued := r.enqueued ++ [final] ++ [completed] }.seenAt .completedClose, input⟩ :=
    next_seenAt .ok rfl rfl (InferenceWorker.seenAt_enqueue completed rfl (by rintro ⟨⟩))
  have hclose : next config eng
      ⟨{ r with enqueued := r.enqueued ++ [final] ++ [completed] }.seenAt .completedClose, input⟩ =
        some ⟨{ r with enqueued := r.enqueued ++ [final] ++ [completed] }.seenAt .done, input⟩ :=
    next_seenAt .ok rfl rfl (InferenceWorker.seenAt_close _ (by rintro ⟨⟩))
  exact .head hread (.head henqueue (.head hcomplete (.single hclose)))

/-- There are no messages behind a drain in which a terminal event was missed. -/
lemma messages_eq_nil_iff {terminal : TerminalEvents} {text : Bytes} :
    terminal.messages text = [] ↔ ¬ (terminal.finalSeen ∧ terminal.completedSeen) := by
  unfold TerminalEvents.messages
  split_ifs with hseen
  · exact ⟨nofun, fun h => absurd hseen h⟩
  · exact ⟨fun _ => hseen, fun _ => rfl⟩

/-- A stream that did not complete, or did not say so, is a failure. -/
lemma omitted_next (input : WorkerInput α φ ε γ κ)
    (homitted : ¬ (r.terminal.finalSeen ∧ r.terminal.completedSeen) ∨
      input.stream.lifecycle.state ≠ .completed) :
    next config eng ⟨r.seenAt .readFinal, input⟩ =
      some ⟨r.seenAt (engineError .internalError), input⟩ := by
  by_cases hstate : input.stream.lifecycle.state = .completed
  · have hanswer : StreamSession.answer eng ⟨r.seenAt .readFinal, input⟩ .ok =
        some (input, .completed (EngineStream.finalText input.stream)) := by
      change some (input, if input.stream.lifecycle.state = .completed then _ else _) = _
      rw [if_pos hstate]
    have hstep : (r.seenAt .readFinal).workerStep config (.completed (EngineStream.finalText input.stream)) =
        some ((r.seenAt .readFinal).goTo (engineError .internalError)) := by
      change some ((r.seenAt .readFinal).goTo
        (if r.terminal.finalSeen ∧ r.terminal.completedSeen then _ else _)) = _
      rw [if_neg (homitted.resolve_right (not_not.mpr hstate))]
    exact next_goTo _ hanswer hstep (by rintro ⟨⟩)
  · have hanswer : StreamSession.answer eng ⟨r.seenAt .readFinal, input⟩ .ok =
        some (input, statusAnswer .internalError) := by
      change some (input, if input.stream.lifecycle.state = .completed then _ else _) = _
      rw [if_neg hstate]
    exact next_goTo _ hanswer rfl (by rintro ⟨⟩)

/-- **The way of a calm worker is `inferenceWorker`.**  It ends with the same stream, and with what
`inferenceWorker` enqueued and the report of its failure. -/
lemma inferenceWorker_leads {rounds : ℕ} {worker : InferenceWorker} (hchunks : ∀ chunk ∈ chunks, chunk ≠ [])
    (h : inferenceWorker config (fun _ => true) rounds eng s chunks = some (t, worker)) :
    ∃ last : StreamSession α φ ε γ κ, Leads (next config eng) (start s chunks).view last ∧
      last.threads.worker = .done ∧ last.input.stream = t ∧ last.threads.enqueued = worker.sent := by
  obtain ⟨⟨⟨u, r⟩, goesOn⟩, hdrive, heq⟩ := Option.map_eq_some_iff.mp h
  have harrives := driveStream_arrives hchunks hdrive
  have hstart : (start s chunks).view =
      (⟨({} : InferenceWorker).seenAt .createStream, s, [], chunks⟩ : StreamSession α φ ε γ κ) := rfl
  rw [hstart]
  cases goesOn with
  | false =>
    obtain ⟨rfl, rfl⟩ := Prod.mk.inj heq
    obtain ⟨status, detail, input, hfailure, hinput, hleads⟩ := harrives.fails rfl
    obtain ⟨last, hreport, hdone, hlast, hsent⟩ := report_leads config eng r status input
    refine ⟨last, hleads.trans hreport, hdone, hlast ▸ hinput, ?_⟩
    rw [hsent, InferenceWorker.sent, hfailure]
  | true =>
    obtain ⟨hfailure, hleads⟩ := harrives.goesOn rfl
    have hnone : r.failure = none := hfailure
    dsimp only at heq
    rw [if_pos rfl] at heq
    by_cases homitted : r.terminal.messages (EngineStream.finalText u) = [] ∨ u.lifecycle.state ≠ .completed
    · rw [if_pos homitted] at heq
      obtain ⟨rfl, rfl⟩ := Prod.mk.inj heq
      rw [messages_eq_nil_iff] at homitted
      obtain ⟨last, hreport, hdone, hlast, hsent⟩ :=
        report_leads config eng r .internalError ⟨u, [], []⟩
      exact ⟨last, hleads.trans (.head (omitted_next ⟨u, [], []⟩ homitted) hreport), hdone,
        congrArg WorkerInput.stream hlast, hsent⟩
    · rw [if_neg homitted, if_pos (List.all_eq_true.mpr fun _ _ => rfl)] at heq
      obtain ⟨rfl, rfl⟩ := Prod.mk.inj heq
      rw [messages_eq_nil_iff, not_or, not_not, not_not] at homitted
      refine ⟨_, hleads.trans (completed_leads ⟨u, [], []⟩ homitted.2 homitted.1), rfl, rfl, ?_⟩
      rw [InferenceWorker.sent, hnone, List.append_nil]
      rfl

/-! ## Undisturbed sessions -/

/-- Nothing follows the end of the worker. -/
lemma next_done (hdone : m.threads.worker = .done) : next config eng m = none := by
  have hstep : ∀ answer, m.threads.workerStep config answer = none := by
    intro answer
    unfold workerStep
    rw [hdone]
  rw [next, step]
  simp only [hstep, Option.map_none, Option.map_eq_none_iff, Option.bind_eq_none_iff,
    implies_true]

/-- A step of the worker on its way ends no calm and takes no lag for hard. -/
lemma calm_of_step {s s' : StreamSession α φ ε γ κ}
    (h : s.step config eng (.worker .ok) = some (s', ())) :
    (s'.threads.Calm ↔ s.threads.Calm) ∧ s'.threads.inputFinishing = s.threads.inputFinishing ∧
      s.threads.enqueued <+: s'.threads.enqueued := by
  obtain ⟨answer, hanswer, hthreads⟩ := step_worker h
  have hlag : ¬ FindsHardLag s.threads answer := by
    rintro ⟨hlag, rfl⟩
    exact absurd (Prod.mk.inj (Option.some.inj ((answer_observeLag hlag .ok).symm.trans hanswer))).2 nofun
  obtain ⟨hcalm, -, hfinishing⟩ := workerStep_calm hlag hthreads
  obtain ⟨messages, closes, hmove⟩ := workerStep_move hlag hthreads
  exact ⟨hcalm, hfinishing, hmove.enqueued ▸ List.prefix_append _ _⟩

/-- On the way of the worker messages are only added. -/
lemma said_of_trackAt {n : ℕ} {last : StreamSession α φ ε γ κ} (hseen : m.view = m)
    (h : trackAt (next config eng) n m = some last) : m.threads.enqueued <+: last.threads.enqueued := by
  induction n generalizing m with
  | zero =>
    obtain rfl := Option.some.inj h
    exact List.prefix_rfl
  | succ n ih =>
    obtain ⟨u, hu, hrest⟩ := Option.bind_eq_some_iff.mp h
    obtain ⟨⟨s', ⟨⟩⟩, hstep, rfl⟩ := Option.map_eq_some_iff.mp hu
    have hmore : m.view.threads.enqueued <+: s'.view.threads.enqueued :=
      List.IsPrefix.filter _ (calm_of_step hstep).2.2
    rw [hseen] at hmore
    exact hmore.trans (ih s'.view_view hrest)

/-- A calm worker whose client has finished can go on, unless it is done. -/
lemma exists_step {s : StreamSession α φ ε γ κ} (hcalm : s.threads.Calm) (hio : s.threads.CalmIo)
    (hfinishing : s.threads.inputFinishing = true) (hnext : next config eng s.view = some m) :
    ∃ s', s.step config eng (.worker .ok) = some (s', ()) := by
  by_cases hwarn : s.threads.worker = .warn
  · have hstep : ∃ threads, s.threads.workerStep config .ok = some threads := by
      unfold workerStep
      rw [hwarn]
      exact ⟨_, rfl⟩
    obtain ⟨threads, hstep⟩ := hstep
    refine ⟨⟨threads, s.input⟩, ?_⟩
    rw [step, answer_warn hwarn, Option.bind_some]
    dsimp only
    rw [hstep]
    rfl
  · obtain ⟨⟨u, ⟨⟩⟩, hu, -⟩ := Option.map_eq_some_iff.mp hnext
    obtain ⟨answer, hanswer, hthreads⟩ := step_worker hu
    have hsame : s.view.answer eng .ok = s.answer eng .ok := answer_view hcalm hwarn .ok
    have hview : (s.threads.view.workerStep config answer).map SessionThreads.view =
        (s.threads.workerStep config answer).map SessionThreads.view :=
      workerStep_view hcalm (hio hcalm).2 hwarn fun _ _ => hfinishing
    rw [show s.threads.view.workerStep config answer = some u.threads from hthreads] at hview
    obtain ⟨threads, hstep, -⟩ := Option.map_eq_some_iff.mp hview.symm
    refine ⟨⟨threads, u.input⟩, ?_⟩
    rw [step, ← hsame, hanswer, Option.bind_some]
    dsimp only
    rw [hstep]
    rfl

/-- The messages of the transcript that a session enqueued. -/
def transcript (s : StreamSession α φ ε γ κ) : List ServerMessage :=
  s.threads.enqueued.filter fun message => !message.isAside

/-- What is known of the session `s` behind undisturbed steps `calls`, when the worker has `sent` to say. -/
structure Follows (config : RealtimeConfiguration) (eng : Engine α φ ε γ κ) (bound : ℕ)
    (sent : List ServerMessage) (calls : List SessionCall) (s : StreamSession α φ ε γ κ) : Prop where
  /-- The steps of the worker are bounded. -/
  bounded : calls.countP isWorker ≤ bound
  /-- It said a first part of it so far. -/
  said : s.transcript <+: sent
  /-- It said all of it when it is done. -/
  done : s.threads.worker = .done → s.transcript = sent
  /-- While the session is calm and its client has finished, the worker can go on until it is done. -/
  finishes : s.threads.Calm → s.threads.inputFinishing = true →
    ∃ k t os, runSteps (step config eng) s (List.replicate k (.worker .ok)) = some (t, os) ∧
      RunMeets (step config eng) Undisturbed s (List.replicate k (.worker .ok)) ∧
      t.threads.worker = .done

/-- **An undisturbed session follows `inferenceWorker`**, however its threads are interleaved. -/
lemma follows_of_undisturbed {rounds : ℕ} {worker : InferenceWorker}
    (hchunks : ∀ chunk ∈ chunks, chunk ≠ [])
    (h : inferenceWorker config (fun _ => true) rounds eng s chunks = some (t, worker)) :
    ∃ bound, ∀ calls u os, runSteps (step config eng) (start s chunks) calls = some (u, os) →
      RunMeets (step config eng) Undisturbed (start s chunks) calls →
      Follows config eng bound worker.sent calls u := by
  obtain ⟨last, ⟨n, htrack⟩, hdone, -, hsent⟩ := inferenceWorker_leads hchunks h
  refine ⟨2 * n, fun calls u os hrun hmeets => ?_⟩
  have hidle : (start s chunks).threads.CalmIo := fun _ => ⟨rfl, rfl⟩
  obtain ⟨hio, k, hk, hcount⟩ := runsAlong.run hidle hmeets hrun htrack (next_done hdone)
  have hpause : pause (start s chunks) = 0 := rfl
  constructor
  · omega
  · rw [← hsent]
    exact said_of_trackAt u.view_view hk
  · intro hend
    have hview : u.view.threads.worker = .done := by
      change (if u.threads.worker = .warn then WorkerPoint.pop else u.threads.worker) = .done
      rw [hend]
      rfl
    by_cases hlast : u.view = last
    · rw [← hsent, ← hlast]
      rfl
    · obtain ⟨v, -, -, hv, -⟩ := exists_next_of_trackAt hk hlast
      exact absurd ((next_done hview).symm.trans hv) nofun
  · intro hcalm hfinishing
    have hgo : ∀ (s m : StreamSession α φ ε γ κ), s.threads.CalmIo →
        s.threads.Calm ∧ s.threads.inputFinishing = true → next config eng s.view = some m →
        Undisturbed s (.worker .ok) ∧ ∃ s' o, s.step config eng (.worker .ok) = some (s', o) ∧
          s'.threads.Calm ∧ s'.threads.inputFinishing = true := by
      rintro s m hio ⟨hcalm, hfinishing⟩ hnext
      obtain ⟨s', hstep⟩ := exists_step hcalm hio hfinishing hnext
      obtain ⟨hcalm', hfinishing', -⟩ := calm_of_step hstep
      exact ⟨⟨hcalm, Or.inl rfl⟩, s', (), hstep, hcalm'.mpr hcalm, hfinishing'.trans hfinishing⟩
    obtain ⟨j, v, os', hrun', hmeets', hv⟩ := runsAlong.finishes (i := SessionCall.worker .ok) rfl hgo hio
      ⟨hcalm, hfinishing⟩ hk
    refine ⟨j, v, os', hrun', hmeets', ?_⟩
    rw [← hv] at hdone
    by_contra hnot
    have hview : v.view.threads.worker = if v.threads.worker = .warn then .pop else v.threads.worker := rfl
    rw [hview] at hdone
    split_ifs at hdone
    exact hnot hdone

end StreamSession

end Voxtral
