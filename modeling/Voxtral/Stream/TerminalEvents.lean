import Voxtral.Stream.PacedModel

/-!
# The last events of a stream

A finish appends FINAL_TEXT and COMPLETED, or one ERROR event, behind what the terminal pump delivers:
up to two events for every audio position that was still open.  The queue keeps 64 slots free for all of
them together.
-/

namespace Voxtral

variable {α φ ε γ κ : Type*}

/-- An event of a stream that has not ended. -/
def StreamEvent.IsMidStream (e : StreamEvent) : Prop := e.type = .token ∨ e.type = .partialText

/-- A stream that has not ended queues TOKEN events and snapshots only. -/
def QueueOpen (s : Stream α φ ε γ κ) : Prop :=
  s.Live → ∀ e ∈ s.events.queue, e.IsMidStream

section Steps

variable {eng : Engine α φ ε γ κ} {late : Prop} {s s' : Stream α φ ε γ κ}

/-- A pump queues TOKEN events and snapshots only. -/
lemma PumpStep.midStream (hstep : PumpStep eng s s') (h : ∀ e ∈ s.events.queue, e.IsMidStream) :
    ∀ e ∈ s'.events.queue, e.IsMidStream := by
  cases hstep with
  | deliver p =>
    intro e he
    by_cases heos : p.token = tokenEos
    · rw [(deliverPending_eos_events eng s heos).1] at he
      rcases List.mem_append.mp he with he | he
      · exact h e he
      · rw [List.mem_singleton.mp he]
        exact Or.inl rfl
    · rcases (deliverPending_text_events eng s heos).1.mem he with he | rfl
      · rcases List.mem_append.mp he with he | he
        · exact h e he
        · rw [List.mem_singleton.mp he]
          exact Or.inl rfl
      · exact Or.inr rfl
  | _ => exact h

/-- A pump enqueues TOKEN events and snapshots only. -/
lemma PumpSteps.midStream (hsteps : PumpSteps eng s s') (h : ∀ e ∈ s.events.queue, e.IsMidStream) :
    ∀ e ∈ s'.events.queue, e.IsMidStream := by
  induction hsteps with
  | refl => exact h
  | tail _ hstep ih => exact hstep.midStream ih

/-- Every transition of a live stream keeps terminal events out of the queue. -/
lemma Transition.queueOpen (hstep : Transition eng late s s') (h : QueueOpen s) : QueueOpen s' := by
  intro hlive
  cases hstep with
  | pump hs _ _ _ hstep => exact hstep.midStream (h hs)
  | absorb hs hchange _ =>
    rw [hchange.events]
    exact h hs
  | account hchange =>
    rw [hchange.queue]
    refine h ?_
    rcases hchange.state with hsame | ⟨hs, -⟩
    · unfold Stream.Live at hlive ⊢
      rwa [← hsame]
    · exact hs
  | complete => exact absurd hlive (by simp [Stream.Live, completeStream, clearError])
  | fail => exact absurd hlive (by simp [Stream.Live, failStream])
  | cancel hstate =>
    unfold cancelInternal at hlive
    rcases hstate with hstate | hstate <;> simp [hstate, Stream.Live, clearError] at hlive

/-- So does a poll. -/
lemma QueueOpen.poll (h : QueueOpen s) : QueueOpen (streamPollEvent s).1 := by
  unfold streamPollEvent
  cases hqueue : s.events.queue with
  | nil => exact h
  | cons e rest => exact fun hlive x hx => h hlive x (by rw [hqueue]; exact List.mem_cons_of_mem e hx)

/-! ## Appending the last events -/

/-- With room for two, FINAL_TEXT and COMPLETED are appended. -/
lemma completeStream_queue (hroom : s.events.queue.length + 2 ≤ s.events.bound) :
    (completeStream s).events.queue = s.events.queue ++ [finalTextEvent s, completedEvent s] := by
  have hfirst : (pushEvent s (finalTextEvent s)).1 = enqueueEvent s (finalTextEvent s) := by
    rw [pushEvent_eq, if_pos (by omega)]
  change (pushEvent (pushEvent s (finalTextEvent s)).1 (completedEvent s)).1.events.queue = _
  have hlen : (enqueueEvent s (finalTextEvent s)).events.queue.length =
      s.events.queue.length + 1 := by
    simp [enqueueEvent, noteEnqueued]
  have hbound : (enqueueEvent s (finalTextEvent s)).events.bound = s.events.bound := rfl
  rw [hfirst, pushEvent_eq, if_pos (by omega)]
  simp [enqueueEvent, noteEnqueued]

/-- With room for one, the ERROR event is appended. -/
lemma failStream_queue (status : Status) (hroom : s.events.queue.length < s.events.bound) :
    (failStream s status).events.queue = s.events.queue ++ [errorEvent s status] := by
  change (pushEvent s (errorEvent s status)).1.events.queue = _
  rw [pushEvent_eq, if_pos hroom]
  rfl

/-- A stream that ended with its last events in the queue: FINAL_TEXT and COMPLETED, once each, or one
ERROR event. -/
def EndedInQueue (s : Stream α φ ε γ κ) : Prop :=
  (s.lifecycle.state = .completed ∧ ∃ before final done,
    s.events.queue = before ++ [final, done] ∧ final.type = .finalText ∧ done.type = .completed ∧
      ∀ e ∈ before, e.type ≠ .finalText ∧ e.type ≠ .completed) ∨
  (s.lifecycle.state = .failed ∧ ∃ before error,
    s.events.queue = before ++ [error] ∧ error.type = .error ∧ ∀ e ∈ before, e.type ≠ .error)

/-- A completed stream had room for its last two events. -/
lemma completeStream_ended (hmid : ∀ e ∈ s.events.queue, e.IsMidStream)
    (hroom : s.events.queue.length + 2 ≤ s.events.bound) :
    EndedInQueue (completeStream s) ∧ (completeStream s).events.queue.length ≤ s.events.bound := by
  rw [EndedInQueue, completeStream_queue hroom]
  refine ⟨Or.inl ⟨rfl, _, _, _, rfl, rfl, rfl, fun e he => ?_⟩, by simpa using hroom⟩
  rcases hmid e he with h | h <;> rw [h] <;> decide

/-- A failed stream had room for its last event. -/
lemma failStream_ended (status : Status) (hmid : ∀ e ∈ s.events.queue, e.IsMidStream)
    (hroom : s.events.queue.length < s.events.bound) :
    EndedInQueue (failStream s status) ∧
      (failStream s status).events.queue.length ≤ s.events.bound := by
  rw [EndedInQueue, failStream_queue status hroom]
  refine ⟨Or.inr ⟨rfl, _, _, rfl, rfl, fun e he => ?_⟩, by rw [List.length_append]; exact hroom⟩
  rcases hmid e he with h | h <;> rw [h] <;> decide

/-! ## The terminal flush -/

/-- The queue has room for what a terminal flush delivers and for its last events: two events for every
position that is still open, and two more.  Nothing is delivered without audio or after the end. -/
def RoomForFlush (s : Stream α φ ε γ κ) : Prop :=
  s.lifecycle.totalSamplesReceived = 0 ∨ s.decoder.decoderEos = true ∨
    s.events.queue.length +
        2 * (finishGroups s.lifecycle.totalSamplesReceived - firstOpen s) + 2 ≤
      s.events.maxEvents + terminalEventHeadroom

variable [Zero α]

/-- The terminal pump leaves room for two events, and does not stall. -/
lemma tailPump_room {t : Stream α φ ε γ κ} (hs : StreamReady eng late s)
    (hbp : s.events.decoderBackpressured = false) (hroom : RoomForFlush s)
    (hzero : s.lifecycle.totalSamplesReceived ≠ 0) (htail : TailReady eng late s t) :
    (pumpIncremental eng (tailStart t)).1.events.queue.length + 2 ≤
        s.events.maxEvents + terminalEventHeadroom ∧
      (pumpIncremental eng (tailStart t)).2 ≠ .limitExceeded := by
  obtain ⟨-, -, -, hout⟩ := htail.pump
  have hdecoder : t.decoder = s.decoder := htail.change.decoder
  have hevents : t.events = (flushStart s).events := htail.change.events
  have hnone : (tailStart t).decoder.pending = none := by
    change t.decoder.pending = none
    rw [hdecoder]
    exact hs.stash hbp
  have hbound : (tailStart t).events.bound = s.events.maxEvents + terminalEventHeadroom := by
    change t.events.bound = _
    rw [hevents]
    rfl
  have hqueue : (tailStart t).events.queue = s.events.queue := by
    change t.events.queue = _
    rw [hevents]
    rfl
  have hq := hs.queue
  cases heos : s.decoder.decoderEos with
  | true =>
    obtain ⟨hne, hsame⟩ := hout.ended hnone (by change t.decoder.decoderEos = true; rwa [hdecoder])
    refine ⟨?_, hne⟩
    rw [hsame, hqueue]
    simp only [terminalEventHeadroom]
    omega
  | false =>
    have hfit := (hroom.resolve_left hzero).resolve_left (by simp [heos])
    have hopen : firstOpen (tailStart t) = firstOpen s := by
      change firstOpen t = firstOpen s
      unfold firstOpen
      rw [hdecoder]
    have hcommit : committable (tailStart t) ≤ finishGroups s.lifecycle.totalSamplesReceived := by
      refine (Nat.min_le_left _ _).trans ?_
      change t.frontend.enc.emitted / downsampleFactor ≤ _
      rw [htail.flushed.emitted, htail.samples, hs.total]
      simp only [downsampleFactor]
      omega
    obtain ⟨hne, hle⟩ := hout.room hnone (by change t.decoder.decoderEos = false; rwa [hdecoder]) (by
      rw [hopen, hbound, hqueue]
      omega)
    rw [hopen, hqueue] at hle
    exact ⟨by omega, hne⟩

/-- A finish behind its backlog drain. -/
lemma finishLive_ended_in_queue {status : Status} (hr : OpReady eng late s) (hlive : s.Live)
    (hbp : s.events.decoderBackpressured = false) (hmid : ∀ e ∈ s.events.queue, e.IsMidStream)
    (hroom : RoomForFlush s) (h : finishLive eng s = some (s', status)) :
    EndedInQueue s' ∧ s'.events.queue.length ≤ s.events.maxEvents + terminalEventHeadroom ∧
      ((∀ n, eng.submitFails n = false) → s'.lifecycle.state = .completed) := by
  have hs := hr.live hlive
  have hq := hs.queue
  -- what the frontend leaves alone
  have hfront : ∀ {t : Stream α φ ε γ κ}, FrontendChange (flushStart s) t →
      t.events.queue = s.events.queue ∧
        t.events.bound = s.events.maxEvents + terminalEventHeadroom := fun hchange => by
    rw [hchange.events]
    exact ⟨rfl, rfl⟩
  cases finishLive_path h with
  | empty hzero =>
    obtain ⟨hended, hlen⟩ := completeStream_ended (s := emptyEnd s) hmid (by
      change s.events.queue.length + 2 ≤ s.events.maxEvents + terminalEventHeadroom
      simp only [terminalEventHeadroom]
      omega)
    exact ⟨hended, hlen, fun _ => rfl⟩
  | @frontendFailed hzero t what hfrontend =>
    obtain ⟨hqueue, hbound⟩ := hfront (finishFrontend_frontendChange hfrontend).1
    obtain ⟨hended, hlen⟩ := failStream_ended
      (s := setError t .backendError ("inference threw: " ++ what)) .backendError
      (by change ∀ e ∈ t.events.queue, _; rwa [hqueue]) (by
        change t.events.queue.length < t.events.bound
        rw [hqueue, hbound]
        simp only [terminalEventHeadroom]
        omega)
    have hbad := (finishFrontend_continues hs hlive hzero hfrontend).2.2.runs
    exact ⟨hended, by rw [← hbound]; exact hlen, fun hruns => absurd (hbad hruns) (by simp)⟩
  | @pumpFailed hzero t hfrontend hfail =>
    have htail := finishFrontend_tailReady hs hlive hbp hzero hfrontend
    obtain ⟨-, -, hwu, hout⟩ := htail.pump
    obtain ⟨hfit, hne⟩ := tailPump_room hs hbp hroom hzero htail
    obtain ⟨hqueue, hbound⟩ := hfront htail.change
    have hsteps : PumpSteps eng (tailStart t) (pumpIncremental eng (tailStart t)).1 :=
      pumpIncremental_steps hwu
    have hbound' : (pumpIncremental eng (tailStart t)).1.events.bound = t.events.bound :=
      hsteps.frame.bound
    have hmid' := PumpSteps.midStream hsteps (by
      change ∀ e ∈ t.events.queue, _
      rwa [hqueue])
    set p := (pumpIncremental eng (tailStart t)).1
    obtain ⟨hended, hlen⟩ := failStream_ended
      (s := setError p .backendError ("inference threw: " ++ p.lifecycle.lastError)) .backendError
      hmid' (by
        change p.events.queue.length < p.events.bound
        rw [hbound', hbound]
        omega)
    refine ⟨hended, ?_, fun hruns => ?_⟩
    · rw [← hbound, ← hbound']
      exact hlen
    · rcases hout.result with hok | hlimit | hbad
      · exact absurd hok hfail
      · exact absurd hlimit hne
      · exact absurd hbad (hout.runs hruns)
  | @completed hzero t hfrontend hok =>
    have htail := finishFrontend_tailReady hs hlive hbp hzero hfrontend
    obtain ⟨-, -, hwu, -⟩ := htail.pump
    obtain ⟨hfit, -⟩ := tailPump_room hs hbp hroom hzero htail
    obtain ⟨hqueue, hbound⟩ := hfront htail.change
    have hsteps : PumpSteps eng (tailStart t) (pumpIncremental eng (tailStart t)).1 :=
      pumpIncremental_steps hwu
    have hbound' : (pumpIncremental eng (tailStart t)).1.events.bound = t.events.bound :=
      hsteps.frame.bound
    have hmid' := PumpSteps.midStream hsteps (by
      change ∀ e ∈ t.events.queue, _
      rwa [hqueue])
    set p := (pumpIncremental eng (tailStart t)).1
    obtain ⟨hended, hlen⟩ := completeStream_ended (s := tailEnd p) hmid' (by
      change p.events.queue.length + 2 ≤ p.events.bound
      rw [hbound', hbound]
      exact hfit)
    refine ⟨hended, ?_, fun _ => rfl⟩
    rw [← hbound, ← hbound']
    exact hlen

/-- A finish that gets past the backlog drain. -/
lemma finishInternal_ended_in_queue {status : Status} (hr : OpReady eng late s)
    (hopen : s.lifecycle.state = .created ∨ s.lifecycle.state = .running)
    (hmid : ∀ e ∈ s.events.queue, e.IsMidStream) (hroom : RoomForFlush (resumed eng s))
    (h : finishInternal eng s = some (s', status)) (hpast : status ≠ .limitExceeded) :
    EndedInQueue s' ∧ s'.events.queue.length ≤ s.events.maxEvents + terminalEventHeadroom ∧
      ((∀ n, eng.submitFails n = false) → s'.lifecycle.state = .completed) := by
  have hlive := live_of_open hopen
  have hs := hr.live hlive
  have hopened : finishInternal eng s =
      if s.events.decoderBackpressured = true then
        if (pumpIncremental eng s).2 = .limitExceeded then some (pumpIncremental eng s)
        else if (pumpIncremental eng s).2 ≠ .ok then
          some (failStream { (pumpIncremental eng s).1 with events :=
            { (pumpIncremental eng s).1.events with finalizingFlush := true } }
              (pumpIncremental eng s).2, (pumpIncremental eng s).2)
        else finishLive eng (pumpIncremental eng s).1
      else finishLive eng s := by
    unfold finishInternal
    rcases hopen with hstate | hstate <;> rw [hstate]
  rw [hopened] at h
  by_cases hbp : s.events.decoderBackpressured = true
  · rw [if_pos hbp] at h
    rw [resumed, if_pos hbp] at hroom
    obtain ⟨hout, -, hsynced⟩ := hs.toWorking.pump
    have hsteps : PumpSteps eng s (pumpIncremental eng s).1 := pumpIncremental_steps hr.within
    have hmid' := PumpSteps.midStream hsteps hmid
    have hq : (pumpIncremental eng s).1.events.queue.length ≤ s.events.maxEvents := by
      have hle := PumpSteps.queue_le hsteps (by
        unfold Events.bound
        rw [hs.flush]
        exact hs.queue)
      unfold Events.bound at hle
      rw [hsteps.frame.finalizingFlush, hsteps.frame.maxEvents, hs.flush] at hle
      exact hle
    by_cases hlimit : (pumpIncremental eng s).2 = .limitExceeded
    · rw [if_pos hlimit] at h
      exact absurd ((congrArg Prod.snd (Option.some.inj h)).symm.trans hlimit) hpast
    · rw [if_neg hlimit] at h
      by_cases hok : (pumpIncremental eng s).2 = .ok
      · rw [if_neg (by simp [hok])] at h
        have hready := hr.pump hlive hbp (by rw [hok]; decide)
        have hended := finishLive_ended_in_queue hready (hsteps.frame.live.mpr hlive)
          (hsynced hok).1 hmid' hroom h
        rwa [hsteps.frame.maxEvents] at hended
      · rw [if_pos hok] at h
        have hs' := congrArg Prod.fst (Option.some.inj h)
        simp only at hs'
        have hfits : (pumpIncremental eng s).1.events.queue.length <
            (pumpIncremental eng s).1.events.maxEvents + terminalEventHeadroom := by
          rw [hsteps.frame.maxEvents]
          simp only [terminalEventHeadroom]
          omega
        obtain ⟨hended, hlen⟩ := failStream_ended (s := { (pumpIncremental eng s).1 with events :=
          { (pumpIncremental eng s).1.events with finalizingFlush := true } })
          (pumpIncremental eng s).2 hmid' hfits
        rw [← hs']
        refine ⟨hended, hlen.trans ?_, fun hruns => ?_⟩
        · change (pumpIncremental eng s).1.events.maxEvents + terminalEventHeadroom ≤ _
          rw [hsteps.frame.maxEvents]
        · rcases hout.result with hok' | hlimit' | hbad
          · exact absurd hok' hok
          · exact absurd hlimit' hlimit
          · exact absurd hbad (hout.runs hruns)
  · rw [if_neg hbp] at h
    rw [resumed, if_neg hbp] at hroom
    exact finishLive_ended_in_queue hr hlive (by simpa using hbp) hmid hroom h

end Steps

end Voxtral
