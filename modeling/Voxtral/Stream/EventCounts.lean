import Voxtral.Stream.EncoderFrames
import Voxtral.Stream.CallCases

/-!
# The counters of a stream

The event queue counts the events it took, by type, and the snapshots it replaced; the decoder counts its
steps, the encoder its frames.  `Counted` says what each of these numbers is a count of.  Every part of a
call keeps it, so it holds after every call, however the call ended.
-/

namespace Voxtral

variable {α φ ε γ κ : Type*}

/-! ## The event record -/

/-- The counters of an event record count the events that were polled or are queued. -/
structure Tallied (ev : Events) : Prop where
  emitted : ev.eventsEmitted = (ev.polled ++ ev.queue).length
  tokens : ev.tokenEvents = (ev.polled ++ ev.queue).countP StreamEvent.isToken
  partials : ev.partialEvents = (ev.polled ++ ev.queue).countP StreamEvent.isPartial
  watermark : ev.queue.length ≤ ev.eventQueueHighWatermark
  bounded : ev.eventQueueHighWatermark ≤ ev.maxEvents + terminalEventHeadroom
  numbered : ev.publicPollSequence = ev.polled.length

section Tally

variable {ev : Events}

/-- The bound is the capacity, with the terminal headroom at most. -/
lemma Events.bound_le (ev : Events) : ev.bound ≤ ev.maxEvents + terminalEventHeadroom := by
  unfold Events.bound
  split <;> omega

/-- An event for which there is room. -/
lemma Tallied.enqueue (h : Tallied ev) (e : StreamEvent) (hroom : ev.queue.length < ev.bound) :
    Tallied (noteEnqueued { ev with queue := ev.queue ++ [e] } e.type) := by
  have hbound := ev.bound_le
  have hemitted := h.emitted
  have htokens := h.tokens
  have hpartials := h.partials
  refine ⟨?_, ?_, ?_, ?_, ?_, h.numbered⟩
  · simp only [noteEnqueued, List.length_append, List.length_singleton] at hemitted ⊢
    omega
  · simp only [noteEnqueued, List.countP_append, List.countP_singleton, StreamEvent.isToken,
      decide_eq_true_eq] at htokens ⊢
    split <;> omega
  · simp only [noteEnqueued, List.countP_append, List.countP_singleton, StreamEvent.isPartial,
      decide_eq_true_eq] at hpartials ⊢
    split <;> omega
  · exact le_max_right _ _
  · change max ev.eventQueueHighWatermark (ev.queue ++ [e]).length ≤ ev.maxEvents + terminalEventHeadroom
    refine max_le h.bounded ?_
    rw [List.length_append, List.length_singleton]
    omega

/-- A queue with other events of the same types. -/
lemma Tallied.exchange (h : Tallied ev) {queue : List StreamEvent} (coalesced : ℕ)
    (hlength : queue.length = ev.queue.length)
    (htokens : queue.countP StreamEvent.isToken = ev.queue.countP StreamEvent.isToken)
    (hpartials : queue.countP StreamEvent.isPartial = ev.queue.countP StreamEvent.isPartial) :
    Tallied { ev with queue := queue, partialEventsCoalesced := coalesced } where
  emitted := by
    rw [List.length_append, hlength, ← List.length_append]
    exact h.emitted
  tokens := by
    rw [List.countP_append, htokens, ← List.countP_append]
    exact h.tokens
  partials := by
    rw [List.countP_append, hpartials, ← List.countP_append]
    exact h.partials
  watermark := hlength.trans_le h.watermark
  bounded := h.bounded
  numbered := h.numbered

/-- A poll moves an event from the queue to the polled ones. -/
lemma Tallied.poll {e : StreamEvent} {rest : List StreamEvent} (h : Tallied ev)
    (hqueue : ev.queue = e :: rest) :
    Tallied { ev with
      queue := rest
      polled := ev.polled ++ [e]
      publicPollSequence := ev.publicPollSequence + 1 } := by
  have hhistory : ev.polled ++ [e] ++ rest = ev.polled ++ ev.queue := by simp [hqueue]
  refine ⟨?_, ?_, ?_, ?_, h.bounded, ?_⟩
  · rw [hhistory]
    exact h.emitted
  · rw [hhistory]
    exact h.tokens
  · rw [hhistory]
    exact h.partials
  · have hwatermark := h.watermark
    rw [hqueue, List.length_cons] at hwatermark
    exact Nat.le_of_succ_le hwatermark
  · rw [h.numbered, List.length_append, List.length_singleton]

end Tally

/-- What a snapshot does to the counters: it is counted as an event of its own, or as coalesced. -/
lemma pushEventCoalesced_tallied {s : Stream α φ ε γ κ} (h : Tallied s.events) {e : StreamEvent}
    (he : e.isPartial = true) :
    Tallied (pushEventCoalesced s e).1.events ∧
      (pushEventCoalesced s e).1.events.tokenEvents = s.events.tokenEvents ∧
      (pushEventCoalesced s e).1.events.partialEvents +
          (pushEventCoalesced s e).1.events.partialEventsCoalesced =
        s.events.partialEvents + s.events.partialEventsCoalesced + 1 := by
  have htoken : ∀ {x : StreamEvent}, x.isPartial = true → x.isToken = false := by
    intro x hx
    simp only [StreamEvent.isPartial, decide_eq_true_eq] at hx
    simp [StreamEvent.isToken, hx]
  unfold pushEventCoalesced
  split_ifs with hback hroom
  · obtain ⟨pre, x, post, hsplit, hx, -, herase⟩ := eraseP_partial_spec hback.2.2
    refine ⟨h.exchange _ ?_ ?_ ?_, rfl, rfl⟩
    · rw [herase, hsplit]
      simp
    · rw [herase, hsplit]
      simp [htoken he, htoken hx]
    · rw [herase, hsplit]
      simp [he, hx]
  · refine ⟨h.enqueue e hroom, ?_, ?_⟩
    · have htype : e.type ≠ .token := by
        have hnot := htoken he
        simpa [StreamEvent.isToken] using hnot
      simp [enqueueEvent, noteEnqueued, htype]
    · have htype : e.type = .partialText := by simpa [StreamEvent.isPartial] using he
      simp only [enqueueEvent, noteEnqueued, htype, if_true]
      omega
  · rcases replaceLastPartial_spec s.events.queue e with ⟨hnone, -⟩ | ⟨pre, x, post, hsplit, hx, -, hsome⟩
    · rw [hnone]
      exact ⟨h.exchange _ rfl rfl rfl, rfl, rfl⟩
    · rw [hsome]
      refine ⟨h.exchange _ ?_ ?_ ?_, rfl, rfl⟩
      · simp [hsplit]
      · simp [hsplit, htoken he, htoken hx]
      · simp [hsplit, he, hx]

/-! ## The stream -/

/-- The steps of a decoder are the positions it went through behind the prompt, within the committed
groups. -/
structure DecoderCounted (d : Decoder) : Prop where
  fresh : d.decoderPrefillDone = false → d.decoderSteps = 0
  cursor : d.decoderPrefillDone = true → d.decoderEos = false →
    d.decoderPosition + d.pending.toList.length = promptLength - 1 + d.decoderSteps
  within : d.decoderPrefillDone = true → promptLength - 1 + d.decoderSteps ≤ d.adapterGroupsCommitted

/-- The counters of a stream: what was counted, and that no stage is ahead of the one before it. -/
structure Counted (s : Stream α φ ε γ κ) : Prop where
  within : DecoderWithin s
  tallied : Tallied s.events
  sequence : s.decoder.tokenSequence = s.events.tokenEvents
  revisions : s.events.partialEvents + s.events.partialEventsCoalesced = s.decoder.partialRevision
  /-- Every step has delivered its token, but for the one whose token is stashed. -/
  steps : s.decoder.decoderSteps = s.events.tokenEvents + s.decoder.pending.toList.length
  encoded : s.frontend.enc.emitted = encodedFrames s.trace
  adapted : s.decoder.adapterGroupsCommitted ≤ s.frontend.enc.emitted / downsampleFactor
  decoded : DecoderCounted s.decoder

/-- Nothing that is counted was touched: flags, the error state and the transcript changed, and the frontend
part of a call ran. -/
structure Uncounted (s s' : Stream α φ ε γ κ) : Prop where
  events : s'.events = { s.events with
    eventsOverflowed := s'.events.eventsOverflowed
    eventQueueOverflowAttempts := s'.events.eventQueueOverflowAttempts
    decoderBackpressured := s'.events.decoderBackpressured
    finalizingFlush := s'.events.finalizingFlush
    aggressivePartialCoalescing := s'.events.aggressivePartialCoalescing }
  decoder : s'.decoder = { s.decoder with
    tokensBeforeFinish := s'.decoder.tokensBeforeFinish
    tokens := s'.decoder.tokens
    transcript := s'.decoder.transcript }
  trace : s.trace <+: s'.trace
  advanced : EncoderAdvanced s s'

section Parts

variable {eng : Engine α φ ε γ κ} {s s' : Stream α φ ε γ κ}

/-- Changes of the records alone. -/
lemma Uncounted.of_records
    (hevents : s'.events = { s.events with
      eventsOverflowed := s'.events.eventsOverflowed
      eventQueueOverflowAttempts := s'.events.eventQueueOverflowAttempts
      decoderBackpressured := s'.events.decoderBackpressured
      finalizingFlush := s'.events.finalizingFlush
      aggressivePartialCoalescing := s'.events.aggressivePartialCoalescing })
    (hdecoder : s'.decoder = { s.decoder with
      tokensBeforeFinish := s'.decoder.tokensBeforeFinish
      tokens := s'.decoder.tokens
      transcript := s'.decoder.transcript })
    (htrace : s'.trace = s.trace) (hemitted : s'.frontend.enc.emitted = s.frontend.enc.emitted) :
    Uncounted s s' :=
  ⟨hevents, hdecoder, htrace ▸ List.prefix_refl _, .of_same hemitted (htrace ▸ rfl)⟩

/-- The frontend part of a call. -/
lemma Uncounted.frontend (hchange : FrontendChange s s') (hadvanced : EncoderAdvanced s s') :
    Uncounted s s' := by
  obtain ⟨runs, htrace, -⟩ := hchange.trace
  refine ⟨?_, ?_, htrace ▸ List.prefix_append _ _, hadvanced⟩
  · rw [hchange.events]
  · rw [hchange.decoder]

/-- A longer history holds at least as many frames. -/
lemma encodedFrames_mono {trace trace' : List (TraceEntry ε γ)} (h : trace <+: trace') :
    encodedFrames trace ≤ encodedFrames trace' := by
  obtain ⟨more, rfl⟩ := h
  rw [encodedFrames_append]
  exact Nat.le_add_right _ _

/-- A change that leaves the counters alone keeps what they say. -/
lemma Counted.same (h : Counted s) (hsame : Uncounted s s') : Counted s' := by
  have hgrown := encodedFrames_mono hsame.trace
  have hadvanced := hsame.advanced
  have hencoded := h.encoded
  unfold EncoderAdvanced at hadvanced
  have hemitted : s.frontend.enc.emitted ≤ s'.frontend.enc.emitted := by omega
  refine ⟨?_, ?_, ?_, ?_, ?_, by omega, ?_, ?_⟩
  · refine h.within.of_decoder hsame.decoder ?_ ?_ ?_ ?_ ?_
    all_goals rfl
  · rw [hsame.events]
    exact ⟨h.tallied.emitted, h.tallied.tokens, h.tallied.partials, h.tallied.watermark,
      h.tallied.bounded, h.tallied.numbered⟩
  · rw [hsame.events, hsame.decoder]
    exact h.sequence
  · rw [hsame.events, hsame.decoder]
    exact h.revisions
  · rw [hsame.events, hsame.decoder]
    exact h.steps
  · rw [hsame.decoder]
    exact h.adapted.trans (Nat.div_le_div_right hemitted)
  · rw [hsame.decoder]
    exact ⟨h.decoded.fresh, h.decoded.cursor, h.decoded.within⟩

/-- An event that is neither a TOKEN event nor a snapshot. -/
lemma Counted.push (h : Counted s) {e : StreamEvent} (htoken : e.isToken = false)
    (hsnapshot : e.isPartial = false) : Counted (pushEvent s e).1 := by
  rw [pushEvent_eq]
  split_ifs with hroom
  · have htype : e.type ≠ .token := by simpa [StreamEvent.isToken] using htoken
    have htype' : e.type ≠ .partialText := by simpa [StreamEvent.isPartial] using hsnapshot
    refine ⟨h.within.of_decoder rfl rfl rfl rfl rfl rfl, h.tallied.enqueue e hroom, ?_, ?_, ?_, ?_,
      h.adapted, h.decoded⟩
    · simpa [enqueueEvent, noteEnqueued, htype] using h.sequence
    · simpa [enqueueEvent, noteEnqueued, htype'] using h.revisions
    · simpa [enqueueEvent, noteEnqueued, htype] using h.steps
    · change s.frontend.enc.emitted = encodedFrames (s.trace ++ [.enqueued e (acceptedSamples s)])
      rw [encodedFrames_append, h.encoded]
      rfl
  · exact h.same (.of_records rfl rfl rfl rfl)

/-- The cursors of the decoder record after a delivered token. -/
lemma decoderAfter_counts (eng : Engine α φ ε γ κ) (d : Decoder) (p : PendingToken) :
    (decoderAfter eng d p).tokenSequence = d.tokenSequence + 1 ∧
      (decoderAfter eng d p).decoderSteps = d.decoderSteps ∧ (decoderAfter eng d p).pending = none ∧
      (decoderAfter eng d p).adapterGroupsCommitted = d.adapterGroupsCommitted ∧
      (decoderAfter eng d p).partialRevision =
        d.partialRevision + (if p.token = tokenEos then 0 else 1) := by
  unfold decoderAfter appendTokenToPartial
  split_ifs <;> exact ⟨rfl, rfl, rfl, rfl, rfl⟩

/-- A delivered token moves the cursor behind its position, or ends the decoding. -/
lemma DecoderCounted.deliver {d : Decoder} (h : DecoderCounted d) {p : PendingToken}
    (hprefill : d.decoderPrefillDone = true) (hlive : d.decoderEos = false)
    (hpending : d.pending = some p) : DecoderCounted (decoderAfter eng d p) := by
  have hcursor := h.cursor hprefill hlive
  have hwithin := h.within hprefill
  rw [hpending] at hcursor
  unfold decoderAfter appendTokenToPartial
  split_ifs
  · refine ⟨fun hfresh => ?_, nofun, fun _ => hwithin⟩
    rw [hprefill] at hfresh
    cases hfresh
  · refine ⟨fun hfresh => ?_, fun _ _ => hcursor, fun _ => hwithin⟩
    rw [hprefill] at hfresh
    cases hfresh

variable (eng) in
/-- A delivered token: its event, and the snapshot behind it. -/
lemma deliverPending_tallied (h : Tallied s.events) (p : PendingToken)
    (hroom : s.events.queue.length < s.events.bound) :
    Tallied (deliverPending eng s p).events ∧
      (deliverPending eng s p).events.tokenEvents = s.events.tokenEvents + 1 ∧
      (deliverPending eng s p).events.partialEvents +
          (deliverPending eng s p).events.partialEventsCoalesced =
        s.events.partialEvents + s.events.partialEventsCoalesced +
          (if p.token = tokenEos then 0 else 1) := by
  have htoken : Tallied (acceptToken eng s p).events := h.enqueue _ hroom
  by_cases heos : p.token = tokenEos
  · rw [deliverPending_eos heos, if_pos heos]
    exact ⟨htoken, rfl, rfl⟩
  · have hbefore : Tallied (beforeSnapshot eng s p).events := htoken
    rw [deliverPending_text heos, if_neg heos]
    exact pushEventCoalesced_tallied hbefore rfl

/-- An atomic change of a pump counts what it does. -/
lemma Counted.pumpStep (h : Counted s) (hstep : PumpStep eng s s') : Counted s' := by
  have hw := hstep.within h.within
  have hencoded : s'.frontend.enc.emitted = encodedFrames s'.trace := by
    have hbefore := h.encoded
    have hadvanced := hstep.advanced
    unfold EncoderAdvanced at hadvanced
    omega
  have hemitted : s'.frontend.enc.emitted = s.frontend.enc.emitted := by rw [hstep.frame.frontend]
  cases hstep with
  | bookkeep => exact h.same (.of_records rfl rfl rfl rfl)
  | commitGroup => exact ⟨hw, h.tallied, h.sequence, h.revisions, h.steps, hencoded, h.adapted, h.decoded⟩
  | advanceAdapter committed hgrow hcap havail =>
    exact ⟨hw, h.tallied, h.sequence, h.revisions, h.steps, hencoded, havail, h.decoded.fresh,
      h.decoded.cursor, fun hprefill => (h.decoded.within hprefill).trans hgrow.le⟩
  | prefill hfresh hready =>
    have hsteps := h.decoded.fresh hfresh
    have hnone := (h.within.fresh hfresh).1
    refine ⟨hw, h.tallied, h.sequence, h.revisions, h.steps, hencoded, h.adapted, nofun, fun _ _ => ?_,
      fun _ => ?_⟩
    · change promptLength - 1 + s.decoder.pending.toList.length = promptLength - 1 + s.decoder.decoderSteps
      rw [hsteps, hnone]
      rfl
    · change promptLength - 1 + s.decoder.decoderSteps ≤ s.decoder.adapterGroupsCommitted
      rw [hsteps]
      exact hready
  | decoderStep hprefill hpending hmay =>
    have hcursor := h.decoded.cursor hprefill hmay.2.1
    have hsteps := h.steps
    rw [hpending] at hsteps hcursor
    refine ⟨hw, h.tallied, h.sequence, h.revisions, ?_, hencoded, h.adapted, fun hfresh => ?_, fun _ _ => ?_,
      fun _ => ?_⟩
    · change s.decoder.decoderSteps + 1 = s.events.tokenEvents + 1
      rw [hsteps]
      rfl
    · exact absurd (hprefill.symm.trans hfresh) nofun
    · change s.decoder.decoderPosition + 1 = promptLength - 1 + (s.decoder.decoderSteps + 1)
      rw [← Nat.add_assoc, ← hcursor]
      rfl
    · have hbehind : s.decoder.decoderPosition < s.decoder.adapterGroupsCommitted := hmay.1
      change promptLength - 1 + (s.decoder.decoderSteps + 1) ≤ s.decoder.adapterGroupsCommitted
      rw [← Nat.add_assoc, ← hcursor]
      exact hbehind
  | deliver p hprefill hpending hroom =>
    obtain ⟨htallied, htokens, hpartials⟩ := deliverPending_tallied eng h.tallied p hroom
    obtain ⟨hsequence, hsteps, hnone, hcommitted, hrevision⟩ := decoderAfter_counts eng s.decoder p
    refine ⟨hw, htallied, ?_, ?_, ?_, hencoded, ?_, ?_⟩
    · rw [deliverPending_decoder, hsequence, htokens, h.sequence]
    · rw [deliverPending_decoder, hrevision, hpartials, h.revisions]
    · rw [deliverPending_decoder, hsteps, hnone, htokens, h.steps, hpending]
      rfl
    · rw [deliverPending_decoder, hcommitted, hemitted]
      exact h.adapted
    · rw [deliverPending_decoder]
      exact h.decoded.deliver hprefill (h.within.stash p hpending).2.2 hpending

/-- The steps of a pump count what they do. -/
lemma Counted.pumpSteps (h : Counted s) (hsteps : PumpSteps eng s s') : Counted s' := by
  induction hsteps with
  | refl => exact h
  | tail _ hstep ih => exact ih.pumpStep hstep

variable (eng) in
/-- So does a whole pump. -/
lemma Counted.pump (h : Counted s) : Counted (pumpIncremental eng s).1 :=
  h.pumpSteps (pumpIncremental_steps h.within)

variable (eng) in
/-- So does a resumption. -/
lemma Counted.resumed (h : Counted s) : Counted (resumed eng s) := by
  unfold Voxtral.resumed
  split_ifs
  · exact h.pump eng
  · exact h

/-- The ERROR event of a failure. -/
lemma Counted.fail (h : Counted s) (status : Status) : Counted (failStream s status) :=
  Counted.same (h.push rfl rfl) (.of_records rfl rfl rfl rfl)

/-- The last two events of a stream. -/
lemma Counted.complete (h : Counted s) : Counted (completeStream s) :=
  Counted.same (Counted.push (h.push rfl rfl) rfl rfl) (.of_records rfl rfl rfl rfl)

/-- A poll. -/
lemma Counted.poll (h : Counted s) : Counted (streamPollEvent s).1 := by
  unfold streamPollEvent
  split
  · exact h
  · next e rest hqueue =>
    exact ⟨h.within.of_decoder rfl rfl rfl rfl rfl rfl, h.tallied.poll hqueue, h.sequence, h.revisions,
      h.steps, h.encoded, h.adapted, h.decoded⟩

/-- A cancellation. -/
lemma Counted.cancel (h : Counted s) : Counted (cancelInternal s).1 := by
  have hrequested : ∀ flush, Counted { s with
      lifecycle := { s.lifecycle with cancelRequested := true }
      events := { s.events with finalizingFlush := flush } } :=
    fun _ => h.same (.of_records rfl rfl rfl rfl)
  have hcancelled : Counted (if s.lifecycle.cancelledEmitted then
        { s with lifecycle := { s.lifecycle with cancelRequested := true } }
      else
        let t := (pushEvent { s with
            lifecycle := { s.lifecycle with cancelRequested := true }
            events := { s.events with finalizingFlush := true } }
          { type := .cancelled, tAudioSamples := s.lifecycle.totalSamplesReceived }).1
        { t with lifecycle := { t.lifecycle with cancelledEmitted := true } }) := by
    split_ifs
    · exact hrequested s.events.finalizingFlush
    · exact Counted.same ((hrequested true).push rfl rfl) (.of_records rfl rfl rfl rfl)
  unfold cancelInternal
  cases s.lifecycle.state with
  | completed | finishing => exact h.same (.of_records rfl rfl rfl rfl)
  | cancelled | failed => exact h
  | created | running => exact hcancelled.same (.of_records rfl rfl rfl rfl)

end Parts

/-! ## The calls -/

section Calls

variable {eng : Engine α φ ε γ κ} {s s' : Stream α φ ε γ κ}

/-- A failure behind changes of the records. -/
lemma Counted.failed (h : Counted s) {t : Stream α φ ε γ κ} (status : Status) (hsame : Uncounted s t) :
    Counted (failStream t status) :=
  Counted.fail (h.same hsame) status

/-- The slice loop of a feed. -/
lemma Counted.feedSlices (slices : List (List α)) {stalled : Bool} {status : Status} (h : Counted s)
    (hfeed : feedSlices eng s stalled slices = some (s', status)) : Counted s' := by
  induction slices generalizing s stalled with
  | nil =>
    obtain ⟨rfl, -⟩ := Prod.mk.inj (Option.some.inj hfeed)
    exact h
  | cons slice rest ih =>
    rw [Voxtral.feedSlices] at hfeed
    obtain ⟨⟨t, ok⟩, habsorb, hfeed⟩ := Option.bind_eq_some_iff.mp hfeed
    have ht : Counted t :=
      h.same (.frontend (absorbSlice_frontendChange habsorb) (absorbSlice_advanced habsorb))
    have hpump : Counted (pumpIncremental eng t).1 := ht.pump eng
    dsimp only at hfeed
    split_ifs at hfeed with hok hstalled hfull hfail
    · obtain ⟨rfl, -⟩ := Prod.mk.inj (Option.some.inj hfeed)
      exact ht
    · exact ih ht hfeed
    · exact ih hpump hfeed
    · rwa [show pumpIncremental eng t = (s', status) from Option.some.inj hfeed] at hpump
    · exact ih hpump hfeed

variable [Zero α]

/-- So does the audio part of a feed. -/
lemma Counted.feedAudio (h : Counted s) {samples : List ℤ} {status : Status}
    (hfeed : feedAudio eng s samples = some (s', status)) : Counted s' := by
  rw [feedAudio_eq] at hfeed
  obtain ⟨t, hpad, hfeed⟩ := Option.bind_eq_some_iff.mp hfeed
  obtain ⟨⟨u, st⟩, hslices, hend⟩ := Option.map_eq_some_iff.mp hfeed
  have hstart : Counted (feedStart s samples.length) := h.same (.of_records rfl rfl rfl rfl)
  have hpadded : Counted t :=
    hstart.same (.frontend (ensureLeftPad_frontendChange hpad) (ensureLeftPad_advanced hpad))
  have hu : Counted u := hpadded.feedSlices _ hslices
  have hs' : (feedEnd s.events.aggressivePartialCoalescing samples.length (u, st)).1 = s' :=
    congrArg Prod.fst hend
  rw [← hs']
  unfold feedEnd
  dsimp only
  split_ifs
  all_goals exact hu.same (.of_records rfl rfl rfl rfl)

/-- So does a feed. -/
lemma Counted.feedCommon (h : Counted s) {buf : FeedBuffer} {status : Status}
    (hfeed : feedCommon eng s buf = some (s', status)) : Counted s' := by
  cases feedCommon_call hfeed with
  | closed => exact h.same (.of_records rfl rfl rfl rfl)
  | stalled => exact (h.pump eng).same (.of_records rfl rfl rfl rfl)
  | pumpFailed => exact h.pump eng
  | refused => exact (h.resumed eng).same (.of_records rfl rfl rfl rfl)
  | admitted _ haudio => exact (h.resumed eng).feedAudio haudio

/-- The frontend part of a finish. -/
lemma Counted.flushed (h : Counted s) {t : Stream α φ ε γ κ} {out : Option String}
    (hflush : finishFrontend eng (flushStart s) = some (t, out)) : Counted t := by
  have hstart : Counted (flushStart s) := h.same (.of_records rfl rfl rfl rfl)
  exact hstart.same
    (.frontend (finishFrontend_frontendChange hflush).1 (finishFrontend_advanced hflush))

omit [Zero α] in
/-- The start of the terminal pump. -/
lemma Counted.tailStart (h : Counted s) : Counted (tailStart s) := h.same (.of_records rfl rfl rfl rfl)

/-- So does every way to end a stream. -/
lemma Counted.finishPath (h : Counted s) {status : Status} (hpath : FinishPath eng s s' status) :
    Counted s' := by
  cases hpath with
  | empty => exact Counted.complete (h.same (.of_records rfl rfl rfl rfl))
  | frontendFailed _ hflush => exact (h.flushed hflush).failed _ (.of_records rfl rfl rfl rfl)
  | pumpFailed _ hflush =>
    exact ((h.flushed hflush).tailStart.pump eng).failed _ (.of_records rfl rfl rfl rfl)
  | completed _ hflush =>
    exact Counted.complete (((h.flushed hflush).tailStart.pump eng).same (.of_records rfl rfl rfl rfl))

/-- So does a finish. -/
lemma Counted.finishInternal (h : Counted s) {status : Status}
    (hfinish : finishInternal eng s = some (s', status)) : Counted s' := by
  cases finishInternal_call hfinish with
  | ended | finishing => exact h
  | failed => exact h.same (.of_records rfl rfl rfl rfl)
  | stalled => exact h.pump eng
  | pumpFailed => exact (h.pump eng).failed _ (.of_records rfl rfl rfl rfl)
  | live _ _ hpath => exact (h.resumed eng).finishPath hpath

/-- Every call counts what it does. -/
lemma Counted.step (h : Counted s) {op : Op} {r : Response}
    (hstep : streamStep eng s op = some (s', r)) : Counted s' := by
  cases op with
  | feed buf =>
    obtain ⟨⟨t, status⟩, hfeed, ht⟩ := Option.map_eq_some_iff.mp hstep
    have hcounted := h.feedCommon hfeed
    rw [← (Prod.mk.inj ht).1]
    dsimp only
    split_ifs
    · exact hcounted.failed _ (.of_records rfl rfl rfl rfl)
    · exact hcounted
  | poll =>
    have hs' : (streamPollEvent s).1 = s' := congrArg Prod.fst (Option.some.inj hstep)
    rw [← hs']
    exact h.poll
  | cancel =>
    have hs' : (cancelInternal s).1 = s' := congrArg Prod.fst (Option.some.inj hstep)
    rw [← hs']
    exact h.cancel
  | finish =>
    obtain ⟨⟨t, status⟩, hfinish, ht⟩ := Option.map_eq_some_iff.mp hstep
    obtain ⟨rfl, -⟩ := Prod.mk.inj ht
    exact h.finishInternal hfinish

omit [Zero α] in
/-- A new stream has counted nothing. -/
lemma counted_create (maxEvents : ℕ) (device : Device ε γ κ) :
    Counted (Stream.create maxEvents device : Stream α φ ε γ κ) := by
  refine ⟨⟨le_rfl, nofun, fun _ => ⟨rfl, rfl⟩, nofun⟩, ⟨rfl, rfl, rfl, le_rfl, ?_, rfl⟩, rfl, rfl, rfl, rfl,
    Nat.zero_le _, fun _ => rfl, nofun, nofun⟩
  exact Nat.zero_le _

end Calls

end Voxtral
