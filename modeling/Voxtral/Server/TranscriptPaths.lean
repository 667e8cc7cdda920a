import Voxtral.Server.DrainRuns
import Voxtral.Server.SessionLoops
import Voxtral.Server.TranscriptText

/-!
# One transcript on every path

The whole-body endpoint cuts its samples into chunks of a second, a session pops what its client happened to
send; the queues fill and are drained differently, and the events are polled at other moments.  Both callers
drive a stream by feeds of at most a slice, so that both end with the outputs of the padded signal and with
their text: the transcript depends on the samples alone.  For the session this holds in every interleaving of
its threads in which nobody requests a cancellation and the lag does not reach its hard limit.
-/

namespace Voxtral

variable {α φ ε γ κ ρ : Type*}

/-! ## What a stream makes of its samples -/

section Outputs

variable [Zero α]

/-- The decoder outputs of a stream that received `pcm`: those of the padded signal, and none without a
sample. -/
def streamOutputs (eng : Engine α φ ε γ κ) (pcm : List ℤ) : List ℤ :=
  if pcm = [] then [] else utteranceOutputs eng pcm

/-- The text of a stream that received `pcm`. -/
def streamText (eng : Engine α φ ε γ κ) (pcm : List ℤ) : Bytes :=
  decodeTokens eng.tokenizer ((streamOutputs eng pcm).filter fun t => t ≠ tokenEos)

/-- With a sample, they are those of the finish-only reference. -/
lemma streamText_reference (eng : Engine α φ ε γ κ) {pcm : List ℤ} (hne : pcm ≠ []) :
    utteranceReference eng pcm =
      some ⟨(streamOutputs eng pcm).filter fun t => t ≠ tokenEos, streamText eng pcm⟩ := by
  rw [utteranceReference_eq, streamText, streamOutputs, if_neg hne]

end Outputs

/-! ## Streams without a fault -/

/-- An event that neither reports an error nor a cancellation. -/
def StreamEvent.Regular (e : StreamEvent) : Prop := e.type ≠ .error ∧ e.type ≠ .cancelled

/-- An event of a live stream is regular. -/
lemma StreamEvent.IsMidStream.regular {e : StreamEvent} (h : e.IsMidStream) : e.Regular := by
  rcases h with h | h <;> exact ⟨by rw [h]; decide, by rw [h]; decide⟩

/-- A stream that goes on, or completed, handed out and queues regular events. -/
structure RegularEvents (s : Stream α φ ε γ κ) : Prop where
  isOpen : QueueOpen s
  polled : s.Live ∨ s.lifecycle.state = .completed → ∀ e ∈ s.events.polled, e.Regular
  queue : s.lifecycle.state = .completed → ∀ e ∈ s.events.queue, e.Regular

section Regular

variable {eng : Engine α φ ε γ κ} {late : Prop} {s s' : Stream α φ ε γ κ}

/-- A live stream is not completed. -/
lemma Stream.Live.not_completed (h : s.Live) : s.lifecycle.state ≠ .completed := by
  rcases h with h | h | h <;> rw [h] <;> decide

/-- No transition revives a stream, or completes one that did not go on. -/
lemma Transition.unended (hstep : Transition eng late s s')
    (h : s'.Live ∨ s'.lifecycle.state = .completed) : s.Live ∨ s.lifecycle.state = .completed := by
  cases hstep with
  | pump hlive => exact Or.inl hlive
  | absorb hlive => exact Or.inl hlive
  | account hchange =>
    rcases hchange.state with hsame | ⟨hlive, -⟩
    · unfold Stream.Live at h ⊢
      rwa [← hsame]
    · exact Or.inl hlive
  | complete hlive => exact Or.inl hlive
  | fail hlive => exact Or.inl hlive
  | cancel hstate => exact Or.inl (hstate.imp_right Or.inl)

/-- Every transition keeps the events regular. -/
lemma Transition.regularEvents (hstep : Transition eng late s s') (h : RegularEvents s) :
    RegularEvents s' where
  isOpen := hstep.queueOpen h.isOpen
  polled hstate := by
    rw [hstep.polls.1]
    exact h.polled (hstep.unended hstate)
  queue hcompleted := by
    cases hstep with
    | pump hlive _ _ _ hpump => exact absurd hcompleted (hpump.frame.live.mpr hlive).not_completed
    | absorb hlive hchange => exact absurd hcompleted (hchange.live.mpr hlive).not_completed
    | account hchange =>
      rcases hchange.state with hsame | ⟨-, hlive⟩
      · rw [hchange.queue]
        exact h.queue (hsame.symm.trans hcompleted)
      · exact absurd hcompleted hlive.not_completed
    | complete hlive transcript tokens =>
      obtain ⟨es, happ, hes⟩ := completeStream_appends
        { s with decoder := { s.decoder with transcript := transcript, tokens := tokens } }
      rw [happ.queue]
      intro e he
      rcases List.mem_append.mp he with he | he
      · exact (h.isOpen hlive e he).regular
      · rcases List.mem_cons.mp (hes.subset he) with rfl | he
        · exact ⟨nofun, nofun⟩
        · rw [List.mem_singleton.mp he]
          exact ⟨nofun, nofun⟩
    | fail => exact absurd hcompleted (by simp [failStream])
    | cancel hstate =>
      unfold cancelInternal at hcompleted
      rcases hstate with hstate | hstate <;> simp [hstate, clearError] at hcompleted

/-- A poll leaves regular events. -/
lemma RegularEvents.poll (h : RegularEvents s) : RegularEvents (streamPollEvent s).1 := by
  refine ⟨h.isOpen.poll, ?_, ?_⟩
  · unfold streamPollEvent
    cases hqueue : s.events.queue with
    | nil => exact h.polled
    | cons e rest =>
      intro hstate x hx
      rcases List.mem_append.mp hx with hx | hx
      · exact h.polled hstate x hx
      · have hmem : x ∈ s.events.queue := by
          rw [hqueue, List.mem_singleton.mp hx]
          exact List.mem_cons_self
        rcases hstate with hlive | hcompleted
        · exact (h.isOpen hlive x hmem).regular
        · exact h.queue hcompleted x hmem
  · unfold streamPollEvent
    cases hqueue : s.events.queue with
    | nil => exact h.queue
    | cons e rest =>
      intro hcompleted x hx
      exact h.queue hcompleted x (by rw [hqueue]; exact List.mem_cons_of_mem e hx)

/-- After every run. -/
lemma regularEvents_run [Zero α] {maxEvents : ℕ} {device : Device ε γ κ} {ops : List Op}
    {os : List Response}
    (hrun : runSteps (streamStep eng) (Stream.create maxEvents device) ops = some (s, os)) :
    RegularEvents s :=
  stream_invariant True (fun _ _ hstep _ h => hstep.regularEvents h) (fun _ h => h.poll)
    ⟨fun _ _ he => absurd he List.not_mem_nil, fun _ _ he => absurd he List.not_mem_nil,
      fun _ _ he => absurd he List.not_mem_nil⟩ (Or.inl trivial) hrun

end Regular

/-! ## The last calls -/

section Last

variable [Zero α] {eng : Engine α φ ε γ κ} {s t u : Stream α φ ε γ κ} {pcm : List ℤ}

/-- Between short feeds, an open stream that does not stall has decoded all groups of the encoder, so that
few positions are left for the finish. -/
lemma roomForFlush_of_synced (hs : StreamReady eng False u) (hfree : u.events.decoderBackpressured = false)
    (hempty : u.events.queue = []) (hcapacity : 38 ≤ u.events.maxEvents) : RoomForFlush u := by
  refine Or.inr ?_
  by_cases heos : u.decoder.decoderEos = true
  · exact Or.inl heos
  · right
    have hsynced := (hs.synced hfree).resolve_left id
    rw [Bool.not_eq_true] at heos
    have hhead := (hsynced.head heos).1
    have hpos := lt_emittedAt eng.schedule.logical_pos u.frontend.realSamples.length
    have hlogical := eng.schedule.logical_le
    rw [← hs.emitted, encFramesRealizable_eq,
      show streamLeftPad + u.frontend.realSamples.length = 40960 + u.frontend.realSamples.length from rfl,
      stableFrameCount] at hpos
    have hopen : u.frontend.enc.emitted / 4 ≤ firstOpen u ∧ 38 ≤ firstOpen u := by
      have hprefilled := hsynced.prefilled
      simp only [promptLength] at hprefilled
      unfold firstOpen
      split_ifs with hdone
      · rw [hsynced.position hdone heos, hhead]
        exact ⟨le_rfl, by rw [← hhead]; exact hprefilled.mp hdone⟩
      · refine ⟨?_, le_rfl⟩
        have hfew : ¬ 38 ≤ u.decoder.adapterGroupsCommitted := fun h => hdone (hprefilled.mpr h)
        rw [← hhead]
        simp only [promptLength]
        omega
    rw [hempty, List.length_nil, hs.total, finishGroups, terminalEventHeadroom]
    split_ifs at hpos <;> omega

/-- The stream completed with the outputs and the text of `pcm`, and its last two events tell so. -/
structure Transcribed (eng : Engine α φ ε γ κ) (pcm : List ℤ) (t : Stream α φ ε γ κ) : Prop where
  completed : t.lifecycle.state = .completed
  tokens : (eventHistory t).filter StreamEvent.isToken = tokenEvents eng 0 (streamOutputs eng pcm)
  text : t.decoder.transcript = streamText eng pcm
  regular : ∀ e ∈ eventHistory t, e.Regular
  ended : ∃ before final done, eventHistory t = before ++ [final, done] ∧ final.type = .finalText ∧
    done.type = .completed

/-- Draining leaves a transcribed stream. -/
lemma Transcribed.drained (h : Transcribed eng pcm t) : Transcribed eng pcm (drained t) := by
  have hsame : eventHistory (Voxtral.drained t) = eventHistory t := List.append_nil _
  exact ⟨h.completed, by rw [hsame]; exact h.tokens, h.text, by rw [hsame]; exact h.regular,
    by rw [hsame]; exact h.ended⟩

/-- A finish of an open stream that does not stall takes one of the paths behind the backlog drain. -/
lemma BetweenCalls.finishPath (hu : BetweenCalls eng u) (hfree : u.events.decoderBackpressured = false)
    {status : Status} (h : finishInternal eng u = some (t, status)) : FinishPath eng u t status := by
  have hresumed : resumed eng u = u := if_neg (by rw [hfree]; decide)
  have hnot : ∀ state, u.lifecycle.state = state → state = .created ∨ state = .running := by
    rintro state rfl
    exact hu.isOpen
  cases finishInternal_call h with
  | ended hended => rcases hended with hended | hended <;> exact absurd (hnot _ hended) (by decide)
  | failed hfailed => exact absurd (hnot _ hfailed) (by decide)
  | finishing hfinishing => exact absurd (hnot _ hfinishing) (by decide)
  | stalled _ hstall => exact absurd (hfree.symm.trans hstall) Bool.false_ne_true
  | pumpFailed _ hstall => exact absurd (hfree.symm.trans hstall) Bool.false_ne_true
  | live _ _ hpath =>
    rw [hresumed] at hpath
    exact hpath

/-- Of these paths, the ones that complete the stream return `ok`. -/
lemma FinishPath.ok_of_completed {status : Status} (h : FinishPath eng u t status)
    (hcompleted : t.lifecycle.state = .completed) : status = .ok := by
  cases h with
  | empty | completed => rfl
  | frontendFailed | pumpFailed => exact absurd hcompleted (by simp [finishThrew, failStream])

/-- Before the first sample not even the prompt is decoded. -/
lemma StreamReady.unprefilled (hs : StreamReady eng False u) (hfree : u.events.decoderBackpressured = false)
    (hsilent : u.frontend.realSamples = []) : u.decoder.decoderPrefillDone = false := by
  have hsynced := (hs.synced hfree).resolve_left id
  have hemitted : u.frontend.enc.emitted = 0 := by
    rw [hs.emitted, hsilent]
    exact emittedAt_zero _
  have hcommitted : u.decoder.adapterGroupsCommitted = 0 := by
    rw [hsynced.committed, committable, hemitted]
    exact Nat.zero_min _
  rw [Bool.eq_false_iff]
  intro hdone
  have hprompt := hsynced.prefilled.mp hdone
  rw [hcommitted] at hprompt
  exact absurd hprompt (by decide)

/-- A finish leaves a stream without samples as undecoded as it was. -/
lemma FinishPath.unprefilled {status : Status} (h : FinishPath eng u t status)
    (hs : StreamReady eng False u) (hfree : u.events.decoderBackpressured = false)
    (hsilent : u.frontend.realSamples = []) : t.decoder.decoderPrefillDone = false := by
  have hzero : u.lifecycle.totalSamplesReceived = 0 := by
    rw [hs.total, hsilent]
    rfl
  cases h with
  | empty =>
    obtain ⟨es, happ, -⟩ := completeStream_appends (emptyEnd u)
    rw [happ.decoder]
    exact hs.unprefilled hfree hsilent
  | frontendFailed hsome | pumpFailed hsome | completed hsome => exact absurd hzero hsome

/-- A stream that short feeds left open and worked off transcribes its samples when it is finished, if
its queue was polled empty and holds 38 events. -/
lemma finish_transcribes {maxEvents : ℕ} {device : Device ε γ κ} {ops : List Op} {os : List Response}
    (hrun : runSteps (streamStep eng) (Stream.create maxEvents device) ops = some (u, os))
    (hshort : ∀ op ∈ ops, op.sampleCount ≤ audioDrainSlice) (hruns : ∀ n, eng.submitFails n = false)
    (hu : BetweenCalls eng u) (hfree : u.events.decoderBackpressured = false)
    (hempty : u.events.queue = []) (hcapacity : 38 ≤ u.events.maxEvents)
    (hpcm : u.frontend.realSamples = pcm.map eng.sampleOf) {status : PublicStatus}
    (hfinish : EngineStream.finish eng u = some (t, status)) : status = .ok ∧ Transcribed eng pcm t := by
  obtain ⟨t', status', hsome, hstep⟩ := (engineFinish_cases eng u).resolve_left fun hnone => by
    rw [hnone.1] at hfinish
    exact absurd hfinish nofun
  obtain ⟨rfl, rfl⟩ := Prod.mk.inj (Option.some.inj (hsome.symm.trans hfinish))
  obtain ⟨⟨v, st⟩, hinternal, hout⟩ := Option.map_eq_some_iff.mp hstep
  obtain ⟨rfl, hresponse⟩ := Prod.mk.inj hout
  have hstatus : mapStatus st = status' := Response.finish.inj hresponse
  have hpast : st ≠ .limitExceeded := by
    rintro rfl
    exact (hu.finish hfree hstep).1 hstatus.symm
  have hresumed : resumed eng u = u := if_neg (by rw [hfree]; decide)
  -- the stream before the finish
  have hkeep : RunMeets (streamStep eng) (KeepsUp eng) (Stream.create maxEvents device) ops :=
    keepsUp_of_slices hshort _
  have hready := (runSteps_moves (opReady_create eng False maxEvents device) (Or.inr hkeep) hrun).2
  have hs := hready.live hu.live
  obtain ⟨hended, -, hcompletes⟩ := finishInternal_ended_in_queue hu.ready hu.isOpen hu.queue
    (by rw [hresumed]; exact roomForFlush_of_synced hs hfree hempty hcapacity) hinternal hpast
  have hcompleted := hcompletes hruns
  have hpath := hu.finishPath hfree hinternal
  have hok := hpath.ok_of_completed hcompleted
  subst hok
  -- the run up to the finish
  have hrun' : runSteps (streamStep eng) (Stream.create maxEvents device) (ops ++ [.finish]) =
      some (v, os ++ [.finish status']) :=
    runSteps_append.mpr ⟨u, os, _, hrun, runSteps_singleton.mpr ⟨_, hstep, rfl⟩, rfl⟩
  have hshort' : ∀ op ∈ ops ++ [.finish], op.sampleCount ≤ audioDrainSlice := by
    intro op hop
    rcases List.mem_append.mp hop with hop | hop
    · exact hshort op hop
    · rw [List.mem_singleton.mp hop]
      exact Nat.zero_le _
  have hkeep' : RunMeets (streamStep eng) (KeepsUp eng) (Stream.create maxEvents device)
      (ops ++ [.finish]) := keepsUp_of_slices hshort' _
  have hregular := regularEvents_run hrun'
  obtain ⟨tokens, hd, hfaithful⟩ := exists_delivered_faithful hkeep' hrun'
  have htext := stream_invariant True (fun _ _ hstep _ h => hstep.stableText h) (fun _ h => h.poll)
    (stableText_create maxEvents device) (Or.inl trivial) hrun'
  have hsamples : v.frontend.realSamples = pcm.map eng.sampleOf := (hu.finish hfree hstep).2.1.trans hpcm
  have htokens : streamOutputs eng pcm = tokens := by
    by_cases hne : pcm = []
    · have hfresh := hpath.unprefilled hs hfree (by rw [hpcm, hne]; rfl)
      rw [streamOutputs, if_pos hne, hd.fresh hfresh]
    · have hready' := (runSteps_moves (opReady_create eng False maxEvents device) (Or.inr hkeep') hrun').2
      have hfinished := hready'.completed hcompleted (by simpa [hsamples] using hne)
      have houtputs := hfinished.outputs hd hfaithful
      rw [hsamples, List.length_map] at houtputs
      rw [streamOutputs, if_neg hne]
      exact houtputs
  refine ⟨hstatus.symm, hcompleted, ?_, ?_, ?_, ?_⟩
  · rw [htokens]
    exact hd.events
  · rw [transcript_eq_pieces hd htext hcompleted, hd.kept, streamText, htokens]
  · intro e he
    rcases List.mem_append.mp he with he | he
    · exact hregular.polled (Or.inr hcompleted) e he
    · exact hregular.queue hcompleted e he
  · rcases hended with ⟨-, before, final, done, hqueue, hfinal, hdone, -⟩ | ⟨hfailed, -⟩
    · refine ⟨v.events.polled ++ before, final, done, ?_, hfinal, hdone⟩
      rw [eventHistory, hqueue, List.append_assoc]
    · rw [hfailed] at hcompleted
      exact absurd hcompleted (by decide)

end Last

/-! ## A caller to its end -/

/-- The caller goes on after every event but errors and cancellations. -/
def StreamCaller.GoesOnRegular (caller : StreamCaller ρ) : Prop :=
  ∀ event r, event.type ≠ .error → event.type ≠ .cancelled → (caller.onEvent event r).2 = true

/-- A caller that goes on behind regular events goes on behind those of a live stream. -/
lemma StreamCaller.GoesOnRegular.goesOn {caller : StreamCaller ρ} (h : caller.GoesOnRegular) :
    caller.GoesOn := by
  intro event r htype
  apply h
  · rcases htype with htype | htype <;> rw [htype] <;> decide
  · rcases htype with htype | htype <;> rw [htype] <;> decide

/-- A regular event keeps its type. -/
lemma StreamEvent.Regular.publicType {e : StreamEvent} (h : e.Regular) (sequence : ℕ) :
    (publicEvent e sequence).type = e.type := if_neg h.2

/-- A batch goes on behind regular events. -/
lemma batchCaller_goesOnRegular : batchCaller.GoesOnRegular := by
  intro event result herror _
  cases htype : event.type <;> simp_all [batchCaller]

/-- So does the worker, if its messages are accepted. -/
lemma workerCaller_goesOnRegular {config : RealtimeConfiguration}
    {accepts : OutboundMessage ServerMessage → Bool} (haccepts : ∀ message, accepts message = true) :
    (workerCaller config accepts).GoesOnRegular := by
  intro event worker herror hcancelled
  cases hmessage : eventMessage config event with
  | none => cases htype : event.type <;> simp_all [workerCaller]
  | some message => cases htype : event.type <;> simp_all [workerCaller]

section Drive

variable [Zero α] {eng : Engine α φ ε γ κ} {caller : StreamCaller ρ}

/-- A caller that drives a new stream comes to its end with the transcript of its chunks, and with what it
made of the events in order. -/
theorem driveStream_transcribes (hruns : ∀ n, eng.submitFails n = false) (hgoes : caller.GoesOnRegular)
    {maxEvents : ℕ} (hcapacity : 38 ≤ maxEvents) (device : Device ε γ κ) {chunks : List (List ℤ)}
    (hshort : ∀ chunk ∈ chunks, chunk.length ≤ audioDrainSlice) (hfits : PaddedFits chunks.flatten.length)
    {rounds : ℕ} (hrounds : enoughRounds maxEvents chunks.flatten.length ≤ rounds) (r : ρ) :
    ∃ t, Transcribed eng chunks.flatten t ∧ t.events.queue = [] ∧
      caller.driveStream rounds eng (Stream.create maxEvents device) r chunks =
        some ((t, caller.take r (publicEvents 0 t.events.polled)), true) := by
  have hnew := betweenCalls_create eng (show 0 < maxEvents by omega) device
  have hlen : ∀ chunk ∈ chunks, chunk.length ≤ maxFeedSamples := fun chunk hchunk =>
    (hshort chunk hchunk).trans (by decide)
  have hbound : enoughRounds (Stream.create maxEvents device : Stream α φ ε γ κ).events.maxEvents
      ((Stream.create maxEvents device : Stream α φ ε γ κ).frontend.realSamples.length +
        chunks.flatten.length) ≤ rounds := by
    change enoughRounds maxEvents (0 + chunks.flatten.length) ≤ rounds
    rwa [Nat.zero_add]
  unfold enoughRounds at hrounds
  obtain ⟨u, r₁, hfed, hu⟩ := (feedChunks_returns hruns hgoes.goesOn hnew rfl hlen hbound r).resolve_left
    fun hpast => hpast.2 (by
      change PaddedFits (0 + chunks.flatten.length)
      rwa [Nat.zero_add])
  obtain ⟨⟨ops, os, hrun, hcalls, -⟩, hcleared⟩ := feedChunks_driven hshort hfed
  have hsamples : u.frontend.realSamples = chunks.flatten.map eng.sampleOf := hu.samples
  have hcap : u.events.maxEvents = maxEvents := hu.capacity
  -- the finish
  obtain ⟨t, status, hfinish, hstep⟩ := (engineFinish_cases eng u).resolve_left fun hnone => by
    have hsome := finishInternal_isSome hu.between.ready fun _ => by
      rw [hsamples, List.length_map]
      exact hfits
    rw [hnone.2] at hsome
    exact absurd hsome Bool.false_ne_true
  obtain ⟨rfl, ht⟩ := finish_transcribes hrun hcalls hruns hu.between hu.free (hcleared rfl)
    (by rw [hcap]; exact hcapacity) hsamples hfinish
  have hqueue := (hu.between.finish hu.free hstep).2.2.2 rfl
  obtain ⟨n, rfl⟩ : ∃ n, rounds = n + 1 := ⟨rounds - 1, by omega⟩
  have hfinished : caller.finishLoop (n + 1) eng (n + 1) u r₁ = some ((t, r₁), true) := by
    rw [StreamCaller.finishLoop, hfinish]
    rfl
  -- the last events
  have hgo : ∀ e ∈ t.events.queue, ∀ sequence r, (caller.onEvent (publicEvent e sequence) r).2 = true := by
    intro e he sequence r
    have hregular := ht.regular e (List.mem_append_right _ he)
    apply hgoes
    · rw [hregular.publicType]
      exact hregular.1
    · rw [hregular.publicType]
      exact hregular.2
  have hlast : t.events.queue.length < n + 1 := by
    rw [hcap, terminalEventHeadroom] at hqueue
    omega
  obtain ⟨r₂, hdrain⟩ := drainEvents_all hgo hlast r₁
  have hdrive : caller.driveStream (n + 1) eng (Stream.create maxEvents device) r chunks =
      some ((drained t, r₂), true) := by
    rw [StreamCaller.driveStream, hfed]
    dsimp only [Option.bind_some]
    rw [if_pos rfl, hfinished]
    exact hdrain
  obtain ⟨⟨ops', os', hrun', -, htake⟩, hempty⟩ := driveStream_driven hshort hdrive
  refine ⟨drained t, ht.drained, hempty, ?_⟩
  rw [hdrive, ← polledEvents_create hrun', htake]

end Drive

/-! ## What the callers make of the events -/

section Callers

/-- A batch request counts the tokens. -/
lemma batchCaller_take (n : ℕ) {es : List StreamEvent} (hregular : ∀ e ∈ es, e.Regular)
    (result : BatchTranscriptionResult) :
    batchCaller.take result (publicEvents n es) =
      { result with tokenCount := result.tokenCount + (es.filter StreamEvent.isToken).length } := by
  induction es generalizing n result with
  | nil => rfl
  | cons e es ih =>
    have hhead := hregular e List.mem_cons_self
    have hrest : ∀ x ∈ es, x.Regular := fun x hx => hregular x (List.mem_cons_of_mem e hx)
    have hstep : (batchCaller.onEvent (publicEvent e (n + 1)) result).1 =
        { result with tokenCount := result.tokenCount + if e.isToken then 1 else 0 } := by
      have htype := hhead.publicType (n + 1)
      cases hkind : e.type <;> rw [hkind] at htype <;>
        simp_all [batchCaller, StreamEvent.isToken, StreamEvent.Regular]
    rw [publicEvents, StreamCaller.take, List.foldl_cons, hstep]
    refine (ih (n + 1) hrest _).trans ?_
    rw [List.filter_cons]
    split_ifs
    · rw [List.length_cons, Nat.add_assoc, Nat.add_comm 1]
    · rw [Nat.add_zero]

/-- A worker observes the events and enqueues their messages. -/
lemma workerCaller_take (config : RealtimeConfiguration) {accepts : OutboundMessage ServerMessage → Bool}
    (haccepts : ∀ message, accepts message = true) (n : ℕ) {es : List StreamEvent}
    (hregular : ∀ e ∈ es, e.Regular) (worker : InferenceWorker) :
    (workerCaller config accepts).take worker (publicEvents n es) =
      { worker with
        terminal := ((publicEvents n es).map Prod.snd).foldl TerminalEvents.observe worker.terminal
        enqueued := worker.enqueued ++
          ((publicEvents n es).map Prod.snd).filterMap (eventMessage config) } := by
  induction es generalizing n worker with
  | nil => simp [publicEvents, StreamCaller.take]
  | cons e es ih =>
    have hhead := hregular e List.mem_cons_self
    have hrest : ∀ x ∈ es, x.Regular := fun x hx => hregular x (List.mem_cons_of_mem e hx)
    have hstep : ((workerCaller config accepts).onEvent (publicEvent e (n + 1)) worker).1 =
        { worker with
          terminal := worker.terminal.observe (publicEvent e (n + 1))
          enqueued := worker.enqueued ++ (eventMessage config (publicEvent e (n + 1))).toList } := by
      have htype := hhead.publicType (n + 1)
      cases hmessage : eventMessage config (publicEvent e (n + 1)) with
      | none =>
        cases hkind : e.type <;> rw [hkind] at htype <;>
          simp_all [workerCaller, StreamEvent.Regular]
      | some message =>
        cases hkind : e.type <;> rw [hkind] at htype <;>
          simp_all [workerCaller, StreamEvent.Regular]
    rw [publicEvents, StreamCaller.take, List.foldl_cons, hstep]
    refine (ih (n + 1) hrest _).trans ?_
    cases hmessage : eventMessage config (publicEvent e (n + 1)) with
    | none => simp [hmessage]
    | some message => simp [hmessage]

/-- The token a message is about. -/
def ServerMessage.tokenId : ServerMessage → Option ℤ
  | .token _ tokenId _ _ => some tokenId
  | _ => none

/-- A `transcript.token` message is about the token of its event. -/
lemma eventMessage_token (config : RealtimeConfiguration) {e : StreamEvent} (hregular : e.Regular)
    (n : ℕ) :
    (eventMessage config (publicEvent e n)).bind (fun message => message.payload.tokenId) =
      if config.tokenEvents ∧ e.isToken then some e.token else none := by
  have htype := hregular.publicType n
  have htoken : (publicEvent e n).tokenId = if e.type = .token then e.token else -1 := rfl
  unfold eventMessage
  cases hkind : e.type <;> rw [hkind] at htype htoken <;> rw [htype]
  · cases hconfig : config.tokenEvents <;>
      simp [StreamEvent.isToken, hkind, tokenEventJson, ServerMessage.tokenId, htoken]
  · cases hconfig : config.partialEvents <;>
      simp [StreamEvent.isToken, hkind, partialEventJson, ServerMessage.tokenId]
  all_goals simp [StreamEvent.isToken, hkind]

/-- So are those of all events. -/
lemma eventMessages_tokens (config : RealtimeConfiguration) (n : ℕ) {es : List StreamEvent}
    (hregular : ∀ e ∈ es, e.Regular) :
    (((publicEvents n es).map Prod.snd).filterMap (eventMessage config)).filterMap
        (fun message => message.payload.tokenId) =
      if config.tokenEvents then (es.filter StreamEvent.isToken).map StreamEvent.token else [] := by
  rw [List.filterMap_filterMap]
  induction es generalizing n with
  | nil => simp [publicEvents]
  | cons e es ih =>
    have hhead := eventMessage_token config (hregular e List.mem_cons_self) (n + 1)
    have hrest := ih (n + 1) fun x hx => hregular x (List.mem_cons_of_mem e hx)
    rw [publicEvents, List.map_cons, List.filterMap_cons, hhead, hrest, List.filter_cons]
    cases config.tokenEvents <;> cases e.isToken <;> simp

/-- TOKEN events have the tokens they report. -/
lemma map_token_tokenEvents {α φ ε γ κ : Type*} (eng : Engine α φ ε γ κ) (i : ℕ) (tokens : List ℤ) :
    (tokenEvents eng i tokens).map StreamEvent.token = tokens := by
  induction tokens generalizing i with
  | nil => rfl
  | cons token tokens ih => exact congrArg (token :: ·) (ih (i + 1))

/-- The terminal messages of a stream whose last events are FINAL_TEXT and COMPLETED. -/
lemma terminal_messages (text : Bytes) (terminal : TerminalEvents) {before : List StreamEvent}
    {final done : StreamEvent} (hfinal : final.type = .finalText) (hdone : done.type = .completed) :
    ∃ ms, (((publicEvents 0 (before ++ [final, done])).map Prod.snd).foldl TerminalEvents.observe
        terminal).messages text =
      [⟨.final (before.length + 1) text ms, .mandatory⟩, ⟨.completed (before.length + 2), .mandatory⟩] := by
  have hf : (publicEvent final (0 + before.length + 1)).type = .finalText := by
    change (if final.type = .cancelled then EventType.error else final.type) = _
    rw [hfinal]
    rfl
  have hd : (publicEvent done (0 + before.length + 1 + 1)).type = .completed := by
    change (if done.type = .cancelled then EventType.error else done.type) = _
    rw [hdone]
    rfl
  rw [publicEvents_append, List.map_append, List.foldl_append]
  simp only [publicEvents, List.map_cons, List.map_nil, List.foldl_cons, List.foldl_nil]
  refine ⟨(publicEvent final (0 + before.length + 1)).audioEndMs, ?_⟩
  simp only [TerminalEvents.observe, hf, hd, TerminalEvents.messages, and_self, if_true]
  simp [publicEvent]

end Callers

/-! ## The two paths -/

section Paths

variable [Zero α] {eng : Engine α φ ε γ κ}

/-- `EngineStream::final_text` of a transcribed stream. -/
lemma Transcribed.finalText {pcm : List ℤ} {t : Stream α φ ε γ κ} (h : Transcribed eng pcm t) :
    EngineStream.finalText t = cString (streamText eng pcm) := by
  rw [EngineStream.finalText, Voxtral.finalText, if_pos h.completed, h.text]
  rfl

/-- The batch endpoint returns the text of the samples and the number of their outputs. -/
lemma transcribeBatch_transcribes (hruns : ∀ n, eng.submitFails n = false) {maxEvents : ℕ}
    (hcapacity : 38 ≤ maxEvents) (device : Device ε γ κ) {samples : List ℤ}
    (hfits : PaddedFits samples.length) {rounds : ℕ} (hrounds : enoughRounds maxEvents samples.length ≤ rounds) :
    ∃ t, transcribeBatch rounds eng (Stream.create maxEvents device) samples = some (t,
      { ok := true
        status := .ok
        text := cString (streamText eng samples)
        tokenCount := (streamOutputs eng samples).length }) := by
  have hflatten : (batchChunks samples.length samples).flatten = samples := flatten_batchChunks le_rfl
  rw [← hflatten] at hfits hrounds
  obtain ⟨t, ht, hempty, hdrive⟩ := driveStream_transcribes hruns batchCaller_goesOnRegular hcapacity
    device (length_of_mem_batchChunks_le samples.length samples) hfits hrounds {}
  rw [hflatten] at ht
  have hhistory : eventHistory t = t.events.polled := by
    rw [eventHistory, hempty, List.append_nil]
  have hregular := ht.regular
  have htokens := congrArg List.length ht.tokens
  rw [hhistory] at hregular htokens
  rw [length_tokenEvents] at htokens
  refine ⟨t, ?_⟩
  rw [transcribeBatch, hdrive, batchCaller_take 0 hregular, htokens]
  dsimp only [Option.map_some]
  rw [if_pos rfl, if_neg (not_not.mpr ht.completed), ht.finalText, Nat.zero_add]

/-- The worker enqueues the tokens of the samples, their text and the end of the session. -/
lemma inferenceWorker_transcribes (hruns : ∀ n, eng.submitFails n = false) {maxEvents : ℕ}
    (hcapacity : 38 ≤ maxEvents) (device : Device ε γ κ) (config : RealtimeConfiguration)
    {accepts : OutboundMessage ServerMessage → Bool} (haccepts : ∀ message, accepts message = true)
    {chunks : List (List ℤ)} (hshort : ∀ chunk ∈ chunks, chunk.length ≤ audioDrainSlice)
    (hfits : PaddedFits chunks.flatten.length) {rounds : ℕ}
    (hrounds : enoughRounds maxEvents chunks.flatten.length ≤ rounds) :
    ∃ t worker before n ms,
      inferenceWorker config accepts rounds eng (Stream.create maxEvents device) chunks =
        some (t, worker) ∧
      worker.failure = none ∧
      worker.enqueued = before ++ [⟨.final n (cString (streamText eng chunks.flatten)) ms, .mandatory⟩,
        ⟨.completed (n + 1), .mandatory⟩] ∧
      before.filterMap (fun message => message.payload.tokenId) =
        if config.tokenEvents then streamOutputs eng chunks.flatten else [] := by
  obtain ⟨t, ht, hempty, hdrive⟩ := driveStream_transcribes hruns (workerCaller_goesOnRegular haccepts)
    hcapacity device hshort hfits hrounds {}
  have hhistory : eventHistory t = t.events.polled := by
    rw [eventHistory, hempty, List.append_nil]
  obtain ⟨before, final, done, hended, hfinal, hdone⟩ := ht.ended
  have hregular := ht.regular
  have htokens := ht.tokens
  rw [hhistory] at hregular hended htokens
  obtain ⟨ms, hmessages⟩ := terminal_messages (EngineStream.finalText t) {} hfinal hdone
  rw [← hended] at hmessages
  set events := (publicEvents 0 t.events.polled).map Prod.snd with hevents
  set terminal := events.foldl TerminalEvents.observe {} with hterminal
  refine ⟨t, ⟨terminal, events.filterMap (eventMessage config) ++
    terminal.messages (EngineStream.finalText t), none⟩, events.filterMap (eventMessage config),
    before.length + 1, ms, ?_, rfl, ?_, ?_⟩
  · rw [inferenceWorker, hdrive, workerCaller_take config haccepts 0 hregular]
    dsimp only [Option.map_some]
    rw [if_pos rfl, ← hevents, ← hterminal, hmessages, if_neg (by simp [ht.completed]), if_pos (by simp [haccepts])]
    rfl
  · rw [hmessages, ht.finalText]
  · rw [eventMessages_tokens config 0 hregular, htokens, map_token_tokenEvents]

/-- Messages beside the transcript are about no token. -/
lemma filterMap_tokenId_filter (messages : List ServerMessage) :
    (messages.filter fun message => !message.isAside).filterMap ServerMessage.tokenId =
      messages.filterMap ServerMessage.tokenId := by
  rw [List.filterMap_filter]
  refine List.filterMap_congr fun message _ => ?_
  cases message <;> rfl

/-- An undisturbed session says the outputs of its samples, their text and its end, and nothing else. -/
lemma session_transcribes (hruns : ∀ n, eng.submitFails n = false) {maxEvents : ℕ}
    (hcapacity : 38 ≤ maxEvents) (device : Device ε γ κ) (config : RealtimeConfiguration)
    {chunks : List (List ℤ)} (hsize : ∀ chunk ∈ chunks, chunk ≠ [] ∧ chunk.length ≤ audioDrainSlice)
    (hfits : PaddedFits chunks.flatten.length) :
    ∃ bound before n ms,
      before.filterMap ServerMessage.tokenId =
        (if config.tokenEvents then streamOutputs eng chunks.flatten else []) ∧
      ∀ steps s os,
        runSteps (StreamSession.step config eng)
          (StreamSession.start (Stream.create maxEvents device) chunks) steps = some (s, os) →
        RunMeets (StreamSession.step config eng) StreamSession.Undisturbed
          (StreamSession.start (Stream.create maxEvents device) chunks) steps →
        StreamSession.Follows config eng bound
          (before ++ [.final n (cString (streamText eng chunks.flatten)) ms, .completed (n + 1)]) steps s := by
  have haccepts : ∀ message, (fun _ : OutboundMessage ServerMessage => true) message = true := fun _ => rfl
  obtain ⟨t, worker, before, n, ms, hworker, hfailure, henqueued, htokens⟩ :=
    inferenceWorker_transcribes hruns hcapacity device config haccepts
      (fun chunk hchunk => (hsize chunk hchunk).2) hfits le_rfl
  obtain ⟨bound, hfollows⟩ :=
    StreamSession.follows_of_undisturbed (fun chunk hchunk => (hsize chunk hchunk).1) hworker
  have hsent : worker.sent = (before.map OutboundMessage.payload).filter (fun message => !message.isAside) ++
      [.final n (cString (streamText eng chunks.flatten)) ms, .completed (n + 1)] := by
    rw [InferenceWorker.sent, hfailure, List.append_nil, InferenceWorker.transcript, henqueued,
      List.map_append, List.filter_append]
    rfl
  rw [hsent] at hfollows
  refine ⟨bound, _, n, ms, ?_, hfollows⟩
  rw [filterMap_tokenId_filter, List.filterMap_map]
  exact htokens

end Paths

/-- **The transcript depends on the samples alone.**  When no graph fails, the queue of the stream holds 38
events and the padded samples fit the 32-bit range, the whole-body endpoint, if nobody cancels it, answers
with the text of its samples and the number of their decoder outputs.  For the same samples, however a
session's client split them and its input path handed them on, and however the two threads of the session are
interleaved, its worker says the same outputs as tokens, if they are asked for, then the same text and the
end of the session, and it gets there, as long as nobody requests a cancellation, the session stays open, the
lag stays below its hard limit and the final text fits the outbound queue.  It is the text of the finish-only
reference. -/
theorem transcript_of_samples [Zero α] {eng : Engine α φ ε γ κ}
    (hruns : ∀ n, eng.submitFails n = false) {maxEvents : ℕ} (hcapacity : 38 ≤ maxEvents)
    (device : Device ε γ κ) {samples : List ℤ} (hfits : PaddedFits samples.length) :
    (∃ least, ∀ rounds, least ≤ rounds → ∃ t,
      transcribeBatch rounds eng (Stream.create maxEvents device) samples = some (t,
        { ok := true
          status := .ok
          text := cString (streamText eng samples)
          tokenCount := (streamOutputs eng samples).length })) ∧
    (∀ (config : RealtimeConfiguration) (capacity : ℕ) (calls : List PcmCall) (path : PcmPath)
        (results : List (Option PopResult)),
      runSteps PcmPath.step (PcmPath.start capacity) calls = some (path, results) →
      (poppedChunks results).flatten = samples →
      ∃ bound before n ms,
        before.filterMap ServerMessage.tokenId =
          (if config.tokenEvents then streamOutputs eng samples else []) ∧
        ∀ steps s os,
          runSteps (StreamSession.step config eng)
            (StreamSession.start (Stream.create maxEvents device) (poppedChunks results)) steps =
              some (s, os) →
          RunMeets (StreamSession.step config eng) StreamSession.Undisturbed
            (StreamSession.start (Stream.create maxEvents device) (poppedChunks results)) steps →
          StreamSession.Follows config eng bound
            (before ++ [.final n (cString (streamText eng samples)) ms, .completed (n + 1)]) steps s) ∧
    (samples ≠ [] → utteranceReference eng samples =
      some ⟨(streamOutputs eng samples).filter fun t => t ≠ tokenEos, streamText eng samples⟩) := by
  refine ⟨⟨_, fun rounds => transcribeBatch_transcribes hruns hcapacity device hfits⟩, ?_,
    streamText_reference eng⟩
  intro config capacity calls path results hrun hsamples
  subst hsamples
  refine session_transcribes hruns hcapacity device config (fun chunk hchunk => ?_) hfits
  obtain ⟨hne, hlength⟩ := poppedChunks_size hrun chunk hchunk
  exact ⟨hne, hlength.trans (by decide)⟩

/-- Three samples, as a body, and as a frame of a session whose client finishes at once. -/
theorem transcript_of_samples_three :
    (∃ least, ∀ rounds, least ≤ rounds → ∃ t result,
      transcribeBatch rounds (plainEngine defaultSchedule) (Stream.create 64 plainDevice) [1, 2, -1] =
        some (t, result) ∧ result.ok = true) ∧
    ∃ path results, runSteps PcmPath.step (PcmPath.start 16)
        [.readBinary [1, 0, 2, 0, 255, 255], .pump, .pump, .pop] = some (path, results) ∧
      ∃ steps s os, runSteps (StreamSession.step ⟨true, true⟩ (plainEngine defaultSchedule))
          (StreamSession.start (Stream.create 64 plainDevice) (poppedChunks results)) steps = some (s, os) ∧
        s.threads.worker = .done ∧ ∃ before n ms,
          s.transcript = before ++ [.final n
            (cString (streamText (plainEngine defaultSchedule) [1, 2, -1])) ms, .completed (n + 1)] := by
  have hruns : ∀ n, (plainEngine defaultSchedule).submitFails n = false := fun _ => rfl
  have hfits : PaddedFits ([1, 2, -1] : List ℤ).length := by
    change 40960 + 3 + finishRightPad 3 < 2 ^ 31
    decide
  obtain ⟨⟨least, hbatch⟩, hsession, -⟩ :=
    transcript_of_samples hruns (show 38 ≤ 64 by decide) plainDevice hfits
  have hpops : ∃ path results, runSteps PcmPath.step (PcmPath.start 16)
      [.readBinary [1, 0, 2, 0, 255, 255], .pump, .pump, .pop] = some (path, results) ∧
        (poppedChunks results).flatten = [1, 2, -1] := by
    refine ⟨_, _, rfl, ?_⟩
    decide
  obtain ⟨path, results, hrun, hthree⟩ := hpops
  refine ⟨⟨least, fun rounds hrounds => ?_⟩, path, results, hrun, ?_⟩
  · obtain ⟨t, ht⟩ := hbatch rounds hrounds
    exact ⟨t, _, ht, rfl⟩
  · obtain ⟨bound, before, n, ms, -, hfollows⟩ := hsession ⟨true, true⟩ 16 _ path results hrun hthree
    set start : StreamSession ℤ Unit Unit Unit Unit :=
      StreamSession.start (Stream.create 64 plainDevice) (poppedChunks results) with hstart
    -- the client finishes, and then the worker runs to its end
    have hcalm : start.threads.Calm := ⟨rfl, rfl⟩
    have hfinish : runSteps (StreamSession.step ⟨true, true⟩ (plainEngine defaultSchedule)) start
        [.io .readFinish] = some (⟨{ start.threads.readDone with
          inputEnded := true, inputFinishing := true }, start.input⟩, [()]) := rfl
    have hfinished := hfollows _ _ _ hfinish ⟨⟨hcalm, trivial⟩, fun _ _ _ => trivial⟩
    obtain ⟨k, s, os, hworker, hmeets, hdone⟩ := hfinished.finishes ⟨rfl, rfl⟩ rfl
    have hall := runSteps_append.mpr ⟨_, _, _, hfinish, hworker, rfl⟩
    refine ⟨_, s, _, hall, hdone, before, n, ms, (hfollows _ _ _ hall ?_).done hdone⟩
    refine ⟨⟨hcalm, trivial⟩, fun s' o hstep => ?_⟩
    obtain ⟨rfl, -⟩ := Prod.mk.inj (Option.some.inj hstep)
    exact hmeets

end Voxtral
