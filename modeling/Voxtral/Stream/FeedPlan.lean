import Voxtral.Stream.Acceptance
import Voxtral.Stream.Reference
import Voxtral.Stream.StableText

/-!
# Feed-plan invariance

While audio arrives the audio-embedding ring holds, at the positions the decoder still has to read, the
embeddings of the encoder frames, and the decoder state is the one `decodeN` computes from them
(`Faithful`).  A stream that completed has decoded the frames of the whole padded signal, so its TOKEN
events, tokens and transcript are those of the finish-only reference, whatever the feeds, polls and
stalls in between.
-/

namespace Voxtral

variable {α φ ε γ κ : Type*}

/-! ## Embeddings and steps -/

/-- The audio embedding of a group of the encoder frames of `melHistory`. -/
def embeddingAt (eng : Engine α φ ε γ κ) (melHistory : List φ) (group : ℕ) : γ :=
  eng.adapterGroup
    ((List.range' (downsampleFactor * group) downsampleFactor).map (encoderFrameAt eng melHistory))

/-- The token a decoding entry says a step returned. -/
def TraceEntry.stepToken : TraceEntry ε γ → Option ℤ
  | .decoderStep _ _ _ result => some result
  | _ => none

/-- What the decoder steps of a history returned. -/
def stepTokens (trace : List (TraceEntry ε γ)) : List ℤ := trace.filterMap TraceEntry.stepToken

/-- The token of a decoding entry, if it is a step. -/
def DecodeEntry.stepToken : DecodeEntry → Option ℤ
  | .step _ _ result => some result
  | .delivered _ => none

/-- The ring and the decoder state are those of the encoder frames. -/
structure Faithful (eng : Engine α φ ε γ κ) (s : Stream α φ ε γ κ) : Prop where
  /-- The Mel frames of the committed groups were pushed. -/
  seen : 8 * s.decoder.adapterGroupsCommitted ≤ s.frontend.enc.melHistory.length
  held : s.device.audioEmbRing.Holds aembRingCap (embeddingAt eng s.frontend.enc.melHistory)
    (consumedFloor s) s.decoder.adapterGroupsCommitted
  reads : s.decoder.decoderPrefillDone = true →
    firstPosition + (stepTokens s.trace).length ≤ s.decoder.adapterGroupsCommitted
  decoded : s.decoder.decoderPrefillDone = true →
    decodeN eng (embeddingAt eng s.frontend.enc.melHistory) (stepTokens s.trace).length =
      (s.device.decKv, stepTokens s.trace)

section Steps

variable {eng : Engine α φ ε γ κ} {late : Prop} {s s' : Stream α φ ε γ κ} {tokens : List ℤ}

/-- The tokens of the steps of two histories. -/
lemma stepTokens_append (trace more : List (TraceEntry ε γ)) :
    stepTokens (trace ++ more) = stepTokens trace ++ stepTokens more := List.filterMap_append

/-- Entries that are no reads of the device rings are no steps. -/
lemma stepTokens_quiet {more : List (TraceEntry ε γ)} (h : ∀ e ∈ more, TraceEntry.IsQuiet e) :
    stepTokens more = [] := by
  rw [stepTokens, List.filterMap_eq_nil_iff]
  intro e he
  have hquiet := h e he
  cases e <;> first | rfl | exact absurd hquiet id

/-- The steps of a history are those of its decoding entries. -/
lemma stepTokens_decodeEntries (trace : List (TraceEntry ε γ)) :
    stepTokens trace = (decodeEntries trace).filterMap DecodeEntry.stepToken := by
  rw [stepTokens, decodeEntries, List.filterMap_filterMap]
  congr 1
  funext e
  cases e with
  | enqueued event _ =>
    unfold TraceEntry.decodeEntry
    dsimp only
    split_ifs <;> rfl
  | _ => rfl

/-- The tokens of the deliveries are the tokens delivered. -/
lemma filterMap_deliveries (prevToken : ℤ) (i : ℕ) (tokens : List ℤ) :
    (deliveries eng prevToken i tokens).filterMap DecodeEntry.stepToken = tokens := by
  induction tokens generalizing prevToken i with
  | nil => rfl
  | cons token tokens ih =>
    rw [deliveries]
    exact congrArg (token :: ·) (ih token (i + 1))

/-- The steps of a stream are the delivered tokens and the stashed one. -/
lemma Delivered.stepTokens (h : Delivered eng s tokens) :
    stepTokens s.trace = tokens ++ (s.decoder.pending.map PendingToken.token).toList := by
  rw [stepTokens_decodeEntries, h.entries, List.filterMap_append, filterMap_deliveries]
  cases s.decoder.pending <;> rfl

/-- An embedding depends on the Mel frames its rows attend to only. -/
lemma embeddingAt_of_grown {history history' : List φ} (hgrown : history <+: history') {group : ℕ}
    (hseen : 8 * (group + 1) ≤ history.length) :
    embeddingAt eng history' group = embeddingAt eng history group := by
  obtain ⟨frames, rfl⟩ := hgrown
  unfold embeddingAt
  congr 1
  refine List.map_congr_left fun e he => encoderFrameAt_append history frames ?_
  have hmem := List.mem_range'_1.mp he
  rw [encFramesRealizable_eq]
  simp only [downsampleFactor] at hmem
  omega

/-- The first steps see the same embeddings while the history grows. -/
lemma decodeN_of_grown {history history' : List φ} (hgrown : history <+: history') {n : ℕ}
    (hseen : 8 * (firstPosition + n) ≤ history.length) :
    decodeN eng (embeddingAt eng history') n = decodeN eng (embeddingAt eng history) n :=
  decodeN_congr fun p hp => embeddingAt_of_grown hgrown (by omega)

/-- Quiet changes. -/
lemma Faithful.quiet (h : Faithful eng s) (hchange : QuietChange s s') : Faithful eng s' := by
  obtain ⟨more, htrace, hmore⟩ := hchange.trace
  have hsteps : Voxtral.stepTokens s'.trace = Voxtral.stepTokens s.trace := by
    rw [htrace, stepTokens_append, stepTokens_quiet hmore, List.append_nil]
  have hcommitted : s'.decoder.adapterGroupsCommitted = s.decoder.adapterGroupsCommitted := by
    rw [hchange.decoder]
  have hprefill : s'.decoder.decoderPrefillDone = s.decoder.decoderPrefillDone := by
    rw [hchange.decoder]
  have hseen := h.seen
  refine ⟨?_, ?_, ?_, ?_⟩
  · rw [hcommitted]
    exact hseen.trans hchange.history.length_le
  · rw [hchange.audioEmbRing, hchange.consumedFloor, hcommitted]
    exact h.held.congr fun p _ hp => (embeddingAt_of_grown hchange.history (by omega)).symm
  · rw [hprefill, hsteps, hcommitted]
    exact h.reads
  · rw [hprefill, hsteps, hchange.decKv]
    intro hdone
    have hreads := h.reads hdone
    rw [decodeN_of_grown hchange.history (by omega)]
    exact h.decoded hdone

/-- Changes that leave the ring, the decoder state and the history of steps alone. -/
lemma Faithful.of_same (h : Faithful eng s) (hfrontend : s'.frontend = s.frontend)
    (hring : s'.device.audioEmbRing = s.device.audioEmbRing)
    (hkv : s'.device.decKv = s.device.decKv)
    (hsteps : Voxtral.stepTokens s'.trace = Voxtral.stepTokens s.trace)
    (hcommitted : s'.decoder.adapterGroupsCommitted = s.decoder.adapterGroupsCommitted)
    (hprefill : s'.decoder.decoderPrefillDone = s.decoder.decoderPrefillDone)
    (hfloor : consumedFloor s ≤ consumedFloor s') : Faithful eng s' := by
  refine ⟨?_, ?_, ?_, ?_⟩
  · rw [hfrontend, hcommitted]
    exact h.seen
  · rw [hfrontend, hring, hcommitted]
    exact h.held.mono hfloor le_rfl
  · rw [hprefill, hsteps, hcommitted]
    exact h.reads
  · rw [hprefill, hsteps, hfrontend, hkv]
    exact h.decoded

/-- A group written ahead leaves the committed ones in place. -/
lemma Faithful.commitGroup (h : Faithful eng s) {group : ℕ}
    (hcommitted : s.decoder.adapterGroupsCommitted ≤ group)
    (hcap : group < consumedFloor s + aembRingCap) : Faithful eng (commitGroup eng s group) := by
  have hsteps : Voxtral.stepTokens (Voxtral.commitGroup eng s group).trace =
      Voxtral.stepTokens s.trace := by
    rw [Voxtral.commitGroup, stepTokens_append]
    exact List.append_nil _
  refine ⟨h.seen, ?_, ?_, ?_⟩
  · intro p hlo hhi
    have hlt : p < s.decoder.adapterGroupsCommitted := hhi
    have hfloor : consumedFloor s ≤ p := hlo
    have hheld := h.held p hlo hhi
    rw [← HistoryRing.read_write_of_near s.device.audioEmbRing
      (eng.adapterGroup ((adapterRows s.device.encOutRing group).map RingRow.value))
      (show p < group by omega) (show group < p + aembRingCap by omega)] at hheld
    exact hheld
  · rw [hsteps]
    exact h.reads
  · rw [hsteps]
    exact h.decoded

/-- The groups written become the committed ones: they were computed from rows that were in the
encoder ring. -/
lemma Faithful.advanceAdapter (h : Faithful eng s) (hrows : RowsInRing s) (hring : RingReady eng s)
    {committed : ℕ} (hgrow : s.decoder.adapterGroupsCommitted < committed)
    (hcap : committed ≤ consumedFloor s + aembRingCap)
    (havail : committed ≤ s.frontend.enc.emitted / downsampleFactor)
    (hwritten : ∀ g, s.decoder.adapterGroupsCommitted ≤ g → g < committed →
      s.device.audioEmbRing.read aembRingCap g =
        ⟨g, eng.adapterGroup ((adapterRows s.device.encOutRing g).map RingRow.value)⟩) :
    Faithful eng (advanceAdapter s committed) := by
  refine ⟨?_, ?_, fun hdone => (h.reads hdone).trans hgrow.le, h.decoded⟩
  · have hseen := hring.seen
    have hemitted := havail
    simp only [downsampleFactor] at hemitted
    change 8 * committed ≤ _
    exact le_trans (by omega) hseen
  · intro g hlo hhi
    by_cases hold : g < s.decoder.adapterGroupsCommitted
    · exact h.held g hlo hold
    · have hge := not_lt.mp hold
      have hlt : g < committed := hhi
      have hread := hwritten g hge hlt
      rw [RingReady.adapterRows hring (hrows.group hge (by omega)) (by omega), List.map_map] at hread
      exact hread

/-- The prefill reads the embeddings of the prompt. -/
lemma Faithful.prefill (h : Faithful eng s) (hd : Delivered eng s tokens) (hw : DecoderWithin s)
    (hfresh : s.decoder.decoderPrefillDone = false)
    (hready : promptLength - 1 ≤ s.decoder.adapterGroupsCommitted) :
    Faithful eng (prefillDecoder eng s) := by
  have hnone : Voxtral.stepTokens (prefillDecoder eng s).trace = [] := by
    rw [prefillDecoder, stepTokens_append, hd.stepTokens, hd.fresh hfresh, (hw.fresh hfresh).1]
    rfl
  have hfloor : consumedFloor s = 0 := if_neg (by simp [hfresh])
  have hprompt : (prefillRows s).map RingRow.value =
      (List.range (promptLength - 1)).map (embeddingAt eng s.frontend.enc.melHistory) := by
    rw [prefillRows, List.map_map]
    refine List.map_congr_left fun p hp => ?_
    have hlt := List.mem_range.mp hp
    rw [Function.comp_apply, h.held p (by omega) (by omega)]
  refine ⟨h.seen, h.held.mono (by omega) le_rfl, fun _ => ?_, fun _ => ?_⟩
  · rw [hnone]
    exact hready
  · rw [hnone]
    change _ = (eng.prefill _ _, _)
    rw [hprompt]
    rfl

/-- A decoder step reads the embedding of its position. -/
lemma Faithful.decoderStep (h : Faithful eng s) (hd : Delivered eng s tokens)
    (hprefill : s.decoder.decoderPrefillDone = true) (hpending : s.decoder.pending = none)
    (hmay : decoderMayStep s) : Faithful eng (stepDecoder eng s) := by
  obtain ⟨hposition, hprev⟩ := hd.cursor hprefill hmay.2.1
  have hlt := hmay.1
  have hfloor : consumedFloor s = s.decoder.decoderPosition := if_pos hprefill
  have hbefore : Voxtral.stepTokens s.trace = tokens := by
    rw [hd.stepTokens, hpending]
    exact List.append_nil _
  have hafter : Voxtral.stepTokens (stepDecoder eng s).trace = tokens ++ [(stepResult eng s).1] := by
    rw [stepDecoder, stepTokens_append, hbefore]
    rfl
  have hdecoded := h.decoded hprefill
  rw [hbefore] at hdecoded
  have hrow : (stepRow s).value =
      embeddingAt eng s.frontend.enc.melHistory (firstPosition + tokens.length) := by
    rw [stepRow, hposition, h.held _ (by omega) (by omega)]
  have hresult : stepResult eng s = eng.decoderStep s.device.decKv
      (tokens.getLastD lastPromptToken) (firstPosition + tokens.length)
      (embeddingAt eng s.frontend.enc.melHistory (firstPosition + tokens.length)) := by
    rw [stepResult, hrow, hprev, hposition]
  refine ⟨h.seen, h.held, fun _ => ?_, fun _ => ?_⟩
  · rw [hafter, List.length_append, List.length_singleton]
    change _ ≤ s.decoder.adapterGroupsCommitted
    omega
  · have hnext : decodeN eng (embeddingAt eng s.frontend.enc.melHistory) (tokens.length + 1) =
        ((stepResult eng s).2, tokens ++ [(stepResult eng s).1]) := by
      rw [decodeN, hdecoded, hresult]
    rw [hafter, List.length_append, List.length_singleton]
    exact hnext

/-- Every atomic change of a pump keeps the stream faithful, as long as the rows it reads are in the
encoder ring. -/
lemma PumpStep.faithful (hstep : PumpStep eng s s') (hw : DecoderWithin s) (hrows : RowsInRing s)
    (hring : RingReady eng s) (hd : Delivered eng s tokens) (h : Faithful eng s) :
    Faithful eng s' := by
  have hforward := hstep.forward.1
  cases hstep with
  | bookkeep => exact h.of_same rfl rfl rfl rfl rfl rfl le_rfl
  | commitGroup group hcommitted hcap => exact h.commitGroup hcommitted hcap
  | advanceAdapter committed hgrow hcap havail hwritten =>
    exact h.advanceAdapter hrows hring hgrow hcap havail hwritten
  | prefill hfresh hready => exact h.prefill hd hw hfresh hready
  | decoderStep hprefill hpending hmay => exact h.decoderStep hd hprefill hpending hmay
  | deliver p hprefill hpending hroom =>
    have hframe := (PumpStep.deliver s p hprefill hpending hroom : PumpStep eng _ _).frame
    obtain ⟨more, htrace, hquiet⟩ := deliverPending_quiet eng s p
    have hdec := deliverPending_decoder eng s p
    refine h.of_same hframe.frontend ?_ ?_ ?_ ?_ ?_ hforward
    · rw [deliverPending_device]
    · rw [deliverPending_device]
    · rw [htrace, stepTokens_append, stepTokens_quiet hquiet, List.append_nil]
    · rw [hdec, decoderAfter]
      split_ifs <;> rfl
    · rw [hdec, decoderAfter]
      split_ifs <;> rfl

/-- Every transition keeps the stream faithful, as long as no feed runs late. -/
lemma Transition.faithful (hstep : Transition eng False s s') (hw : DecoderWithin s)
    (hd : Delivered eng s tokens) (h : Faithful eng s) : Faithful eng s' := by
  rcases hstep.pump_or_quiet with ⟨-, -, hrows, hring, hpump⟩ | hquiet
  · exact hpump.faithful hw (hrows.resolve_left id) hring hd h
  · exact h.quiet hquiet

/-- A new stream committed nothing. -/
lemma faithful_create (eng : Engine α φ ε γ κ) (maxEvents : ℕ) (device : Device ε γ κ) :
    Faithful eng (Stream.create maxEvents device) where
  seen := le_rfl
  held := fun p _ hp => absurd hp (Nat.not_lt_zero p)
  reads := fun h => absurd h Bool.false_ne_true
  decoded := fun h => absurd h Bool.false_ne_true

end Steps

/-! ## Finished streams -/

/-- The encoder rows of a padded signal. -/
def encoderRows (eng : Engine α φ ε γ κ) (melHistory : List φ) : List ε :=
  (List.range (encFramesRealizable melHistory.length)).map (encoderFrameAt eng melHistory)

section Finished

variable {eng : Engine α φ ε γ κ} {s s' : Stream α φ ε γ κ} {tokens : List ℤ}

/-- The adapter reads the encoder rows group by group. -/
lemma runAdapter_encoderRows {melHistory : List φ} {groups : ℕ}
    (hlen : melHistory.length = 8 * groups) :
    runAdapter eng (encoderRows eng melHistory) =
      (List.range groups).map (embeddingAt eng melHistory) := by
  have hrows : (encoderRows eng melHistory).length = 4 * groups := by
    rw [encoderRows, List.length_map, List.length_range, encFramesRealizable_eq, hlen]
    omega
  have hgroups : (encoderRows eng melHistory).length / downsampleFactor = groups := by
    rw [hrows]
    exact Nat.mul_div_cancel_left groups (by decide)
  rw [runAdapter, hgroups]
  refine List.map_congr_left fun group hgroup => ?_
  have hlt := List.mem_range.mp hgroup
  rw [embeddingAt]
  congr 1
  refine List.ext_getElem ?_ fun i hi hi' => ?_
  · rw [List.length_take, List.length_drop, hrows, List.length_map, List.length_range']
    simp only [downsampleFactor]
    omega
  · rw [List.getElem_take, List.getElem_drop, List.getElem_map, List.getElem_range', Nat.one_mul]
    simp only [encoderRows, List.getElem_map, List.getElem_range]

variable [Zero α]

variable (eng) in
/-- A padded signal has eight Mel frames for every audio group. -/
lemma length_melRows_finishedSignal (samples : List α) :
    (melRows eng (finishedSignal samples)).length = 8 * finishGroups samples.length := by
  have hlen := length_finished samples.length
  rw [melRows, List.length_map, List.length_range, finalFrameCount, finishedSignal,
    List.length_append, List.length_append, List.length_replicate, List.length_replicate,
    show streamLeftPad = 40960 from rfl, hlen]
  omega

/-- A faithful stream that finished decoded all positions of the padded signal, or up to the end. -/
lemma Finished.outputs (hfinished : Finished eng False s) (hd : Delivered eng s tokens)
    (h : Faithful eng s) :
    audioOutputs eng (embeddingAt eng (melRows eng (finishedSignal s.frontend.realSamples)))
      (finishGroups s.frontend.realSamples.length) = tokens := by
  obtain ⟨hprefill, hend⟩ := hfinished.decoded.resolve_left id
  have hsteps : stepTokens s.trace = tokens := by
    rw [hd.stepTokens, hfinished.pending]
    exact List.append_nil _
  have hdecoded := h.decoded hprefill
  have hreads := h.reads hprefill
  have hseen := h.seen
  rw [hsteps] at hreads
  rw [hfinished.flushed.history, length_melRows_finishedSignal] at hseen
  rw [hsteps, hfinished.flushed.history] at hdecoded
  refine audioOutputs_of_decodeN hdecoded (by omega) ?_
  rcases hd.ended with ⟨heos, hall⟩ | ⟨-, before, hbefore, hall⟩
  · have hposition := hend.resolve_left (by simp [heos])
    exact Or.inl ⟨((hd.cursor hprefill heos).1.symm.trans hposition), hall⟩
  · exact Or.inr ⟨before, hbefore, hall⟩

/-- A finish that succeeds completes the stream, unless it was cancelled before. -/
lemma finishInternal_completes (h : finishInternal eng s = some (s', .ok))
    (hcancelled : s'.lifecycle.state ≠ .cancelled) : s'.lifecycle.state = .completed := by
  generalize hstatus : Status.ok = status at h
  cases finishInternal_call h with
  | ended hended => exact hended.resolve_right hcancelled
  | failed | finishing | stalled | pumpFailed => exact absurd hstatus (by decide)
  | live _ _ hpath =>
    cases hpath with
    | empty => rfl
    | completed => rfl
    | frontendFailed => exact absurd hstatus (by decide)
    | pumpFailed => exact absurd hstatus (by decide)

/-- Feeds of at most one slice keep up. -/
lemma keepsUp_of_slices {ops : List Op} (hshort : ∀ op ∈ ops, op.sampleCount ≤ audioDrainSlice)
    (s : Stream α φ ε γ κ) : RunMeets (streamStep eng) (KeepsUp eng) s ops := by
  refine runMeets_of_forall (fun op hop t => ?_) s
  cases op with
  | feed buf =>
    have hslice : buf.samples.length ≤ 16000 := hshort _ hop
    exact keepsUp_of_le t (by omega)
  | poll | finish | cancel => trivial

/-- In every run whose feeds keep up, the stream delivered some tokens and is faithful. -/
lemma exists_delivered_faithful {maxEvents : ℕ} {device : Device ε γ κ} {ops : List Op}
    {os : List Response}
    (hkeep : RunMeets (streamStep eng) (KeepsUp eng) (Stream.create maxEvents device) ops)
    (hrun : runSteps (streamStep eng) (Stream.create maxEvents device) ops = some (s, os)) :
    ∃ tokens, Delivered eng s tokens ∧ Faithful eng s := by
  refine stream_invariant False (I := fun s => ∃ tokens, Delivered eng s tokens ∧ Faithful eng s)
    ?_ ?_ ⟨[], delivered_create eng maxEvents device, faithful_create eng maxEvents device⟩
    (Or.inr hkeep) hrun
  · rintro t t' hstep hw ⟨tokens, hd, h⟩
    obtain ⟨tokens', hd'⟩ := hstep.delivered hw hd
    exact ⟨tokens', hd', hstep.faithful hw hd h⟩
  · rintro t ⟨tokens, hd, h⟩
    exact ⟨tokens, hd.poll, h.quiet (streamPollEvent_quiet t)⟩

end Finished

/-! ## Feed plans -/

/-- The decoder outputs of the padded signal of `pcm`: those at the audio positions 38, 39, … up to
the last group, or to the first end of the stream. -/
def utteranceOutputs [Zero α] (eng : Engine α φ ε γ κ) (pcm : List ℤ) : List ℤ :=
  audioOutputs eng (embeddingAt eng (melRows eng (finishedSignal (pcm.map eng.sampleOf))))
    (finishGroups pcm.length)

/-- The finish-only reference on the encoder frames of the padded signal of `pcm`. -/
def utteranceReference [Zero α] (eng : Engine α φ ε γ κ) (pcm : List ℤ) : Option VoxtralResult :=
  runAdapterAndDecodeRealtime eng
    (encoderRows eng (melRows eng (finishedSignal (pcm.map eng.sampleOf)))) 0

/-- The reference returns the outputs without the end of the stream, and their text. -/
lemma utteranceReference_eq [Zero α] (eng : Engine α φ ε γ κ) (pcm : List ℤ) :
    utteranceReference eng pcm = some ⟨(utteranceOutputs eng pcm).filter fun t => t ≠ tokenEos,
      decodeTokens eng.tokenizer ((utteranceOutputs eng pcm).filter fun t => t ≠ tokenEos)⟩ := by
  have hlen := length_melRows_finishedSignal eng (pcm.map eng.sampleOf)
  rw [List.length_map] at hlen
  refine runAdapterAndDecodeRealtime_eq (runAdapter_encoderRows hlen) ?_
  simp only [promptLength, finishGroups]
  omega

/-- **Feed-plan invariance.**  However a caller splits the samples `pcm` into feeds of at most one
slice, and whenever it polls, resumes and retries in between: once a finish returned `ok`, the TOKEN
events the caller polled and can still poll are those of the outputs of the padded signal, numbered and
positioned one by one, and tokens and transcript are those of the finish-only reference. -/
theorem feed_plan_invariance [Zero α] (eng : Engine α φ ε γ κ) (maxEvents : ℕ)
    (device : Device ε γ κ) (ops : List Op) (s : Stream α φ ε γ κ) (os : List Response)
    (hshort : ∀ op ∈ ops, op.sampleCount ≤ audioDrainSlice)
    (hrun : runSteps (streamStep eng) (Stream.create maxEvents device) (ops ++ [.finish]) =
      some (s, os ++ [.finish .ok]))
    (hcancelled : s.lifecycle.state ≠ .cancelled) (hne : acceptedPcm (ops.zip os) ≠ []) :
    (((polledEvents os).map Prod.fst ++ s.events.queue).filter StreamEvent.isToken =
        tokenEvents eng 0 (utteranceOutputs eng (acceptedPcm (ops.zip os)))) ∧
      ∃ result, utteranceReference eng (acceptedPcm (ops.zip os)) = some result ∧
        s.decoder.tokens = result.tokens ∧ s.decoder.transcript = result.text := by
  have hkeep : RunMeets (streamStep eng) (KeepsUp eng) (Stream.create maxEvents device)
      (ops ++ [.finish]) := by
    refine keepsUp_of_slices (fun op hop => ?_) _
    rcases List.mem_append.mp hop with hop | hop
    · exact hshort op hop
    · rw [List.mem_singleton.mp hop]
      exact Nat.zero_le _
  obtain ⟨tokens, hd, hfaithful⟩ := exists_delivered_faithful hkeep hrun
  have hready := (runSteps_moves (opReady_create eng False maxEvents device) (Or.inr hkeep) hrun).2
  have htext := stream_invariant True (fun _ _ hstep _ h => hstep.stableText h) (fun _ h => h.poll)
    (stableText_create maxEvents device) (Or.inl trivial) hrun
  have hpolled : polledEvents os = publicEvents 0 s.events.polled := by
    rw [← polledEvents_create hrun, polledEvents, polledEvents, List.filterMap_append]
    exact (List.append_nil _).symm
  -- the finish is the last step
  obtain ⟨t, os₁, os₂, hbefore, hlast, hos⟩ := runSteps_append.mp hrun
  obtain ⟨r, hstep, rfl⟩ := runSteps_singleton.mp hlast
  obtain ⟨rfl, hr⟩ := List.append_inj' hos rfl
  obtain rfl := List.singleton_injective hr
  have hlive := (runSteps_moves (opReady_create eng True maxEvents device) (Or.inl trivial)
    hbefore).2
  obtain ⟨⟨u, status⟩, hfinish, hu⟩ := Option.map_eq_some_iff.mp hstep
  obtain ⟨rfl, hresponse⟩ := Prod.mk.inj hu
  obtain rfl : status = .ok := mapStatus_eq_ok (Response.finish.inj hresponse)
  have hcompleted := finishInternal_completes hfinish hcancelled
  have hsamples := ((handedIn_run hbefore).step hlive hstep).samples (Or.inr hcompleted)
  generalize hpcm : acceptedPcm (ops.zip os) = pcm at hne hsamples ⊢
  have hreal : u.frontend.realSamples = pcm.map eng.sampleOf := by
    rw [hsamples]
    exact congrArg _ (List.append_nil pcm)
  have hfinished := hready.completed hcompleted (by simpa [hreal] using hne)
  have houtputs := hfinished.outputs hd hfaithful
  rw [hreal, List.length_map] at houtputs
  have htokens : utteranceOutputs eng pcm = tokens := houtputs
  refine ⟨?_, _, utteranceReference_eq eng pcm, ?_, ?_⟩
  · rw [hpolled, map_fst_publicEvents, htokens]
    exact hd.events
  · rw [htokens]
    exact hd.kept
  · rw [htext.completed hcompleted, hd.text, flatMap_tokenPiece, htokens]

/-- A second of audio, fed at once and finished. -/
theorem feed_plan_invariance_second : ∃ s pcm,
    runSteps (streamStep (plainEngine defaultSchedule)) (Stream.create 64 plainDevice)
      ([feedZeros 16000] ++ [.finish]) = some (s, [.feed .ok 16000] ++ [.finish .ok]) ∧
    pcm.length = 16000 ∧
    s.events.queue.filter StreamEvent.isToken =
      tokenEvents (plainEngine defaultSchedule) 0 (utteranceOutputs (plainEngine defaultSchedule) pcm) ∧
    ∃ result, utteranceReference (plainEngine defaultSchedule) pcm = some result ∧
      s.decoder.tokens = result.tokens ∧ s.decoder.transcript = result.text := by
  obtain ⟨s, os, hrun, hos, halike⟩ := exists_pacedRun (plainEngine_runs defaultSchedule) 64
    ([feedZeros 16000] ++ [.finish]) (by simp [TotalFits])
  simp only [List.map_append, List.map_cons, feedZeros_paced, finish_paced, List.map_nil] at hos halike
  have hmodel : let m := (pacedRun (plainEngine defaultSchedule) 64 plainDevice
      ([.feed false 16000] ++ [.finish]))
      m.2 = [.feed .ok 16000, .finish .ok] ∧ m.1.lifecycle.state = .completed := by
    decide +kernel
  simp only [hos, halike.lifecycle] at hmodel
  obtain ⟨rfl, hstate⟩ := hmodel
  have hshort : ∀ n ≤ 16000, ∀ op ∈ [feedZeros n], op.sampleCount ≤ audioDrainSlice := by
    intro n hn op hop
    rw [List.mem_singleton.mp hop]
    exact (le_of_eq List.length_replicate).trans hn
  have hinvariant := feed_plan_invariance (plainEngine defaultSchedule) 64 plainDevice
    [feedZeros 16000] s [.feed .ok 16000] (hshort 16000 le_rfl) hrun (by simp [hstate])
  have hall : ∀ n : ℕ, acceptedPcm ([feedZeros n].zip [.feed .ok n]) = List.replicate n 0 := by
    intro n
    have htake : (List.replicate n (0 : ℤ)).take n = List.replicate n 0 :=
      List.take_of_length_le (le_of_eq List.length_replicate)
    exact (List.append_nil _).trans htake
  rw [hall] at hinvariant
  obtain ⟨hevents, hreference⟩ := hinvariant (by
    intro hnil
    have hlength := congrArg List.length hnil
    rw [List.length_replicate] at hlength
    exact absurd hlength (by decide))
  exact ⟨s, List.replicate 16000 0, hrun, List.length_replicate, hevents, hreference⟩

end Voxtral
