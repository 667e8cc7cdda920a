import Voxtral.Stream.PacedModel

/-!
# Exactly-once delivery

The history of decoder steps and TOKEN events of every run is the one of a decoder that steps through
the positions 38, 39, … and has each token delivered before the next step.  A step whose event did not
fit is the last entry, and its token is in `pending`.
-/

namespace Voxtral

variable {α φ ε γ κ : Type*}

/-- What the history says about decoding: a step, or the delivery of a TOKEN event. -/
inductive DecodeEntry
  | step (prevToken : ℤ) (position : ℕ) (result : ℤ)
  | delivered (event : StreamEvent)

/-- The decoding entry a history entry is, if any. -/
def TraceEntry.decodeEntry : TraceEntry ε γ → Option DecodeEntry
  | .decoderStep prevToken position _ result => some (.step prevToken position result)
  | .enqueued event _ => if event.isToken then some (.delivered event) else none
  | _ => none

/-- The decoding part of a history. -/
def decodeEntries (trace : List (TraceEntry ε γ)) : List DecodeEntry :=
  trace.filterMap TraceEntry.decodeEntry

/-- First position of the decoder, the length of the prompt without its last token. -/
def firstPosition : ℕ := promptLength - 1

/-- The last token of the prompt. -/
def lastPromptToken : ℤ := promptIds.getD (promptLength - 1) 0

/-- The stashed form of token number `i`. -/
def pendingAt (i : ℕ) (token : ℤ) : PendingToken :=
  ⟨token, firstPosition + i, isSpecialToken token⟩

/-- The decoding history of the tokens `tokens`, the first one being number `i` of the stream and
following `prevToken`: each token is returned by a step and delivered before the next one. -/
def deliveries (eng : Engine α φ ε γ κ) : ℤ → ℕ → List ℤ → List DecodeEntry
  | _, _, [] => []
  | prevToken, i, token :: tokens =>
    .step prevToken (firstPosition + i) token ::
      .delivered (tokenEvent eng (pendingAt i token) (i + 1)) :: deliveries eng token (i + 1) tokens

/-- The TOKEN events of the tokens `tokens`, the first one being number `i` of the stream. -/
def tokenEvents (eng : Engine α φ ε γ κ) : ℕ → List ℤ → List StreamEvent
  | _, [] => []
  | i, token :: tokens => tokenEvent eng (pendingAt i token) (i + 1) :: tokenEvents eng (i + 1) tokens

/-- One TOKEN event for each token. -/
lemma length_tokenEvents (eng : Engine α φ ε γ κ) (i : ℕ) (tokens : List ℤ) :
    (tokenEvents eng i tokens).length = tokens.length := by
  induction tokens generalizing i with
  | nil => rfl
  | cons token tokens ih => rw [tokenEvents, List.length_cons, List.length_cons, ih]

/-- The step of a stashed token, number `i` of the stream. -/
def stashedStep (prevToken : ℤ) (i : ℕ) : Option PendingToken → List DecodeEntry
  | none => []
  | some p => [.step prevToken (firstPosition + i) p.token]

/-- The stream delivered the tokens `tokens`, one by one. -/
structure Delivered (eng : Engine α φ ε γ κ) (s : Stream α φ ε γ κ) (tokens : List ℤ) : Prop where
  entries : decodeEntries s.trace = deliveries eng lastPromptToken 0 tokens ++
    stashedStep (tokens.getLastD lastPromptToken) tokens.length s.decoder.pending
  events : (eventHistory s).filter StreamEvent.isToken = tokenEvents eng 0 tokens
  sequence : s.decoder.tokenSequence = tokens.length
  stash : ∀ p, s.decoder.pending = some p → p = pendingAt tokens.length p.token
  /-- Nothing is delivered before the prefill. -/
  fresh : s.decoder.decoderPrefillDone = false → tokens = []
  /-- Until the end, the decoder stands behind the last delivered token. -/
  cursor : s.decoder.decoderPrefillDone = true → s.decoder.decoderEos = false →
    s.decoder.decoderPosition = firstPosition + tokens.length ∧
      s.decoder.decoderPrevToken = tokens.getLastD lastPromptToken
  /-- Only the last token can be the end. -/
  ended : (s.decoder.decoderEos = false ∧ ∀ t ∈ tokens, t ≠ tokenEos) ∨
    (s.decoder.decoderEos = true ∧
      ∃ before, tokens = before ++ [tokenEos] ∧ ∀ t ∈ before, t ≠ tokenEos)
  /-- The token history and the text leave out the end. -/
  kept : s.decoder.tokens = tokens.filter fun t => t ≠ tokenEos
  text : s.decoder.partialText =
    (tokens.filter fun t => t ≠ tokenEos).flatMap (tokenPiece eng.tokenizer)

section Histories

variable {eng : Engine α φ ε γ κ}

/-- The deliveries of two runs of tokens, the second behind the last token of the first. -/
lemma deliveries_append (prevToken : ℤ) (i : ℕ) (tokens more : List ℤ) :
    deliveries eng prevToken i (tokens ++ more) = deliveries eng prevToken i tokens ++
      deliveries eng (tokens.getLastD prevToken) (i + tokens.length) more := by
  induction tokens generalizing prevToken i with
  | nil => rfl
  | cons token tokens ih =>
    have hlen : i + 1 + tokens.length = i + (token :: tokens).length := by
      rw [List.length_cons]
      omega
    have hlast : tokens.getLastD token = (token :: tokens).getLastD prevToken := by
      rw [List.getLastD_cons]
    rw [List.cons_append, deliveries, deliveries, ih, hlen, hlast, List.cons_append,
      List.cons_append]

/-- The TOKEN events of two runs of tokens. -/
lemma tokenEvents_append (i : ℕ) (tokens more : List ℤ) :
    tokenEvents eng i (tokens ++ more) =
      tokenEvents eng i tokens ++ tokenEvents eng (i + tokens.length) more := by
  induction tokens generalizing i with
  | nil => rfl
  | cons token tokens ih =>
    have hlen : i + 1 + tokens.length = i + (token :: tokens).length := by
      rw [List.length_cons]
      omega
    rw [List.cons_append, tokenEvents, tokenEvents, ih, hlen, List.cons_append]

/-- The decoder's entries of two histories. -/
lemma decodeEntries_append (trace trace' : List (TraceEntry ε γ)) :
    decodeEntries (trace ++ trace') = decodeEntries trace ++ decodeEntries trace' :=
  List.filterMap_append

/-- Events that are no TOKEN events leave no trace in the decoding. -/
lemma decodeEntries_enqueued {es : List StreamEvent} (accepted : ℕ)
    (h : ∀ e ∈ es, e.isToken = false) :
    decodeEntries (es.map fun e => (.enqueued e accepted : TraceEntry ε γ)) = [] := by
  rw [decodeEntries, List.filterMap_eq_nil_iff]
  intro x hx
  obtain ⟨e, he, rfl⟩ := List.mem_map.mp hx
  simp [TraceEntry.decodeEntry, h e he]

end Histories

section Steps

variable {eng : Engine α φ ε γ κ} {late : Prop} {s s' : Stream α φ ε γ κ} {tokens : List ℤ}

/-- Changes that decoding does not see. -/
lemma Delivered.of_same (h : Delivered eng s tokens)
    (htrace : decodeEntries s'.trace = decodeEntries s.trace)
    (hevents : (eventHistory s').filter StreamEvent.isToken =
      (eventHistory s).filter StreamEvent.isToken)
    (hpending : s'.decoder.pending = s.decoder.pending)
    (hsequence : s'.decoder.tokenSequence = s.decoder.tokenSequence)
    (hprefill : s'.decoder.decoderPrefillDone = s.decoder.decoderPrefillDone)
    (hposition : s'.decoder.decoderPosition = s.decoder.decoderPosition)
    (hprev : s'.decoder.decoderPrevToken = s.decoder.decoderPrevToken)
    (heos : s'.decoder.decoderEos = s.decoder.decoderEos)
    (htokens : s'.decoder.tokens = s.decoder.tokens)
    (htext : s'.decoder.partialText = s.decoder.partialText) : Delivered eng s' tokens where
  entries := by rw [htrace, hpending, h.entries]
  events := by rw [hevents, h.events]
  sequence := by rw [hsequence, h.sequence]
  stash := by rw [hpending]; exact h.stash
  fresh := by rw [hprefill]; exact h.fresh
  cursor := by rw [hprefill, heos, hposition, hprev]; exact h.cursor
  ended := by rw [heos]; exact h.ended
  kept := by rw [htokens, h.kept]
  text := by rw [htext, h.text]

/-- The events that end a stream are no TOKEN events. -/
lemma Delivered.appends {es : List StreamEvent} (h : Delivered eng s tokens)
    (happ : Appends s s' es) (hes : ∀ e ∈ es, e.isToken = false) : Delivered eng s' tokens := by
  have htrace : decodeEntries s'.trace = decodeEntries s.trace := by
    rw [happ.trace, decodeEntries_append, decodeEntries_enqueued _ hes, List.append_nil]
  have hevents : (eventHistory s').filter StreamEvent.isToken =
      (eventHistory s).filter StreamEvent.isToken := by
    have hnone : es.filter StreamEvent.isToken = [] :=
      List.filter_eq_nil_iff.mpr fun e he => by simp [hes e he]
    rw [eventHistory, eventHistory, happ.polled, happ.queue, ← List.append_assoc,
      List.filter_append, hnone, List.append_nil]
  apply h.of_same htrace hevents <;> rw [happ.decoder]

/-- The prefill sets the cursor behind the prompt. -/
lemma Delivered.prefill (h : Delivered eng s tokens)
    (hfresh : s.decoder.decoderPrefillDone = false) : Delivered eng (prefillDecoder eng s) tokens where
  entries := by
    have htrace : decodeEntries (prefillDecoder eng s).trace = decodeEntries s.trace := by
      simp [prefillDecoder, decodeEntries, TraceEntry.decodeEntry]
    rw [htrace, h.entries]
    rfl
  events := h.events
  sequence := h.sequence
  stash := h.stash
  fresh := fun hfalse => absurd hfalse (by simp [prefillDecoder])
  cursor := by
    intro _ _
    rw [h.fresh hfresh]
    exact ⟨rfl, rfl⟩
  ended := h.ended
  kept := h.kept
  text := h.text

/-- A step appends its entry and stashes its token. -/
lemma Delivered.decoderStep (h : Delivered eng s tokens)
    (hprefill : s.decoder.decoderPrefillDone = true) (hpending : s.decoder.pending = none)
    (hmay : decoderMayStep s) : Delivered eng (stepDecoder eng s) tokens := by
  obtain ⟨hposition, hprev⟩ := h.cursor hprefill hmay.2.1
  refine ⟨?_, h.events, h.sequence, ?_, h.fresh, h.cursor, h.ended, h.kept, h.text⟩
  · have hentries := h.entries
    rw [hpending, stashedStep, List.append_nil] at hentries
    rw [stepDecoder, decodeEntries_append, hentries, hprev, hposition]
    rfl
  · intro p hp
    obtain rfl := Option.some.inj hp
    simp only [pendingAt, ← hposition]

/-- The entries a delivery appends: its TOKEN event, and nothing decoding sees. -/
lemma deliverPending_entries (eng : Engine α φ ε γ κ) (s : Stream α φ ε γ κ) (p : PendingToken) :
    decodeEntries (deliverPending eng s p).trace = decodeEntries s.trace ++
        [.delivered (tokenEvent eng p (s.decoder.tokenSequence + 1))] ∧
      (eventHistory (deliverPending eng s p)).filter StreamEvent.isToken =
        (eventHistory s).filter StreamEvent.isToken ++
          [tokenEvent eng p (s.decoder.tokenSequence + 1)] := by
  have htoken : (tokenEvent eng p (s.decoder.tokenSequence + 1)).isToken = true := rfl
  by_cases heos : p.token = tokenEos
  · obtain ⟨hqueue, htrace⟩ := deliverPending_eos_events eng s heos
    have hpolled : (deliverPending eng s p).events.polled = s.events.polled := by
      rw [deliverPending_eos heos]
      rfl
    rw [eventHistory, hqueue, htrace, hpolled, ← List.append_assoc, List.filter_append]
    refine ⟨?_, ?_⟩
    · rw [decodeEntries_append]
      rfl
    · rw [List.filter_singleton, htoken]
      rfl
  · obtain ⟨hpush, extra, htrace, hextra⟩ := deliverPending_text_events eng s heos
    have hpolled : (deliverPending eng s p).events.polled = s.events.polled := by
      rw [deliverPending_text heos]
      exact (afterSnapshot_frame eng s p).polled
    have hnone : decodeEntries extra = [] := by
      rw [decodeEntries, List.filterMap_eq_nil_iff]
      intro x hx
      rw [List.mem_singleton.mp (hextra.subset hx)]
      rfl
    rw [eventHistory, htrace, hpolled, List.filter_append, hpush.filter_token rfl]
    refine ⟨?_, ?_⟩
    · rw [decodeEntries_append, decodeEntries_append, hnone, List.append_nil]
      rfl
    · rw [List.filter_append, List.filter_singleton, htoken, eventHistory, List.filter_append,
        List.append_assoc]
      rfl

/-- A delivery moves the stashed token to the delivered ones. -/
lemma Delivered.deliver (h : Delivered eng s tokens) (hw : DecoderWithin s) {p : PendingToken}
    (hprefill : s.decoder.decoderPrefillDone = true) (hpending : s.decoder.pending = some p) :
    Delivered eng (deliverPending eng s p) (tokens ++ [p.token]) := by
  obtain ⟨htrace, hevents⟩ := deliverPending_entries eng s p
  obtain ⟨-, -, hlive⟩ := hw.stash p hpending
  obtain ⟨hposition, -⟩ := h.cursor hprefill hlive
  have hp := h.stash p hpending
  have hbefore : ∀ t ∈ tokens, t ≠ tokenEos := by
    rcases h.ended with ⟨-, hall⟩ | ⟨htrue, -⟩
    · exact hall
    · exact absurd (hlive.symm.trans htrue) (by decide)
  have hevent : tokenEvent eng p (s.decoder.tokenSequence + 1) =
      tokenEvent eng (pendingAt (0 + tokens.length) p.token) (0 + tokens.length + 1) := by
    rw [Nat.zero_add, ← hp, h.sequence]
  have hdec := deliverPending_decoder eng s p
  have hpending' : (deliverPending eng s p).decoder.pending = none := by
    rw [hdec, decoderAfter]
    split_ifs <;> rfl
  have hkeep : p.token ≠ tokenEos → [p.token].filter (fun t => t ≠ tokenEos) = [p.token] :=
    fun hne => List.filter_eq_self.mpr fun t ht => by
      rw [List.mem_singleton.mp ht]
      exact decide_eq_true hne
  have hlast : (tokens ++ [p.token]).getLastD lastPromptToken = p.token := by simp
  refine ⟨?_, ?_, ?_, ?_, ?_, ?_, ?_, ?_, ?_⟩
  · rw [htrace, h.entries, hpending', hpending, deliveries_append, stashedStep, stashedStep,
      List.append_nil, deliveries, deliveries, hevent, List.append_assoc, Nat.zero_add]
    rfl
  · rw [hevents, h.events, tokenEvents_append, tokenEvents, tokenEvents, hevent]
  · rw [hdec, decoderAfter, List.length_append, List.length_singleton]
    split_ifs <;> exact congrArg (· + 1) h.sequence
  · intro q hq
    rw [hpending'] at hq
    exact absurd hq (by simp)
  · intro hfalse
    rw [hdec, decoderAfter] at hfalse
    split_ifs at hfalse <;> exact absurd (hprefill.symm.trans hfalse) (by decide)
  · intro _ hnot
    rw [hdec, decoderAfter] at hnot ⊢
    split_ifs at hnot ⊢ with heos
    · rw [List.length_append, List.length_singleton, hlast, ← Nat.add_assoc, ← hposition]
      exact ⟨rfl, rfl⟩
  · rw [hdec, decoderAfter]
    split_ifs with heos
    · exact Or.inr ⟨rfl, tokens, by rw [heos], hbefore⟩
    · refine Or.inl ⟨hlive, fun t ht => ?_⟩
      rcases List.mem_append.mp ht with ht | ht
      · exact hbefore t ht
      · rw [List.mem_singleton.mp ht]
        exact heos
  · rw [hdec, decoderAfter, List.filter_append, ← h.kept]
    split_ifs with heos
    · simp [heos]
    · rw [hkeep heos]
  · rw [hdec, decoderAfter, List.filter_append, List.flatMap_append, ← h.text]
    split_ifs with heos
    · simp [heos]
    · rw [hkeep heos, List.flatMap_singleton]
      rfl

/-- Every atomic change of a pump keeps the history of deliveries. -/
lemma PumpStep.delivered (hstep : PumpStep eng s s') (hw : DecoderWithin s)
    (h : Delivered eng s tokens) : ∃ tokens', Delivered eng s' tokens' := by
  cases hstep with
  | bookkeep => exact ⟨tokens, h.of_same rfl rfl rfl rfl rfl rfl rfl rfl rfl rfl⟩
  | commitGroup group =>
    refine ⟨tokens, h.of_same ?_ rfl rfl rfl rfl rfl rfl rfl rfl rfl⟩
    rw [Voxtral.commitGroup, decodeEntries_append]
    exact List.append_nil _
  | advanceAdapter => exact ⟨tokens, h.of_same rfl rfl rfl rfl rfl rfl rfl rfl rfl rfl⟩
  | prefill hfresh _ => exact ⟨tokens, h.prefill hfresh⟩
  | decoderStep hprefill hpending hmay => exact ⟨tokens, h.decoderStep hprefill hpending hmay⟩
  | deliver p hprefill hpending _ => exact ⟨_, h.deliver hw hprefill hpending⟩

/-- Every transition keeps the history of deliveries. -/
lemma Transition.delivered (hstep : Transition eng late s s') (hw : DecoderWithin s)
    (h : Delivered eng s tokens) : ∃ tokens', Delivered eng s' tokens' := by
  cases hstep with
  | pump _ _ _ _ hstep => exact hstep.delivered hw h
  | absorb _ hchange _ =>
    obtain ⟨runs, htrace, hruns⟩ := hchange.trace
    have hnone : decodeEntries runs = [] := by
      rw [decodeEntries, List.filterMap_eq_nil_iff]
      intro x hx
      cases x with
      | encoderRun => rfl
      | _ => exact absurd (hruns _ hx) id
    have hentries : decodeEntries s'.trace = decodeEntries s.trace := by
      rw [htrace, decodeEntries_append, hnone, List.append_nil]
    refine ⟨tokens, h.of_same hentries ?_ ?_ ?_ ?_ ?_ ?_ ?_ ?_ ?_⟩
    · rw [eventHistory, eventHistory, hchange.events]
    all_goals rw [hchange.decoder]
  | account hchange =>
    refine ⟨tokens, h.of_same ?_ ?_ ?_ ?_ ?_ ?_ ?_ ?_ ?_ ?_⟩
    · rw [hchange.trace]
    · rw [eventHistory, eventHistory, hchange.polled, hchange.queue]
    all_goals rw [hchange.decoder]
  | complete _ transcript kept _ hkept =>
    obtain ⟨es, happ, hsub⟩ := completeStream_appends
      { s with decoder := { s.decoder with transcript := transcript, tokens := kept } }
    have hsame : Delivered eng
        { s with decoder := { s.decoder with transcript := transcript, tokens := kept } } tokens :=
      h.of_same rfl rfl rfl rfl rfl rfl rfl rfl hkept rfl
    refine ⟨tokens, hsame.appends happ fun e he => ?_⟩
    have hmem := hsub.subset he
    simp only [List.mem_cons, List.not_mem_nil, or_false] at hmem
    rcases hmem with rfl | rfl <;> rfl
  | fail _ status =>
    obtain ⟨es, happ, hes⟩ := failStream_appends s status
    exact ⟨tokens, h.appends happ fun e he => by simp [StreamEvent.isToken, hes e he, errorEvent]⟩
  | cancel =>
    obtain ⟨es, happ, hes⟩ := cancelInternal_appends s
    exact ⟨tokens, h.appends happ fun e he => by simp [StreamEvent.isToken, hes e he, cancelledEvent]⟩

/-- A poll keeps the history of deliveries. -/
lemma Delivered.poll (h : Delivered eng s tokens) : Delivered eng (streamPollEvent s).1 tokens := by
  obtain ⟨ev, heq, hev⟩ := streamPollEvent_eq s
  rw [heq]
  exact h.of_same rfl (congrArg (List.filter StreamEvent.isToken) hev) rfl rfl rfl rfl rfl rfl rfl
    rfl

end Steps

/-- A new stream delivered nothing. -/
lemma delivered_create (eng : Engine α φ ε γ κ) (maxEvents : ℕ) (device : Device ε γ κ) :
    Delivered eng (Stream.create maxEvents device) [] where
  entries := rfl
  events := rfl
  sequence := rfl
  stash := fun p hp => absurd hp (by simp [Stream.create])
  fresh := fun _ => rfl
  cursor := fun h => absurd h (by simp [Stream.create])
  ended := Or.inl ⟨rfl, by simp⟩
  kept := rfl
  text := rfl

/-- After every run, the stream delivered some tokens one by one. -/
lemma exists_delivered [Zero α] {eng : Engine α φ ε γ κ} {maxEvents : ℕ} {device : Device ε γ κ}
    {ops : List Op} {s : Stream α φ ε γ κ} {os : List Response}
    (hrun : runSteps (streamStep eng) (Stream.create maxEvents device) ops = some (s, os)) :
    ∃ tokens, Delivered eng s tokens := by
  refine stream_invariant True (I := fun s => ∃ tokens, Delivered eng s tokens) ?_ ?_
    ⟨[], delivered_create eng maxEvents device⟩ (Or.inl trivial) hrun
  · rintro s s' hstep hw ⟨tokens, h⟩
    exact hstep.delivered hw h
  · rintro s ⟨tokens, h⟩
    exact ⟨tokens, h.poll⟩

/-- Decoder steps and tokens are delivered exactly once: for some list of tokens, the history is a
step at position 38 from the last prompt token, the delivery of its token as event number 1, a step at
position 39 from that token, and so on.  It ends with a delivery and nothing is stashed, or with the
step whose token is stashed.  The TOKEN events a caller receives are these, in this order. -/
theorem decoder_steps_delivered_exactly_once [Zero α] (eng : Engine α φ ε γ κ) (maxEvents : ℕ)
    (device : Device ε γ κ) (ops : List Op) (s : Stream α φ ε γ κ) (os : List Response)
    (hrun : runSteps (streamStep eng) (Stream.create maxEvents device) ops = some (s, os)) :
    ∃ tokens : List ℤ,
      (eventHistory s).filter StreamEvent.isToken = tokenEvents eng 0 tokens ∧
      match s.decoder.pending with
      | none => decodeEntries s.trace = deliveries eng lastPromptToken 0 tokens
      | some p =>
        p = pendingAt tokens.length p.token ∧
        decodeEntries s.trace = deliveries eng lastPromptToken 0 tokens ++
          [.step (tokens.getLastD lastPromptToken) (firstPosition + tokens.length) p.token] := by
  obtain ⟨tokens, h⟩ := exists_delivered hrun
  refine ⟨tokens, h.events, ?_⟩
  have hentries := h.entries
  cases hpending : s.decoder.pending with
  | none => rwa [hpending, stashedStep, List.append_nil] at hentries
  | some p =>
    rw [hpending] at hentries
    exact ⟨h.stash p hpending, hentries⟩

/-- A second of audio in a queue of three events: two tokens are delivered and the third is stashed
with its step made. -/
theorem decoder_steps_delivered_exactly_once_stalled : ∃ s os,
    runSteps (streamStep (plainEngine defaultSchedule)) (Stream.create 3 plainDevice)
      [feedZeros 16000] = some (s, os) ∧
    ∃ tokens p, tokens.length = 2 ∧ s.decoder.pending = some p ∧ p = pendingAt 2 p.token ∧
      decodeEntries s.trace = deliveries (plainEngine defaultSchedule) lastPromptToken 0 tokens ++
        [.step (tokens.getLastD lastPromptToken) 40 p.token] := by
  obtain ⟨s, os, hrun, -, halike⟩ := exists_pacedRun (plainEngine_runs defaultSchedule) 3
    [feedZeros 16000] (by simp [TotalFits])
  simp only [List.map_cons, feedZeros_paced, List.map_nil] at halike
  have hmodel : let m := (pacedRun (plainEngine defaultSchedule) 3 plainDevice
      [.feed false 16000]).1
      m.events.queue.length = 3 ∧ m.events.polled = [] ∧
        (m.events.queue.filter StreamEvent.isToken).length = 2 ∧ m.decoder.pending ≠ none := by
    decide +kernel
  simp only [halike.events, halike.decoder] at hmodel
  obtain ⟨-, hpolled, htokens, hpending⟩ := hmodel
  obtain ⟨p, hp⟩ := Option.ne_none_iff_exists'.mp hpending
  obtain ⟨tokens, hevents, hentries⟩ := decoder_steps_delivered_exactly_once
    (plainEngine defaultSchedule) 3 plainDevice [feedZeros 16000] s os hrun
  have hlength : tokens.length = 2 := by
    rw [eventHistory, hpolled, List.nil_append] at hevents
    rw [← length_tokenEvents (plainEngine defaultSchedule) 0 tokens, ← hevents, htokens]
  rw [hp, hlength] at hentries
  exact ⟨s, os, hrun, tokens, p, hlength, hp, hentries.1, hentries.2⟩

end Voxtral
