import Voxtral.Stream.Delivery
import Voxtral.Stream.PacedModel

/-!
# Events on the timeline of the real audio

While audio arrives, no event ends later than the audio received.  The finish pads the signal on the
right, and the decoder is stepped at positions of that padding unless it has ended before; their events
end later than the audio.
-/

namespace Voxtral

variable {α φ ε γ κ : Type*}

/-- The audio an event refers to ends within the first `n` samples. -/
def StreamEvent.EndsBy (e : StreamEvent) (n : ℕ) : Prop := e.audioEndSample ≤ n ∧ e.tAudioSamples ≤ n

/-- A later bound holds as well. -/
lemma StreamEvent.EndsBy.mono {e : StreamEvent} {n m : ℕ} (h : e.EndsBy n) (hle : n ≤ m) :
    e.EndsBy m :=
  ⟨h.1.trans hle, h.2.trans hle⟩

/-- The end of a stream: FINAL_TEXT or COMPLETED. -/
def StreamEvent.IsTerminal (e : StreamEvent) : Prop := e.type = .finalText ∨ e.type = .completed

/-- An event ends with the audio of a position the decoder was stepped at. -/
def EndsWithStep (trace : List (TraceEntry ε γ)) (e : StreamEvent) : Prop :=
  ∃ prevToken position row token, .decoderStep prevToken position row token ∈ trace ∧
    e.EndsBy (audioEndSampleFor position)

/-- An event recorded when `accepted` samples had been received ends within them, or it was recorded
after the last sample and ends with the audio of a decoder step. -/
def Placed (s : Stream α φ ε γ κ) (e : StreamEvent) (accepted : ℕ) : Prop :=
  accepted ≤ s.frontend.realSamples.length ∧ (e.EndsBy accepted ∨
    (s.frontend.melFe.finalized = true ∧ accepted = s.frontend.realSamples.length ∧
      EndsWithStep s.trace e))

/-- Where the events of a stream lie. -/
structure OnTimeline (s : Stream α φ ε γ κ) : Prop where
  total : s.lifecycle.totalSamplesReceived ≤ s.frontend.realSamples.length
  enqueued : ∀ e accepted, .enqueued e accepted ∈ s.trace → Placed s e accepted
  history : ∀ e ∈ eventHistory s, Placed s e s.frontend.realSamples.length
  stash : ∀ p, s.decoder.pending = some p →
    ∃ prevToken row token, .decoderStep prevToken p.position row token ∈ s.trace
  terminal : ∀ e ∈ eventHistory s, e.IsTerminal →
    e.tAudioSamples = s.frontend.realSamples.length ∧ ¬ s.Live

section Steps

variable {eng : Engine α φ ε γ κ} {late : Prop} {s s' : Stream α φ ε γ κ}

/-- The frontend took samples, unless it was finished. -/
structure SamplesGrow (s s' : Stream α φ ε γ κ) : Prop where
  samples : s.frontend.realSamples.length ≤ s'.frontend.realSamples.length
  finalized : s.frontend.melFe.finalized = true → s'.frontend.melFe.finalized = true ∧
    s'.frontend.realSamples = s.frontend.realSamples

/-- A frontend left alone received no fewer samples. -/
lemma SamplesGrow.of_frontend (h : s'.frontend = s.frontend) : SamplesGrow s s' :=
  ⟨by rw [h], fun hfinal => by rw [h]; exact ⟨hfinal, rfl⟩⟩

/-- A longer history has the step as well. -/
lemma EndsWithStep.mono {trace trace' : List (TraceEntry ε γ)} {e : StreamEvent}
    (h : EndsWithStep trace e) (hsub : trace <+: trace') : EndsWithStep trace' e := by
  obtain ⟨prevToken, position, row, token, hmem, hends⟩ := h
  exact ⟨prevToken, position, row, token, hsub.subset hmem, hends⟩

/-- A place on the timeline stays one. -/
lemma Placed.mono {e : StreamEvent} {accepted : ℕ} (h : Placed s e accepted)
    (hgrow : SamplesGrow s s') (htrace : s.trace <+: s'.trace) : Placed s' e accepted := by
  refine ⟨h.1.trans hgrow.samples, ?_⟩
  rcases h.2 with hends | ⟨hfinal, haccepted, hstep⟩
  · exact Or.inl hends
  · obtain ⟨hfinal', hsame⟩ := hgrow.finalized hfinal
    exact Or.inr ⟨hfinal', by rw [hsame]; exact haccepted, hstep.mono htrace⟩

/-- An event recorded at the last sample stays placed when more are received. -/
lemma Placed.extend {e : StreamEvent} (h : Placed s e s.frontend.realSamples.length)
    (hgrow : SamplesGrow s s') (htrace : s.trace <+: s'.trace) :
    Placed s' e s'.frontend.realSamples.length := by
  refine ⟨le_rfl, ?_⟩
  rcases h.2 with hends | ⟨hfinal, -, hstep⟩
  · exact Or.inl (hends.mono hgrow.samples)
  · exact Or.inr ⟨(hgrow.finalized hfinal).1, rfl, hstep.mono htrace⟩

/-- A change that records and keeps placed events only. -/
lemma OnTimeline.step (h : OnTimeline s) (hgrow : SamplesGrow s s')
    (htotal : s'.lifecycle.totalSamplesReceived ≤ s'.frontend.realSamples.length)
    {more : List (TraceEntry ε γ)} (htrace : s'.trace = s.trace ++ more)
    (hmore : ∀ e accepted, .enqueued e accepted ∈ more → Placed s' e accepted)
    (hstash : ∀ p, s'.decoder.pending = some p → s.decoder.pending = some p ∨
      ∃ prevToken row token, .decoderStep prevToken p.position row token ∈ more)
    (hhistory : ∀ e ∈ eventHistory s', (e ∈ eventHistory s ∧ (e.IsTerminal →
        s'.frontend.realSamples = s.frontend.realSamples ∧ ¬ s'.Live)) ∨
      (Placed s' e s'.frontend.realSamples.length ∧ (e.IsTerminal →
        e.tAudioSamples = s'.frontend.realSamples.length ∧ ¬ s'.Live))) : OnTimeline s' := by
  have hgrown : s.trace <+: s'.trace := ⟨more, htrace.symm⟩
  refine ⟨htotal, fun e accepted he => ?_, fun e he => ?_, fun p hp => ?_, fun e he hterm => ?_⟩
  · rw [htrace] at he
    rcases List.mem_append.mp he with he | he
    · exact (h.enqueued e accepted he).mono hgrow hgrown
    · exact hmore e accepted he
  · rcases hhistory e he with ⟨hold, -⟩ | ⟨hnew, -⟩
    · exact (h.history e hold).extend hgrow hgrown
    · exact hnew
  · rcases hstash p hp with hold | ⟨prevToken, row, token, hmem⟩
    · obtain ⟨prevToken, row, token, hmem⟩ := h.stash p hold
      exact ⟨prevToken, row, token, hgrown.subset hmem⟩
    · exact ⟨prevToken, row, token, by rw [htrace]; exact List.mem_append_right _ hmem⟩
  · rcases hhistory e he with ⟨hold, hkept⟩ | ⟨-, hnew⟩
    · obtain ⟨hsame, hdead⟩ := hkept hterm
      exact ⟨by rw [hsame]; exact (h.terminal e hold hterm).1, hdead⟩
    · exact hnew hterm

/-- A change that records no event and leaves the queue alone. -/
lemma OnTimeline.silent (h : OnTimeline s) (hgrow : SamplesGrow s s')
    (htotal : s'.lifecycle.totalSamplesReceived ≤ s'.frontend.realSamples.length)
    {more : List (TraceEntry ε γ)} (htrace : s'.trace = s.trace ++ more)
    (hmore : ∀ e accepted, .enqueued e accepted ∉ more)
    (hstash : ∀ p, s'.decoder.pending = some p → s.decoder.pending = some p ∨
      ∃ prevToken row token, .decoderStep prevToken p.position row token ∈ more)
    (hhistory : eventHistory s' = eventHistory s)
    (hterminal : ¬ s.Live → s'.frontend.realSamples = s.frontend.realSamples ∧ ¬ s'.Live) :
    OnTimeline s' :=
  h.step hgrow htotal htrace (fun e accepted he => absurd he (hmore e accepted)) hstash
    fun e he => Or.inl ⟨by rwa [hhistory] at he, fun hterm =>
      hterminal (h.terminal e (by rwa [hhistory] at he) hterm).2⟩

/-- The event of a delivered token, and its snapshot. -/
lemma OnTimeline.deliver (h : OnTimeline s) (hlive : s.Live) (hw : DecoderWithin s)
    (htime : s.frontend.melFe.finalized = true ∨ InTime s) {p : PendingToken}
    (hpending : s.decoder.pending = some p) (hstep : PumpStep eng s (deliverPending eng s p)) :
    OnTimeline (deliverPending eng s p) := by
  have hframe := hstep.frame
  set t := deliverPending eng s p with ht
  have hgrow : SamplesGrow s t := .of_frontend hframe.frontend
  have hgrown := hstep.trace_prefix
  -- an event that ends with the audio of the position
  have hplaced : ∀ e : StreamEvent, e.EndsBy (audioEndSampleFor p.position) →
      Placed t e s.frontend.realSamples.length := by
    intro e he
    refine ⟨by rw [hframe.frontend], ?_⟩
    rcases htime with hfinal | htime
    · obtain ⟨prevToken, row, token, hmem⟩ := h.stash p hpending
      exact Or.inr ⟨by rw [hframe.frontend]; exact hfinal, by rw [hframe.frontend],
        prevToken, p.position, row, token, hgrown.subset hmem, he⟩
    · refine Or.inl (he.mono ?_)
      obtain ⟨hposition, hlt, -⟩ := hw.stash p hpending
      have hcommitted := htime.committed
      have hemitted := htime.emitted
      simp only [audioEndSampleFor, rawAudioLengthPerTok, streamLeftPad, nLeftPadTokens]
      omega
  have htok : ∀ n, (tokenEvent eng p n).EndsBy (audioEndSampleFor p.position) := fun n =>
    ⟨le_rfl, le_rfl⟩
  have hsnap : (snapshotOf eng s p).EndsBy (audioEndSampleFor p.position) := ⟨le_rfl, le_rfl⟩
  have haccepted : acceptedSamples s = s.frontend.realSamples.length := rfl
  have hsame : t.frontend.realSamples.length = s.frontend.realSamples.length := by
    rw [hframe.frontend]
  have htotal : t.lifecycle.totalSamplesReceived ≤ t.frontend.realSamples.length := by
    rw [hframe.totalReceived, hframe.frontend]
    exact h.total
  have hnone : ∀ q, t.decoder.pending ≠ some q := by
    intro q hq
    rw [ht, deliverPending_decoder, decoderAfter] at hq
    split_ifs at hq
  by_cases heos : p.token = tokenEos
  · obtain ⟨hqueue, htrace⟩ := deliverPending_eos_events eng s heos
    refine h.step hgrow htotal htrace (fun e accepted he => ?_) (fun q hq => absurd hq (hnone q))
      fun e he => ?_
    · obtain ⟨rfl, rfl⟩ := TraceEntry.enqueued.inj (List.mem_singleton.mp he)
      exact hplaced _ (htok _)
    · rw [eventHistory, hframe.polled, hqueue, ← List.append_assoc] at he
      rcases List.mem_append.mp he with he | he
      · refine Or.inl ⟨he, fun hterm => absurd hlive (h.terminal e he hterm).2⟩
      · obtain rfl := List.mem_singleton.mp he
        refine Or.inr ⟨hsame ▸ hplaced _ (htok _), fun hterm => ?_⟩
        exact absurd hterm (by simp [StreamEvent.IsTerminal, tokenEvent])
  · obtain ⟨hpush, extra, htrace, hextra⟩ := deliverPending_text_events eng s heos
    refine h.step hgrow htotal (htrace.trans (List.append_assoc _ _ _)) (fun e accepted he => ?_)
      (fun q hq => absurd hq (hnone q)) fun e he => ?_
    · rcases List.mem_append.mp he with he | he
      · simp only [List.mem_cons, List.not_mem_nil, or_false, reduceCtorEq] at he
        obtain ⟨rfl, rfl⟩ := TraceEntry.enqueued.inj he
        exact hplaced _ (htok _)
      · obtain ⟨rfl, rfl⟩ := TraceEntry.enqueued.inj (List.mem_singleton.mp (hextra.subset he))
        exact hplaced _ hsnap
    · rw [eventHistory, hframe.polled] at he
      have hcases : e ∈ eventHistory s ∨ e = tokenEvent eng p (s.decoder.tokenSequence + 1) ∨
          e = snapshotOf eng s p := by
        rcases List.mem_append.mp he with he | he
        · exact Or.inl (List.mem_append_left _ he)
        · rcases hpush.mem he with he | rfl
          · rcases List.mem_append.mp he with he | he
            · exact Or.inl (List.mem_append_right _ he)
            · exact Or.inr (Or.inl (List.mem_singleton.mp he))
          · exact Or.inr (Or.inr rfl)
      rcases hcases with he | rfl | rfl
      · exact Or.inl ⟨he, fun hterm => absurd hlive (h.terminal e he hterm).2⟩
      · refine Or.inr ⟨hsame ▸ hplaced _ (htok _), fun hterm => ?_⟩
        exact absurd hterm (by simp [StreamEvent.IsTerminal, tokenEvent])
      · refine Or.inr ⟨hsame ▸ hplaced _ hsnap, fun hterm => ?_⟩
        exact absurd hterm (by simp [StreamEvent.IsTerminal, snapshotOf, partialEvent])

/-- Every atomic change of a pump keeps the events on the timeline. -/
lemma PumpStep.onTimeline (hstep : PumpStep eng s s') (hlive : s.Live) (hw : DecoderWithin s)
    (htime : s.frontend.melFe.finalized = true ∨ InTime s) (h : OnTimeline s) : OnTimeline s' := by
  have hframe := hstep.frame
  have hgrow : SamplesGrow s s' := .of_frontend hframe.frontend
  have htotal : s'.lifecycle.totalSamplesReceived ≤ s'.frontend.realSamples.length := by
    rw [hframe.totalReceived, hframe.frontend]
    exact h.total
  have hterminal : ¬ s.Live → s'.frontend.realSamples = s.frontend.realSamples ∧ ¬ s'.Live :=
    fun hdead => absurd hlive hdead
  cases hstep with
  | bookkeep =>
    exact h.silent hgrow htotal (List.append_nil _).symm (fun _ _ => List.not_mem_nil)
      (fun _ => Or.inl) rfl hterminal
  | commitGroup => exact h.silent hgrow htotal rfl (by simp) (fun _ => Or.inl) rfl hterminal
  | advanceAdapter =>
    exact h.silent hgrow htotal (List.append_nil _).symm (fun _ _ => List.not_mem_nil)
      (fun _ => Or.inl) rfl hterminal
  | prefill => exact h.silent hgrow htotal rfl (by simp) (fun _ => Or.inl) rfl hterminal
  | decoderStep =>
    refine h.silent hgrow htotal rfl (by simp) (fun p hp => Or.inr ?_) rfl hterminal
    obtain rfl := Option.some.inj hp
    exact ⟨_, _, _, List.mem_singleton_self _⟩
  | deliver p hprefill hpending hroom =>
    exact h.deliver hlive hw htime hpending (.deliver s p hprefill hpending hroom)

/-- Terminal events are placed at the end of the audio. -/
lemma OnTimeline.appends {t : Stream α φ ε γ κ} {es : List StreamEvent} (h : OnTimeline s)
    (happ : Appends t s' es) (hfrontend : t.frontend = s.frontend)
    (hpending : t.decoder.pending = s.decoder.pending) (htrace : t.trace = s.trace)
    (hhistory : eventHistory t = eventHistory s)
    (htotal : t.lifecycle.totalSamplesReceived = s.lifecycle.totalSamplesReceived)
    (hdead : ¬ s'.Live)
    (hes : ∀ e ∈ es, e.EndsBy s.lifecycle.totalSamplesReceived ∧ (e.IsTerminal →
      e.tAudioSamples = s.frontend.realSamples.length)) : OnTimeline s' := by
  have hfrontend' : s'.frontend = s.frontend := happ.frontend.trans hfrontend
  have haccepted : acceptedSamples t = s.frontend.realSamples.length := by
    rw [acceptedSamples, hfrontend]
  have hplaced : ∀ e ∈ es, Placed s' e s.frontend.realSamples.length := fun e he =>
    ⟨by rw [hfrontend'], Or.inl ((hes e he).1.mono h.total)⟩
  have hhistory' : eventHistory s' = eventHistory s ++ es := by
    rw [← hhistory, eventHistory, eventHistory, happ.polled, happ.queue, List.append_assoc]
  refine h.step (.of_frontend hfrontend') ?_ (happ.trace.trans (by rw [htrace])) ?_ ?_ ?_
  · rw [happ.totalReceived, htotal, hfrontend']
    exact h.total
  · intro e accepted he
    obtain ⟨x, hx, heq⟩ := List.mem_map.mp he
    obtain ⟨rfl, rfl⟩ := TraceEntry.enqueued.inj heq
    rw [haccepted]
    exact hplaced x hx
  · intro p hp
    rw [happ.decoder, hpending] at hp
    exact Or.inl hp
  · intro e he
    rw [hhistory'] at he
    rcases List.mem_append.mp he with he | he
    · exact Or.inl ⟨he, fun _ => ⟨by rw [hfrontend'], hdead⟩⟩
    · exact Or.inr ⟨by rw [hfrontend']; exact hplaced e he, fun hterm =>
        ⟨by rw [hfrontend']; exact (hes e he).2 hterm, hdead⟩⟩

/-- Every transition keeps the events on the timeline. -/
lemma Transition.onTimeline (hstep : Transition eng late s s') (hw : DecoderWithin s)
    (h : OnTimeline s) : OnTimeline s' := by
  cases hstep with
  | pump hlive htime _ _ hstep => exact hstep.onTimeline hlive hw htime h
  | absorb hlive hchange hsamples =>
    obtain ⟨runs, htrace, hruns⟩ := hchange.trace
    refine h.silent ⟨hchange.samples.length_le, fun hfinal =>
      ⟨hchange.finalized hfinal, hsamples hfinal⟩⟩ ?_ htrace (fun e accepted he => hruns _ he)
      (fun p hp => Or.inl ?_) ?_ (fun hdead => absurd hlive hdead)
    · rw [hchange.totalReceived]
      exact h.total.trans hchange.samples.length_le
    · rwa [hchange.decoder] at hp
    · rw [eventHistory, eventHistory, hchange.events]
  | account hchange =>
    refine h.silent (.of_frontend hchange.frontend) ?_
      (show s'.trace = s.trace ++ [] by rw [hchange.trace, List.append_nil]) (fun _ _ => List.not_mem_nil)
      (fun p hp => Or.inl ?_) ?_ (fun hdead => ⟨by rw [hchange.frontend], ?_⟩)
    · rw [hchange.frontend]
      rcases hchange.total with hsame | hall
      · exact hsame.le.trans h.total
      · exact hall.le
    · rwa [hchange.decoder] at hp
    · rw [eventHistory, eventHistory, hchange.polled, hchange.queue]
    · rcases hchange.state with hsame | ⟨hlive, -⟩
      · unfold Stream.Live at hdead ⊢
        rwa [hsame]
      · exact absurd hlive hdead
  | complete hlive transcript tokens _ _ htotal =>
    obtain ⟨es, happ, hsub⟩ := completeStream_appends
      { s with decoder := { s.decoder with transcript := transcript, tokens := tokens } }
    refine h.appends happ rfl rfl rfl rfl rfl (by simp [Stream.Live, completeStream, clearError])
      fun e he => ?_
    have hmem := hsub.subset he
    simp only [List.mem_cons, List.not_mem_nil, or_false] at hmem
    rcases hmem with rfl | rfl <;> exact ⟨⟨Nat.zero_le _, le_rfl⟩, fun _ => htotal⟩
  | fail hlive status =>
    obtain ⟨es, happ, hes⟩ := failStream_appends s status
    refine h.appends happ rfl rfl rfl rfl rfl (by simp [Stream.Live, failStream]) fun e he => ?_
    rw [hes e he]
    exact ⟨⟨Nat.zero_le _, le_rfl⟩, by simp [StreamEvent.IsTerminal, errorEvent]⟩
  | cancel hstate =>
    obtain ⟨es, happ, hes⟩ := cancelInternal_appends s
    refine h.appends happ rfl rfl rfl rfl rfl ?_ fun e he => ?_
    · unfold cancelInternal
      rcases hstate with hstate | hstate <;> simp [hstate, Stream.Live, clearError]
    · rw [hes e he]
      exact ⟨⟨Nat.zero_le _, le_rfl⟩, by simp [StreamEvent.IsTerminal, cancelledEvent]⟩

/-- A poll keeps the events on the timeline. -/
lemma OnTimeline.poll (h : OnTimeline s) : OnTimeline (streamPollEvent s).1 := by
  obtain ⟨ev, heq, hev⟩ := streamPollEvent_eq s
  rw [heq]
  exact h.silent (.of_frontend rfl) h.total (List.append_nil _).symm (fun _ _ => List.not_mem_nil)
    (fun _ => Or.inl) hev fun hdead => ⟨rfl, hdead⟩

end Steps

/-- A new stream has no events. -/
lemma onTimeline_create (maxEvents : ℕ) (device : Device ε γ κ) :
    OnTimeline (Stream.create maxEvents device : Stream α φ ε γ κ) where
  total := le_rfl
  enqueued := fun _ _ he => absurd he List.not_mem_nil
  history := fun _ he => absurd he List.not_mem_nil
  stash := fun p hp => absurd hp (by simp [Stream.create])
  terminal := fun _ he => absurd he List.not_mem_nil

/-- The TOKEN events end in order. -/
lemma tokenEvents_ordered (eng : Engine α φ ε γ κ) (i : ℕ) (tokens : List ℤ) :
    (tokenEvents eng i tokens).Pairwise fun e e' => e.audioEndSample ≤ e'.audioEndSample := by
  have hends : ∀ i (tokens : List ℤ), ∀ e ∈ tokenEvents eng i tokens,
      audioEndSampleFor (firstPosition + i) ≤ e.audioEndSample := by
    intro i tokens
    induction tokens generalizing i with
    | nil => simp [tokenEvents]
    | cons token tokens ih =>
      intro e he
      rcases List.mem_cons.mp he with rfl | he
      · exact le_rfl
      · refine le_trans ?_ (ih (i + 1) e he)
        simp only [audioEndSampleFor]
        exact Nat.sub_le_sub_right (Nat.mul_le_mul_right _ (by omega)) _
  induction tokens generalizing i with
  | nil => exact List.Pairwise.nil
  | cons token tokens ih =>
    refine List.Pairwise.cons (fun e he => ?_) (ih (i + 1))
    refine le_trans ?_ (hends (i + 1) tokens e he)
    simp only [tokenEvent, pendingAt, audioEndSampleFor]
    exact Nat.sub_le_sub_right (Nat.mul_le_mul_right _ (by omega)) _

/-- Events stay on the timeline of the real audio, in a run in which no decoder step was made at a
position of the right padding: an event ends within the samples received when it was recorded, the
TOKEN events end in order, and no TOKEN event or snapshot ends later than FINAL_TEXT and COMPLETED. -/
theorem events_on_real_timeline [Zero α] (eng : Engine α φ ε γ κ) (maxEvents : ℕ)
    (device : Device ε γ κ) (ops : List Op) (s : Stream α φ ε γ κ) (os : List Response)
    (hrun : runSteps (streamStep eng) (Stream.create maxEvents device) ops = some (s, os))
    (hended : s.frontend.melFe.finalized = true → ∀ prevToken position row token,
      .decoderStep prevToken position row token ∈ s.trace →
        1280 * (position + 1) ≤ 40960 + s.frontend.realSamples.length) :
    (∀ e accepted, .enqueued e accepted ∈ s.trace →
      e.audioEndSample ≤ accepted ∧ e.tAudioSamples ≤ accepted) ∧
    ((eventHistory s).filter StreamEvent.isToken).Pairwise
      (fun e e' => e.audioEndSample ≤ e'.audioEndSample) ∧
    ∀ e ∈ eventHistory s, (e.type = .token ∨ e.type = .partialText) →
      ∀ e' ∈ eventHistory s, (e'.type = .finalText ∨ e'.type = .completed) →
        ∀ n n', (publicEvent e n).audioEndMs ≤ (publicEvent e' n').audioEndMs := by
  have h : OnTimeline s := stream_invariant True (fun _ _ hstep hw h => hstep.onTimeline hw h)
    (fun _ h => h.poll) (onTimeline_create maxEvents device) (Or.inl trivial) hrun
  have hplaced : ∀ e accepted, Placed s e accepted → e.EndsBy accepted := by
    rintro e accepted ⟨-, hends | ⟨hfinal, haccepted, _, position, _, _, hmem, hends⟩⟩
    · exact hends
    · refine hends.mono ?_
      have hstep := hended hfinal _ _ _ _ hmem
      rw [haccepted]
      simp only [audioEndSampleFor, rawAudioLengthPerTok, streamLeftPad, nLeftPadTokens]
      omega
  refine ⟨fun e accepted he => hplaced e accepted (h.enqueued e accepted he), ?_, ?_⟩
  · obtain ⟨tokens, hdelivered⟩ := exists_delivered hrun
    rw [hdelivered.events]
    exact tokenEvents_ordered eng 0 tokens
  · intro e he _ e' he' hterm n n'
    have hends := (hplaced e _ (h.history e he)).2
    rw [← (h.terminal e' he' hterm).1] at hends
    exact Nat.div_le_div_right (Nat.mul_le_mul_right _ hends)

/-- A decoder that ends the stream with its first token leaves the right padding alone. -/
theorem events_on_real_timeline_ended : ∃ s os,
    runSteps (streamStep endingEngine) (Stream.create 64 plainDevice) [feedZeros 16000, .finish] =
      some (s, os) ∧ s.lifecycle.state = .completed ∧
    ∀ e accepted, .enqueued e accepted ∈ s.trace →
      e.audioEndSample ≤ accepted ∧ e.tAudioSamples ≤ accepted := by
  obtain ⟨s, os, hrun, -, halike⟩ := exists_pacedRun endingEngine_runs 64 [feedZeros 16000, .finish]
    (by simp [TotalFits])
  simp only [List.map_cons, feedZeros_paced, finish_paced, List.map_nil] at halike
  have hmodel : let m := (pacedRun endingEngine 64 plainDevice [.feed false 16000, .finish]).1
      m.lifecycle.state = .completed ∧ m.lifecycle.totalSamplesReceived = 16000 ∧
        m.decoder.tokenSequence = 1 ∧ m.decoder.pending = none := by
    decide +kernel
  simp only [halike.lifecycle, halike.decoder] at hmodel
  obtain ⟨hstate, htotal, hsequence, hpending⟩ := hmodel
  have hlength : 16000 ≤ s.frontend.realSamples.length := by
    have h : OnTimeline s := stream_invariant True (fun _ _ hstep hw h => hstep.onTimeline hw h)
      (fun _ h => h.poll) (onTimeline_create 64 plainDevice) (Or.inl trivial) hrun
    exact htotal ▸ h.total
  -- the only step is the one at position 38
  obtain ⟨tokens, hdelivered⟩ := exists_delivered hrun
  obtain ⟨token, rfl⟩ := List.length_eq_one_iff.mp (hdelivered.sequence.symm.trans hsequence)
  have hsteps := hdelivered.entries
  rw [hpending, stashedStep, List.append_nil] at hsteps
  have honly : ∀ prevToken position row token, .decoderStep prevToken position row token ∈ s.trace →
      1280 * (position + 1) ≤ 40960 + s.frontend.realSamples.length := by
    intro prevToken position row token' hmem
    have hentry : DecodeEntry.step prevToken position token' ∈ decodeEntries s.trace :=
      List.mem_filterMap.mpr ⟨_, hmem, rfl⟩
    rw [hsteps] at hentry
    simp only [deliveries, List.mem_cons, DecodeEntry.step.injEq, reduceCtorEq, List.not_mem_nil,
      or_false] at hentry
    rw [hentry.2.1, firstPosition, promptLength]
    omega
  exact ⟨s, os, hrun, hstate, (events_on_real_timeline endingEngine 64 plainDevice _ s os hrun
    fun _ => honly).1⟩

/-- A finish decodes the right padding at positions behind the audio: one sample of audio ends after
0 ms, and the first token of its completed stream after 560 ms. -/
theorem token_behind_the_audio : ∃ s os,
    runSteps (streamStep (plainEngine defaultSchedule)) (Stream.create 64 plainDevice)
      [feedZeros 1, .finish] = some (s, os) ∧ s.lifecycle.state = .completed ∧
    ∃ e ∈ s.events.queue, e.type = .token ∧ s.lifecycle.totalSamplesReceived < e.audioEndSample ∧
      ∃ e' ∈ s.events.queue, e'.type = .finalText ∧
        (publicEvent e' 0).audioEndMs < (publicEvent e 0).audioEndMs := by
  obtain ⟨s, os, hrun, -, halike⟩ := exists_pacedRun (plainEngine_runs defaultSchedule) 64 [feedZeros 1, .finish]
    (by simp [TotalFits])
  simp only [List.map_cons, feedZeros_paced, finish_paced, List.map_nil] at halike
  have hended : let m := (pacedRun (plainEngine defaultSchedule) 64 plainDevice
      [.feed false 1, .finish]).1
      m.lifecycle.state = .completed ∧
        ∃ e ∈ m.events.queue, e.type = .token ∧ m.lifecycle.totalSamplesReceived < e.audioEndSample ∧
          ∃ e' ∈ m.events.queue, e'.type = .finalText ∧
            (publicEvent e' 0).audioEndMs < (publicEvent e 0).audioEndMs := by
    decide +kernel
  simp only [halike.lifecycle, halike.events] at hended
  exact ⟨s, os, hrun, hended⟩

end Voxtral
