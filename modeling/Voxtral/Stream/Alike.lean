import Voxtral.Stream.PumpOutcome

/-!
# Streams that a pump cannot tell apart

A pass of `pump_incremental` depends on the decoder, the queue and the lifecycle, on how many frames
the encoder has emitted, and on the values the device rings hold at the positions it reads.  Two
streams that agree on these are `Alike`; a pump returns the same for both and leaves them alike.
Nothing is asked of ring slots never written and of a decoder state that was never prefilled.
-/

namespace Voxtral

variable {α φ ε γ κ : Type*} {eng : Engine α φ ε γ κ} {s t : Stream α φ ε γ κ} {n : ℕ}

/-- A pump cannot tell the streams apart; the groups below `n` are written. -/
structure Alike (eng : Engine α φ ε γ κ) (n : ℕ) (s t : Stream α φ ε γ κ) : Prop where
  params : t.params = s.params
  lifecycle : t.lifecycle = s.lifecycle
  decoder : t.decoder = s.decoder
  events : t.events = s.events
  emitted : t.frontend.enc.emitted = s.frontend.enc.emitted
  /-- The same graphs will fail. -/
  submits : (∀ k, eng.submitFails k = false) ∨ t.device.submits = s.device.submits
  decKv : s.decoder.decoderPrefillDone = true → t.device.decKv = s.device.decKv
  encRows : s.device.encOutRing.AgreeBelow t.device.encOutRing encOutRingCap s.frontend.enc.emitted
  embRows : s.device.audioEmbRing.AgreeBelow t.device.audioEmbRing aembRingCap n

/-- Two results: the same answer, and streams that are alike. -/
def Paired {β : Type*} (eng : Engine α φ ε γ κ) (r r' : Stream α φ ε γ κ × β) : Prop :=
  r'.2 = r.2 ∧ Alike eng r.1.decoder.adapterGroupsCommitted r.1 r'.1

/-- Streams alike up to a group are alike up to every earlier one. -/
lemma Alike.mono {m : ℕ} (h : Alike eng n s t) (hle : m ≤ n) : Alike eng m s t :=
  { h with embRows := h.embRows.mono hle }

/-- The same change of the decoder records that leaves the prefill alone. -/
lemma Alike.mapDecoder (h : Alike eng n s t) (f : Decoder → Decoder)
    (hf : ∀ d, (f d).decoderPrefillDone = d.decoderPrefillDone)
    (trace trace' : List (TraceEntry ε γ)) :
    Alike eng n { s with decoder := f s.decoder, trace := trace }
      { t with decoder := f t.decoder, trace := trace' } :=
  ⟨h.params, h.lifecycle, congrArg f h.decoder, h.events, h.emitted, h.submits,
    fun hd => h.decKv ((hf _).symm.trans hd), h.encRows, h.embRows⟩

/-- The same change of the queues. -/
lemma Alike.mapEvents (h : Alike eng n s t) (f : Events → Events)
    (trace trace' : List (TraceEntry ε γ)) :
    Alike eng n { s with events := f s.events, trace := trace }
      { t with events := f t.events, trace := trace' } :=
  ⟨h.params, h.lifecycle, h.decoder, congrArg f h.events, h.emitted, h.submits, h.decKv, h.encRows,
    h.embRows⟩

/-- The same change of the lifecycles. -/
lemma Alike.mapLifecycle (h : Alike eng n s t) (f : Lifecycle → Lifecycle) :
    Alike eng n { s with lifecycle := f s.lifecycle } { t with lifecycle := f t.lifecycle } :=
  ⟨h.params, congrArg f h.lifecycle, h.decoder, h.events, h.emitted, h.submits, h.decKv, h.encRows,
    h.embRows⟩

/-- An error is noted alike. -/
lemma setError_alike (h : Alike eng n s t) (status : Status) (msg : String) :
    Alike eng n (setError s status msg) (setError t status msg) :=
  h.mapLifecycle fun l => { l with lastStatus := status, lastError := msg }

/-- Submitting a graph. -/
lemma submitGraph_alike (h : Alike eng n s t) :
    (submitGraph eng t).2 = (submitGraph eng s).2 ∧
      Alike eng n (submitGraph eng s).1 (submitGraph eng t).1 := by
  rcases h.submits with hruns | hsubmits
  · exact ⟨by simp only [submitGraph, hruns], h.params, h.lifecycle, h.decoder, h.events, h.emitted,
      Or.inl hruns, h.decKv, h.encRows, h.embRows⟩
  · exact ⟨by simp only [submitGraph, hsubmits], h.params, h.lifecycle, h.decoder, h.events,
      h.emitted, Or.inr (congrArg (· + 1) hsubmits), h.decKv, h.encRows, h.embRows⟩

/-! ## The adapter stage -/

/-- The rows read for a group of emitted frames. -/
lemma Alike.adapterRows_values (h : Alike eng n s t) {group : ℕ}
    (hgroup : group < s.frontend.enc.emitted / downsampleFactor) :
    (adapterRows t.device.encOutRing group).map RingRow.value =
      (adapterRows s.device.encOutRing group).map RingRow.value := by
  simp only [adapterRows, List.map_map]
  refine List.map_congr_left fun j hj => h.encRows _ ?_
  have hj' := List.mem_range.mp hj
  simp only [downsampleFactor] at hgroup hj' ⊢
  omega

/-- A group is committed alike. -/
lemma commitGroup_alike (h : Alike eng n s t)
    (hn : n < s.frontend.enc.emitted / downsampleFactor) :
    Alike eng (n + 1) (commitGroup eng s n) (commitGroup eng t n) := by
  refine ⟨h.params, h.lifecycle, h.decoder, h.events, h.emitted, h.submits, h.decKv, h.encRows, ?_⟩
  simp only [commitGroup]
  rw [h.adapterRows_values hn]
  exact h.embRows.write _

/-- A group leaves the frontend. -/
lemma commitGroup_frontend (s : Stream α φ ε γ κ) (group : ℕ) :
    (commitGroup eng s group).frontend = s.frontend := rfl

/-- So do groups in a row. -/
lemma commitGroups_frontend (s : Stream α φ ε γ κ) (group k : ℕ) :
    (commitGroups eng s group k).frontend = s.frontend := by
  induction k with
  | zero => rfl
  | succ k ih => rw [commitGroups, commitGroup_frontend, ih]

/-- Groups in a row are committed alike. -/
lemma commitGroups_alike (h : Alike eng n s t) (k : ℕ)
    (hk : n + k ≤ s.frontend.enc.emitted / downsampleFactor) :
    Alike eng (n + k) (commitGroups eng s n k) (commitGroups eng t n k) := by
  induction k with
  | zero => exact h
  | succ k ih =>
    refine commitGroup_alike (ih (by omega)) ?_
    rw [commitGroups_frontend]
    change n + k < s.frontend.enc.emitted / downsampleFactor
    omega

/-- `voxtral_ctx_adapter_commit`: on success all groups are written to both rings. -/
lemma adapterCommitLoop_alike (fuel k : ℕ) (h : Alike eng n s t)
    (hk : n + k ≤ s.frontend.enc.emitted / downsampleFactor) (hfuel : k ≤ fuel) :
    (adapterCommitLoop eng fuel t n k).2 = (adapterCommitLoop eng fuel s n k).2 ∧
      Alike eng n (adapterCommitLoop eng fuel s n k).1 (adapterCommitLoop eng fuel t n k).1 ∧
      ((adapterCommitLoop eng fuel s n k).2 = true → Alike eng (n + k)
        (adapterCommitLoop eng fuel s n k).1 (adapterCommitLoop eng fuel t n k).1) := by
  induction fuel generalizing s t n k with
  | zero =>
    obtain rfl : k = 0 := by omega
    exact ⟨rfl, h, fun _ => h⟩
  | succ fuel ih =>
    rw [adapterCommitLoop, adapterCommitLoop]
    by_cases hzero : k = 0
    · subst hzero
      exact ⟨rfl, h, fun _ => h⟩
    · obtain ⟨hran, hsubmit⟩ := submitGraph_alike h
      simp only [if_neg hzero, hran]
      cases (submitGraph eng s).2 with
      | false => exact ⟨rfl, hsubmit, fun hfalse => absurd hfalse (by simp)⟩
      | true =>
        simp only [Bool.not_true, Bool.false_eq_true, if_false]
        have hrun : 1 ≤ (if 32 ≤ k then 32 else 1) ∧ (if 32 ≤ k then 32 else 1) ≤ k := by
          split_ifs <;> omega
        set run := if 32 ≤ k then 32 else 1
        have hgroups := commitGroups_alike hsubmit run (by
          change n + run ≤ s.frontend.enc.emitted / downsampleFactor
          omega)
        obtain ⟨hanswer, halike, hdone⟩ := ih (k - run) hgroups (by
          rw [commitGroups_frontend]
          change n + run + (k - run) ≤ s.frontend.enc.emitted / downsampleFactor
          omega) (by omega)
        rw [show n + run + (k - run) = n + k by omega] at hdone
        exact ⟨hanswer, halike.mono (Nat.le_add_right n run), hdone⟩

/-- As many groups can be committed. -/
lemma Alike.committable (h : Alike eng n s t) : committable t = committable s := by
  simp only [Voxtral.committable, consumedFloor, h.emitted, h.decoder]

/-- Committing groups leaves the decoder record alone. -/
lemma adapterCommitLoop_decoder (fuel group k : ℕ) (s : Stream α φ ε γ κ) :
    (adapterCommitLoop eng fuel s group k).1.decoder = s.decoder := by
  induction fuel generalizing s group k with
  | zero => rfl
  | succ fuel ih =>
    have hgroups : ∀ (s : Stream α φ ε γ κ) (m : ℕ),
        (commitGroups eng s group m).decoder = s.decoder := by
      intro s m
      induction m with
      | zero => rfl
      | succ m ih => exact ih
    rw [adapterCommitLoop]
    by_cases hzero : k = 0
    · rw [if_pos hzero]
    · simp only [if_neg hzero]
      cases hran : (submitGraph eng s).2 with
      | false => rfl
      | true =>
        simp only [Bool.not_true, Bool.false_eq_true, if_false]
        rw [ih, hgroups]
        rfl

/-- The adapter stage of a pump. -/
lemma pumpAdapter_alike (h : Alike eng s.decoder.adapterGroupsCommitted s t) :
    Paired eng (pumpAdapter eng s) (pumpAdapter eng t) := by
  rw [pumpAdapter_eq, pumpAdapter_eq, h.committable, h.decoder]
  have havail : committable s ≤ s.frontend.enc.emitted / downsampleFactor := min_le_left _ _
  by_cases hmore : s.decoder.adapterGroupsCommitted < committable s
  · set k := committable s - s.decoder.adapterGroupsCommitted with hk
    have hsum : s.decoder.adapterGroupsCommitted + k = committable s := by omega
    obtain ⟨hanswer, halike, hdone⟩ := adapterCommitLoop_alike k k h (by omega) le_rfl
    have hdecoder :
        (adapterCommitLoop eng k s s.decoder.adapterGroupsCommitted k).1.decoder = s.decoder :=
      adapterCommitLoop_decoder k s.decoder.adapterGroupsCommitted k s
    rw [if_pos hmore, if_pos hmore]
    simp only [hanswer]
    by_cases hran : (adapterCommitLoop eng k s s.decoder.adapterGroupsCommitted k).2 = true
    · rw [if_pos hran, if_pos hran]
      have hall := hdone hran
      rw [hsum] at hall
      exact ⟨rfl, hall.mapDecoder (fun d => { d with
        adapterGroupsCommitted := committable s
        adapterCommitCalls := d.adapterCommitCalls + 1 }) (fun _ => rfl) _ _⟩
    · rw [if_neg hran, if_neg hran]
      refine ⟨rfl, setError_alike (halike.mono ?_) _ _⟩
      exact (congrArg Decoder.adapterGroupsCommitted hdecoder).le
  · rw [if_neg hmore, if_neg hmore]
    exact ⟨rfl, h⟩

/-! ## The prefill stage -/

/-- The embeddings the prefill reads. -/
lemma Alike.prefillRows_values (h : Alike eng n s t) (hn : promptLength - 1 ≤ n) :
    (prefillRows t).map RingRow.value = (prefillRows s).map RingRow.value := by
  simp only [prefillRows, List.map_map]
  exact List.map_congr_left fun p hp => h.embRows p ((List.mem_range.mp hp).trans_le hn)

/-- The prompt is prefilled alike. -/
lemma prefillDecoder_alike (h : Alike eng n s t) (hn : promptLength - 1 ≤ n) :
    Alike eng n (prefillDecoder eng s) (prefillDecoder eng t) := by
  unfold prefillDecoder
  rw [h.decoder, h.prefillRows_values hn]
  exact ⟨h.params, h.lifecycle, rfl, h.events, h.emitted, h.submits, fun _ => rfl, h.encRows,
    h.embRows⟩

/-- The prefill stage of a pump. -/
lemma pumpPrefill_alike (h : Alike eng s.decoder.adapterGroupsCommitted s t) :
    Paired eng (pumpPrefill eng s) (pumpPrefill eng t) := by
  unfold Paired pumpPrefill
  rw [h.decoder]
  by_cases hready : s.decoder.decoderPrefillDone = false ∧
      promptLength - 1 ≤ s.decoder.adapterGroupsCommitted
  · obtain ⟨hran, hsubmit⟩ := submitGraph_alike h
    simp only [if_pos hready, decoderPrefill, hran]
    cases (submitGraph eng s).2 with
    | false => exact ⟨rfl, setError_alike hsubmit _ _⟩
    | true => exact ⟨rfl, prefillDecoder_alike hsubmit hready.2⟩
  · rw [if_neg hready, if_neg hready]
    exact ⟨rfl, h⟩

/-! ## Events -/

/-- An event is enqueued alike. -/
lemma enqueueEvent_alike (h : Alike eng n s t) (e : StreamEvent) :
    Alike eng n (enqueueEvent s e) (enqueueEvent t e) :=
  h.mapEvents (fun ev => noteEnqueued { ev with queue := ev.queue ++ [e] } e.type) _ _

/-- A snapshot takes another's place alike. -/
lemma coalescePartial_alike (h : Alike eng n s t) (e : StreamEvent) (queue : List StreamEvent) :
    Alike eng n (coalescePartial s e queue) (coalescePartial t e queue) :=
  h.mapEvents (fun ev => { ev with
    queue := queue, partialEventsCoalesced := ev.partialEventsCoalesced + 1 }) _ _

/-- An overflow is noted alike. -/
lemma overflowed_alike (h : Alike eng n s t) (type : EventType) :
    Alike eng n (overflowed s type) (overflowed t type) := by
  have hevents := h.mapEvents (fun ev => { ev with
    eventsOverflowed := true
    eventQueueOverflowAttempts := ev.eventQueueOverflowAttempts + 1 }) s.trace t.trace
  unfold overflowed
  rw [h.events] at hevents ⊢
  exact setError_alike hevents _ _

/-- A mandatory event is pushed alike. -/
lemma pushEvent_alike (h : Alike eng n s t) (e : StreamEvent) :
    (pushEvent t e).2 = (pushEvent s e).2 ∧
      Alike eng n (pushEvent s e).1 (pushEvent t e).1 := by
  rw [pushEvent_eq, pushEvent_eq, h.events]
  split_ifs
  · exact ⟨rfl, enqueueEvent_alike h e⟩
  · exact ⟨rfl, overflowed_alike h e.type⟩

/-- An event is pushed and coalesced alike. -/
lemma pushEventCoalesced_alike (h : Alike eng n s t) (e : StreamEvent) :
    (pushEventCoalesced t e).2 = (pushEventCoalesced s e).2 ∧
      Alike eng n (pushEventCoalesced s e).1 (pushEventCoalesced t e).1 := by
  unfold pushEventCoalesced
  rw [h.events]
  split_ifs
  · exact ⟨rfl, coalescePartial_alike h e _⟩
  · exact ⟨rfl, enqueueEvent_alike h e⟩
  · cases replaceLastPartial s.events.queue e with
    | some queue => exact ⟨rfl, coalescePartial_alike h e queue⟩
    | none =>
      have hevents := h.mapEvents (fun ev => { ev with
        partialEventsCoalesced := ev.partialEventsCoalesced + 1 }) s.trace t.trace
      rw [h.events] at hevents
      exact ⟨rfl, hevents⟩
  · exact pushEvent_alike h e

/-- A snapshot is emitted alike. -/
lemma emitPartialTextEvent_alike (h : Alike eng n s t) (position : ℕ) :
    Alike eng n (emitPartialTextEvent s position) (emitPartialTextEvent t position) := by
  have hrevision := h.mapDecoder (fun d => { d with partialRevision := d.partialRevision + 1 })
    (fun _ => rfl)
    (s.trace ++ [.partialPush s.events.queue s.events.bound s.events.aggressivePartialCoalescing])
    (t.trace ++ [.partialPush t.events.queue t.events.bound t.events.aggressivePartialCoalescing])
  have hpush := (pushEventCoalesced_alike hrevision
    (partialEvent { s.decoder with partialRevision := s.decoder.partialRevision + 1 } position)).2
  unfold emitPartialTextEvent
  rw [h.decoder] at hpush ⊢
  exact hpush

/-- The decoder advances alike. -/
lemma advanceDecoder_alike (h : Alike eng n s t) (p : PendingToken) :
    Alike eng n (advanceDecoder eng s p) (advanceDecoder eng t p) := by
  have htext := h.mapDecoder
    (fun d => appendTokenToPartial eng { d with tokens := d.tokens ++ [p.token] } p.token)
    (fun _ => rfl) s.trace t.trace
  exact (emitPartialTextEvent_alike htext p.position).mapDecoder (fun d => { d with
    decoderTokensEmitted := d.decoderTokensEmitted + 1
    decoderPrevToken := p.token
    decoderPosition := d.decoderPosition + 1 }) (fun _ => rfl) _ _

/-- A token is delivered alike. -/
lemma deliverPending_alike (h : Alike eng n s t) (p : PendingToken) :
    Alike eng n (deliverPending eng s p) (deliverPending eng t p) := by
  have haccept : Alike eng n (acceptToken eng s p) (acceptToken eng t p) := by
    have hevent := enqueueEvent_alike h (tokenEvent eng p (s.decoder.tokenSequence + 1))
    have hcount := hevent.mapDecoder
      (fun d => { d with tokenSequence := d.tokenSequence + 1, pending := none }) (fun _ => rfl)
      (enqueueEvent s (tokenEvent eng p (s.decoder.tokenSequence + 1))).trace
      (enqueueEvent t (tokenEvent eng p (s.decoder.tokenSequence + 1))).trace
    unfold acceptToken
    rw [h.decoder]
    exact hcount
  unfold deliverPending
  simp only
  split_ifs
  · exact haccept.mapDecoder (fun d => { d with decoderEos := true }) (fun _ => rfl) _ _
  · exact advanceDecoder_alike haccept p

/-- A token is stashed alike. -/
lemma stallPending_alike (h : Alike eng n s t) :
    Alike eng n (stallPending s) (stallPending t) :=
  (overflowed_alike h .token).mapEvents (fun ev => { ev with decoderBackpressured := true }) _ _

/-! ## The decoder stage -/

/-- Delivering the stashed token, if there is one. -/
lemma commitPending_alike (h : Alike eng n s t) :
    (commitPending eng t).2 = (commitPending eng s).2 ∧
      Alike eng n (commitPending eng s).1 (commitPending eng t).1 := by
  cases hpending : s.decoder.pending with
  | none =>
    rw [commitPending_of_none eng hpending, commitPending_of_none eng (h.decoder ▸ hpending)]
    exact ⟨rfl, h⟩
  | some p =>
    rw [commitPending_of_some eng hpending, commitPending_of_some eng (h.decoder ▸ hpending),
      h.events]
    split_ifs
    · exact ⟨rfl, deliverPending_alike h p⟩
    · exact ⟨rfl, stallPending_alike h⟩

/-- A decoder step at a position whose group is written. -/
lemma stepDecoder_alike (h : Alike eng n s t) (hn : s.decoder.decoderPosition < n)
    (hprefill : s.decoder.decoderPrefillDone = true) :
    Alike eng n (stepDecoder eng s) (stepDecoder eng t) := by
  have hresult : stepResult eng t = stepResult eng s := by
    simp only [stepResult, stepRow, h.decoder, h.decKv hprefill]
    rw [h.embRows _ hn]
  unfold stepDecoder
  rw [h.decoder, hresult]
  exact ⟨h.params, h.lifecycle, rfl, h.events, h.emitted, h.submits, fun _ => rfl, h.encRows,
    h.embRows⟩

/-- A delivery leaves the committed groups and the prefill alone. -/
lemma commitPending_committed (eng : Engine α φ ε γ κ) (s : Stream α φ ε γ κ) :
    (commitPending eng s).1.decoder.adapterGroupsCommitted = s.decoder.adapterGroupsCommitted ∧
      (commitPending eng s).1.decoder.decoderPrefillDone = s.decoder.decoderPrefillDone := by
  cases hpending : s.decoder.pending with
  | none => rw [commitPending_of_none eng hpending]; exact ⟨rfl, rfl⟩
  | some p =>
    have h := commitPending_outcome eng hpending
    exact ⟨h.committed, h.prefillDone⟩

/-- The step loop. -/
lemma pumpStepLoop_alike (fuel : ℕ) (h : Alike eng s.decoder.adapterGroupsCommitted s t)
    (hprefill : s.decoder.decoderPrefillDone = true) :
    Paired eng (pumpStepLoop eng fuel s) (pumpStepLoop eng fuel t) := by
  induction fuel generalizing s t with
  | zero => exact ⟨rfl, h⟩
  | succ fuel ih =>
    have hmay_iff : decoderMayStep t ↔ decoderMayStep s := by
      unfold decoderMayStep
      rw [h.decoder, h.params]
    rw [pumpStepLoop_succ, pumpStepLoop_succ]
    by_cases hmay : decoderMayStep s
    · rw [if_pos hmay, if_pos (hmay_iff.mpr hmay)]
      obtain ⟨hran, hsubmit⟩ := submitGraph_alike h
      rw [hran]
      split_ifs
      · have hstep := stepDecoder_alike hsubmit hmay.1 hprefill
        obtain ⟨hanswer, hdeliver⟩ := commitPending_alike hstep
        obtain ⟨hcommitted, hdone⟩ :=
          commitPending_committed eng (stepDecoder eng (submitGraph eng s).1)
        simp only [hanswer]
        split_ifs
        · exact ih (hcommitted ▸ hdeliver) (hdone.trans hprefill)
        · exact ⟨rfl, hcommitted ▸ hdeliver⟩
      · exact ⟨rfl, setError_alike hsubmit _ _⟩
    · rw [if_neg hmay, if_neg (mt hmay_iff.mp hmay)]
      exact ⟨rfl, h⟩

/-- The decoder stage of a pump. -/
lemma pumpDecoder_alike (h : Alike eng s.decoder.adapterGroupsCommitted s t) :
    Paired eng (pumpDecoder eng s) (pumpDecoder eng t) := by
  unfold pumpDecoder
  rw [h.decoder]
  split_ifs with hprefill
  · exact ⟨rfl, h⟩
  · obtain ⟨hanswer, hdeliver⟩ := commitPending_alike h
    obtain ⟨hcommitted, hdone⟩ := commitPending_committed eng s
    simp only [hanswer]
    split_ifs
    · exact ⟨rfl, hcommitted ▸ hdeliver⟩
    · have hclear := hdeliver.mapEvents (fun ev => { ev with decoderBackpressured := false })
        (commitPending eng s).1.trace (commitPending eng t).1.trace
      have hfuel : (commitPending eng t).1.decoder.adapterGroupsCommitted -
          (commitPending eng t).1.decoder.decoderPosition =
          (commitPending eng s).1.decoder.adapterGroupsCommitted -
            (commitPending eng s).1.decoder.decoderPosition := by rw [hdeliver.decoder]
      rw [← hcommitted] at hclear
      rw [hfuel]
      rw [Bool.not_eq_false] at hprefill
      exact pumpStepLoop_alike _ hclear (hdone.trans hprefill)

/-- A pass of `pump_incremental` on streams it cannot tell apart. -/
theorem pumpIncremental_alike (h : Alike eng s.decoder.adapterGroupsCommitted s t) :
    Paired eng (pumpIncremental eng s) (pumpIncremental eng t) := by
  obtain ⟨hanswer, hadapter⟩ := pumpAdapter_alike h
  obtain ⟨hanswer', hprefill⟩ := pumpPrefill_alike hadapter
  unfold pumpIncremental
  simp only [hanswer, hanswer']
  split_ifs
  · exact ⟨rfl, hadapter⟩
  · exact ⟨rfl, hprefill⟩
  · exact pumpDecoder_alike hprefill

end Voxtral
