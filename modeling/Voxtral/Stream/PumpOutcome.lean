import Voxtral.Stream.Queue

/-!
# Where a pump leads

A pump that does not fail in the backend commits every complete group the audio-embedding ring has
room for, prefills the decoder as soon as the prompt is covered, and then either works off all
committed positions or stops at a full queue with the last token stashed.
-/

namespace Voxtral

variable {α φ ε γ κ : Type*} {eng : Engine α φ ε γ κ} {s s' : Stream α φ ε γ κ}

/-! ## What a pump returns -/

/-- What a pump can return. -/
def PumpStatus (status : Status) : Prop :=
  status = .ok ∨ status = .limitExceeded ∨ status = .backendError

/-- The answers of the step loop. -/
lemma pumpStepLoop_status (fuel : ℕ) (s : Stream α φ ε γ κ) :
    PumpStatus (pumpStepLoop eng fuel s).2 := by
  induction fuel generalizing s with
  | zero => exact Or.inl rfl
  | succ fuel ih =>
    rw [pumpStepLoop_succ]
    simp only
    split_ifs
    · exact ih _
    · exact Or.inr (Or.inl rfl)
    · exact Or.inr (Or.inr rfl)
    · exact Or.inl rfl

/-- The answers of the decoder part of a pump. -/
lemma pumpDecoder_status (s : Stream α φ ε γ κ) : PumpStatus (pumpDecoder eng s).2 := by
  unfold pumpDecoder
  simp only
  split_ifs
  · exact Or.inl rfl
  · exact Or.inr (Or.inl rfl)
  · exact pumpStepLoop_status _ _

/-- The pump succeeds, stalls on a full queue, or fails in the backend. -/
lemma pumpIncremental_status (eng : Engine α φ ε γ κ) (s : Stream α φ ε γ κ) :
    PumpStatus (pumpIncremental eng s).2 := by
  have hadapter : PumpStatus (pumpAdapter eng s).2 := by
    unfold pumpAdapter
    simp only
    split_ifs <;> simp [PumpStatus]
  have hprefill : PumpStatus (pumpPrefill eng (pumpAdapter eng s).1).2 := by
    unfold pumpPrefill
    simp only
    split_ifs <;> simp [PumpStatus]
  unfold pumpIncremental
  simp only
  split_ifs
  · exact hadapter
  · exact hprefill
  · exact pumpDecoder_status _

/-! ## The adapter stage -/

/-- The groups a pump commits: the complete ones, as far as the ring has room. -/
def committable (s : Stream α φ ε γ κ) : ℕ :=
  min (s.frontend.enc.emitted / downsampleFactor) (consumedFloor s + aembRingCap)

variable (eng) (s) in
/-- If no graph fails, the adapter commits every group. -/
lemma adapterCommitLoop_runs (hruns : ∀ n, eng.submitFails n = false) (fuel group n : ℕ) :
    (adapterCommitLoop eng fuel s group n).2 = true := by
  induction fuel generalizing s group n with
  | zero => rfl
  | succ fuel ih =>
    rw [adapterCommitLoop]
    by_cases hn : n = 0
    · rw [if_pos hn]
    · rw [if_neg hn]
      simp only [submitGraph, hruns, Bool.not_false, Bool.not_true, Bool.false_eq_true, if_false]
      exact ih _ _ _

/-- The adapter stage: compute the groups that can be committed, and record them. -/
lemma pumpAdapter_eq (eng : Engine α φ ε γ κ) (s : Stream α φ ε γ κ) :
    pumpAdapter eng s =
      if s.decoder.adapterGroupsCommitted < committable s then
        let n := committable s - s.decoder.adapterGroupsCommitted
        let r := adapterCommitLoop eng n s s.decoder.adapterGroupsCommitted n
        if r.2 then
          ({ r.1 with decoder := { r.1.decoder with
              adapterGroupsCommitted := committable s
              adapterCommitCalls := r.1.decoder.adapterCommitCalls + 1 } }, .ok)
        else (setError r.1 .backendError "incremental adapter commit failed", .backendError)
      else (s, .ok) := by
  have hcommittable : min (s.frontend.enc.emitted / downsampleFactor)
      ((if s.decoder.decoderPrefillDone = true then s.decoder.decoderPosition else 0) +
        aembRingCap) = committable s := rfl
  simp only [pumpAdapter, hcommittable, adapterCommit]
  cases adapterCommitLoop eng (committable s - s.decoder.adapterGroupsCommitted) s
    s.decoder.adapterGroupsCommitted (committable s - s.decoder.adapterGroupsCommitted) with
  | mk u ran => cases ran <;> rfl

/-- The adapter stage commits the groups, or a graph failed. -/
structure AdapterOutcome (eng : Engine α φ ε γ κ) (s s' : Stream α φ ε γ κ) (status : Status) :
    Prop where
  decoder : ∃ calls, s'.decoder = { s.decoder with
    adapterGroupsCommitted := s'.decoder.adapterGroupsCommitted, adapterCommitCalls := calls }
  frontend : s'.frontend = s.frontend
  events : s'.events = s.events
  params : s'.params = s.params
  committed : status = .ok → s'.decoder.adapterGroupsCommitted = committable s
  result : status = .ok ∨ status = .backendError
  runs : (∀ n, eng.submitFails n = false) → status = .ok

variable (eng) in
/-- What the adapter part of a pump leaves behind. -/
lemma pumpAdapter_outcome (hfloor : consumedFloor s ≤ s.decoder.adapterGroupsCommitted)
    (hle : s.decoder.adapterGroupsCommitted ≤ committable s) :
    AdapterOutcome eng s (pumpAdapter eng s).1 (pumpAdapter eng s).2 := by
  have hcommittable : min (s.frontend.enc.emitted / downsampleFactor)
      ((if s.decoder.decoderPrefillDone = true then s.decoder.decoderPosition else 0) +
        aembRingCap) = committable s := rfl
  have hroom : committable s ≤ consumedFloor s + aembRingCap := min_le_right _ _
  have havail : committable s ≤ s.frontend.enc.emitted / downsampleFactor := min_le_left _ _
  simp only [pumpAdapter, hcommittable, adapterCommit]
  by_cases hmore : s.decoder.adapterGroupsCommitted < committable s
  · rw [if_pos hmore]
    set n := committable s - s.decoder.adapterGroupsCommitted with hn
    have hempty : GroupsWritten eng s s.decoder.adapterGroupsCommitted
        s.decoder.adapterGroupsCommitted := fun g h h' => by omega
    obtain ⟨-, hframe, -⟩ := adapterCommitLoop_steps n s.decoder.adapterGroupsCommitted n
      le_rfl le_rfl (by omega) (by omega) (by omega) le_rfl hempty
    have hrun := adapterCommitLoop_runs eng s
    cases hok : (adapterCommitLoop eng n s s.decoder.adapterGroupsCommitted n).2 with
    | false =>
      simp only [Bool.not_false, if_true]
      refine ⟨⟨s.decoder.adapterCommitCalls, ?_⟩, hframe.frontend, hframe.events, hframe.params,
        fun hbad => absurd hbad (by decide), Or.inr rfl, fun hruns => ?_⟩
      · simp only [setError, hframe.decoder]
      · rw [hrun hruns] at hok
        exact absurd hok (by decide)
    | true =>
      simp only [Bool.not_true, Bool.false_eq_true, if_false]
      refine ⟨⟨_, by rw [hframe.decoder]⟩, hframe.frontend, hframe.events, hframe.params,
        fun _ => rfl, Or.inl rfl, fun _ => rfl⟩
  · rw [if_neg hmore]
    exact ⟨⟨s.decoder.adapterCommitCalls, rfl⟩, rfl, rfl, rfl,
      fun _ => le_antisymm hle (not_lt.mp hmore), Or.inl rfl, fun _ => rfl⟩

/-! ## Deliveries -/

/-- A snapshot lengthens the queue by at most one. -/
lemma SnapshotPush.length_le {bound : ℕ} {aggressive : Bool} {e : StreamEvent}
    {queue queue' : List StreamEvent} (h : SnapshotPush bound aggressive e queue queue') :
    queue'.length ≤ queue.length + 1 := by
  cases h with
  | append => simp
  | moveBack => simp
  | replace => simp
  | drop => omega

/-- What a delivery does to the queue and its flags. -/
lemma deliverPending_events (eng : Engine α φ ε γ κ) (s : Stream α φ ε γ κ) (p : PendingToken) :
    (deliverPending eng s p).events.queue.length ≤ s.events.queue.length + 2 ∧
      (deliverPending eng s p).events.decoderBackpressured = s.events.decoderBackpressured ∧
      (deliverPending eng s p).events.bound = s.events.bound ∧
      (deliverPending eng s p).params = s.params := by
  by_cases heos : p.token = tokenEos
  · rw [deliverPending_eos heos]
    exact ⟨by simp [acceptToken, enqueueEvent, noteEnqueued], rfl, rfl, rfl⟩
  · obtain ⟨hpush, -⟩ := deliverPending_text_events eng s heos
    have hlen := hpush.length_le
    have hframe := afterSnapshot_frame eng s p
    rw [List.length_append, List.length_singleton] at hlen
    refine ⟨by omega, ?_, ?_, ?_⟩ <;> rw [deliverPending_text heos]
    · exact hframe.decoderBackpressured
    · exact hframe.bound
    · exact hframe.params

/-- Where delivering the token just stashed leads. -/
structure DeliveryOutcome (s s' : Stream α φ ε γ κ) (p : PendingToken) (delivered : Bool) :
    Prop where
  committed : s'.decoder.adapterGroupsCommitted = s.decoder.adapterGroupsCommitted
  prefillDone : s'.decoder.decoderPrefillDone = s.decoder.decoderPrefillDone
  bound : s'.events.bound = s.events.bound
  params : s'.params = s.params
  /-- A delivered token ends the stream or moves the position. -/
  moved : delivered = true → s'.decoder.pending = none ∧
    s'.events.decoderBackpressured = s.events.decoderBackpressured ∧
    s'.events.queue.length ≤ s.events.queue.length + 2 ∧
    ((s'.decoder.decoderEos = true ∧ s'.decoder.decoderPosition = s.decoder.decoderPosition) ∨
      (s'.decoder.decoderEos = s.decoder.decoderEos ∧
        s'.decoder.decoderPosition = s.decoder.decoderPosition + 1))
  stalled : delivered = false → s'.decoder = s.decoder ∧
    s'.events.decoderBackpressured = true ∧ s'.events.queue = s.events.queue ∧
    s.events.bound ≤ s.events.queue.length

/-- What the delivery of a stashed token leaves behind. -/
lemma commitPending_outcome (eng : Engine α φ ε γ κ) {p : PendingToken}
    (hpending : s.decoder.pending = some p) :
    DeliveryOutcome s (commitPending eng s).1 p (commitPending eng s).2 := by
  rw [commitPending_of_some eng hpending]
  by_cases hroom : s.events.queue.length < s.events.bound
  · rw [if_pos hroom]
    obtain ⟨hlen, hbp, hbound, hparams⟩ := deliverPending_events eng s p
    have hdec := deliverPending_decoder eng s p
    refine ⟨?_, ?_, hbound, hparams, fun _ => ⟨?_, hbp, hlen, ?_⟩,
      fun hfalse => absurd hfalse (by simp)⟩
    all_goals simp only [hdec, decoderAfter, appendTokenToPartial]
    · split_ifs <;> rfl
    · split_ifs <;> rfl
    · split_ifs <;> rfl
    · split_ifs
      · exact Or.inl ⟨rfl, rfl⟩
      · exact Or.inr ⟨rfl, rfl⟩
  · rw [if_neg hroom]
    exact ⟨rfl, rfl, rfl, rfl, fun htrue => absurd htrue (by simp),
      fun _ => ⟨rfl, rfl, rfl, not_lt.mp hroom⟩⟩

/-! ## The step loop -/

/-- Where decoding leads that starts with nothing stashed. -/
structure DecodeOutcome (eng : Engine α φ ε γ κ) (s s' : Stream α φ ε γ κ) (status : Status) :
    Prop where
  committed : s'.decoder.adapterGroupsCommitted = s.decoder.adapterGroupsCommitted
  prefillDone : s'.decoder.decoderPrefillDone = s.decoder.decoderPrefillDone
  position : s.decoder.decoderPosition ≤ s'.decoder.decoderPosition
  bound : s'.events.bound = s.events.bound
  params : s'.params = s.params
  done : status = .ok → s'.decoder.pending = none ∧ ¬ decoderMayStep s' ∧
    s'.events.decoderBackpressured = s.events.decoderBackpressured
  stalled : status = .limitExceeded → s'.decoder.pending ≠ none ∧
    s'.decoder.decoderEos = false ∧ s'.events.decoderBackpressured = true ∧
    s'.events.bound ≤ s'.events.queue.length
  runs : (∀ n, eng.submitFails n = false) → status ≠ .backendError
  /-- A queue with room for two events for every position does not stall the decoder. -/
  room : s.decoder.decoderEos = false → s.events.queue.length +
      2 * (s.decoder.adapterGroupsCommitted - s.decoder.decoderPosition) ≤ s.events.bound + 1 →
    status ≠ .limitExceeded ∧ s'.events.queue.length ≤ s.events.queue.length +
      2 * (s.decoder.adapterGroupsCommitted - s.decoder.decoderPosition)
  /-- After the end nothing is decoded. -/
  ended : s.decoder.decoderEos = true → s' = s ∧ status = .ok

/-- A decoder that may not step. -/
lemma DecodeOutcome.refl (hpending : s.decoder.pending = none) (hdone : ¬ decoderMayStep s) :
    DecodeOutcome eng s s .ok where
  committed := rfl
  prefillDone := rfl
  position := le_rfl
  bound := rfl
  params := rfl
  done := fun _ => ⟨hpending, hdone, rfl⟩
  stalled := fun h => absurd h (by decide)
  runs := fun _ => by decide
  room := fun _ _ => ⟨by decide, Nat.le_add_right _ _⟩
  ended := fun _ => ⟨rfl, rfl⟩

/-- The step loop works off the committed positions, or stops at a full queue. -/
lemma pumpStepLoop_outcome (fuel : ℕ) (hpending : s.decoder.pending = none)
    (hfuel : s.decoder.adapterGroupsCommitted ≤ s.decoder.decoderPosition + fuel) :
    DecodeOutcome eng s (pumpStepLoop eng fuel s).1 (pumpStepLoop eng fuel s).2 := by
  induction fuel generalizing s with
  | zero =>
    refine DecodeOutcome.refl hpending fun hmay => ?_
    have hlt := hmay.1
    omega
  | succ fuel ih =>
    rw [pumpStepLoop_succ]
    by_cases hmay : decoderMayStep s
    · rw [if_pos hmay]
      obtain ⟨hlt, hlive, -⟩ := hmay
      by_cases hran : (submitGraph eng s).2 = true
      · rw [if_pos hran]
        set t := stepDecoder eng (submitGraph eng s).1 with ht
        have hdeliver := commitPending_outcome eng (s := t) (p := ⟨_, _, _⟩) rfl
        set u := (commitPending eng t).1 with hu
        have hcommitted : u.decoder.adapterGroupsCommitted = s.decoder.adapterGroupsCommitted :=
          hdeliver.committed
        have hbound : u.events.bound = s.events.bound := hdeliver.bound
        simp only [← hu]
        by_cases hok : (commitPending eng t).2 = true
        · rw [if_pos hok]
          obtain ⟨hnone, hbp, hlen, hmoved⟩ := hdeliver.moved hok
          have hbp' : u.events.decoderBackpressured = s.events.decoderBackpressured := hbp
          have hlen' : u.events.queue.length ≤ s.events.queue.length + 2 := hlen
          rcases hmoved with ⟨hend, hposition⟩ | ⟨heos, hposition⟩
          · -- the end of the stream: the rest of the loop does nothing
            have hposition' : u.decoder.decoderPosition = s.decoder.decoderPosition := hposition
            have hstop : pumpStepLoop eng fuel u = (u, .ok) := by
              have hdone : ¬ decoderMayStep u := fun h => by
                rw [h.2.1] at hend
                exact absurd hend (by decide)
              cases fuel with
              | zero => rfl
              | succ fuel => rw [pumpStepLoop_succ, if_neg hdone]
            rw [hstop]
            refine ⟨hcommitted, hdeliver.prefillDone, hposition'.ge, hbound, hdeliver.params,
              fun _ => ⟨hnone, fun h => ?_, hbp'⟩, fun h => absurd h (by simp),
              fun _ => by simp, fun _ _ => ⟨by simp, ?_⟩, fun h => ?_⟩
            · rw [h.2.1] at hend
              exact absurd hend (by decide)
            · change u.events.queue.length ≤ _
              omega
            · rw [hlive] at h
              exact absurd h (by decide)
          · have hposition' : u.decoder.decoderPosition = s.decoder.decoderPosition + 1 := hposition
            have heos' : u.decoder.decoderEos = false := heos.trans hlive
            have hrest := ih hnone (by rw [hcommitted, hposition']; omega)
            refine ⟨hrest.committed.trans hcommitted,
              hrest.prefillDone.trans hdeliver.prefillDone, ?_, hrest.bound.trans hbound,
              hrest.params.trans hdeliver.params, fun h => ?_, hrest.stalled, hrest.runs,
              fun _ hroom => ?_, fun h => ?_⟩
            · have hle := hrest.position
              omega
            · obtain ⟨hn, hd, hb⟩ := hrest.done h
              exact ⟨hn, hd, hb.trans hbp'⟩
            · obtain ⟨hne, hcount⟩ := hrest.room heos' (by
                rw [hcommitted, hposition', hbound]
                omega)
              rw [hcommitted, hposition'] at hcount
              exact ⟨hne, by omega⟩
            · rw [hlive] at h
              exact absurd h (by decide)
        · rw [if_neg hok]
          obtain ⟨hdec, hbp, hqueue, hfull⟩ := hdeliver.stalled (by simpa using hok)
          have hfull' : s.events.bound ≤ s.events.queue.length := hfull
          have hposition : u.decoder.decoderPosition = s.decoder.decoderPosition := by
            rw [hdec]
            rfl
          refine ⟨hcommitted, hdeliver.prefillDone, hposition.ge, hbound, hdeliver.params,
            fun h => absurd h (by simp), fun _ => ⟨?_, ?_, hbp, ?_⟩, fun _ => by simp,
            fun _ hroom => ?_, fun h => ?_⟩
          · rw [hdec]
            simp [ht, stepDecoder]
          · rw [hdec]
            exact hlive
          · rw [hbound, hqueue]
            exact hfull'
          · omega
          · rw [hlive] at h
            exact absurd h (by decide)
      · rw [if_neg hran]
        refine ⟨rfl, rfl, le_rfl, rfl, rfl, fun h => absurd h (by simp),
          fun h => absurd h (by simp), fun hruns => ?_, fun _ _ => ⟨by simp, ?_⟩, fun h => ?_⟩
        · simp [submitGraph, hruns] at hran
        · exact Nat.le_add_right _ _
        · rw [hlive] at h
          exact absurd h (by decide)
    · rw [if_neg hmay]
      exact DecodeOutcome.refl hpending hmay

/-- Where the decoder stage leads. -/
structure StageOutcome (eng : Engine α φ ε γ κ) (s s' : Stream α φ ε γ κ) (status : Status) :
    Prop where
  committed : s'.decoder.adapterGroupsCommitted = s.decoder.adapterGroupsCommitted
  prefillDone : s'.decoder.decoderPrefillDone = true
  done : status = .ok → s'.decoder.pending = none ∧ ¬ decoderMayStep s' ∧
    s'.events.decoderBackpressured = false
  stalled : status = .limitExceeded → s'.decoder.pending ≠ none ∧
    s'.decoder.decoderEos = false ∧ s'.events.decoderBackpressured = true ∧
    s'.events.bound ≤ s'.events.queue.length
  runs : (∀ n, eng.submitFails n = false) → status ≠ .backendError
  room : s.decoder.pending = none → s.decoder.decoderEos = false → s.events.queue.length +
      2 * (s.decoder.adapterGroupsCommitted - s.decoder.decoderPosition) ≤ s.events.bound + 1 →
    status ≠ .limitExceeded ∧ s'.events.queue.length ≤ s.events.queue.length +
      2 * (s.decoder.adapterGroupsCommitted - s.decoder.decoderPosition)
  ended : s.decoder.pending = none → s.decoder.decoderEos = true →
    s'.events.queue = s.events.queue ∧ status = .ok

variable (eng) in
/-- The decoder stage delivers the stashed token and works off the committed positions, or stops at a
full queue. -/
lemma pumpDecoder_outcome (hprefill : s.decoder.decoderPrefillDone = true) (hw : DecoderWithin s) :
    StageOutcome eng s (pumpDecoder eng s).1 (pumpDecoder eng s).2 := by
  unfold pumpDecoder
  rw [if_neg (by simp [hprefill])]
  -- the step loop behind a cleared flag
  have hloop : ∀ t : Stream α φ ε γ κ, t.decoder.pending = none →
      t.decoder.decoderPrefillDone = true →
      t.decoder.adapterGroupsCommitted = s.decoder.adapterGroupsCommitted →
      (s.decoder.pending = none → t = s) →
      let u : Stream α φ ε γ κ := { t with events := { t.events with decoderBackpressured := false } }
      let r := pumpStepLoop eng (u.decoder.adapterGroupsCommitted - u.decoder.decoderPosition) u
      StageOutcome eng s r.1 r.2 := by
    intro t hnone hdone hcommitted hsame u r
    have hout : DecodeOutcome eng u r.1 r.2 := pumpStepLoop_outcome _ hnone (by omega)
    refine ⟨hout.committed.trans hcommitted, hout.prefillDone.trans hdone, hout.done, hout.stalled,
      hout.runs, fun hs hlive hroom => ?_, fun hs hend => ?_⟩
    · obtain rfl := hsame hs
      exact hout.room hlive hroom
    · obtain rfl := hsame hs
      obtain ⟨heq, hok⟩ := hout.ended hend
      exact ⟨by rw [heq], hok⟩
  cases hpending : s.decoder.pending with
  | none =>
    rw [commitPending_of_none eng hpending]
    exact hloop s hpending hprefill rfl fun _ => rfl
  | some p =>
    have hdeliver := commitPending_outcome eng hpending
    have hlive := (hw.stash p hpending).2.2
    have hne : s.decoder.pending ≠ none := by
      rw [hpending]
      exact Option.some_ne_none p
    simp only
    by_cases hok : (commitPending eng s).2 = true
    · rw [if_neg (by simp [hok])]
      exact hloop _ (hdeliver.moved hok).1 (hdeliver.prefillDone.trans hprefill) hdeliver.committed
        fun h => absurd h hne
    · simp only [Bool.not_eq_true] at hok
      obtain ⟨hdec, hbp, hqueue, hfull⟩ := hdeliver.stalled hok
      simp only [hok, Bool.not_false, if_true]
      refine ⟨hdeliver.committed, hdeliver.prefillDone.trans hprefill,
        fun h => absurd h (by simp), fun _ => ⟨?_, ?_, hbp, ?_⟩, fun _ => by simp,
        fun h => absurd h hne, fun h => absurd h hne⟩
      · rw [hdec]
        exact hne
      · rw [hdec]
        exact hlive
      · rw [hdeliver.bound, hqueue]
        exact hfull

/-! ## The whole pump -/

/-- First position not decoded once the prompt is prefilled. -/
def firstOpen (s : Stream α φ ε γ κ) : ℕ :=
  if s.decoder.decoderPrefillDone then s.decoder.decoderPosition else promptLength - 1

/-- Where a pump leads. -/
structure PumpOutcome (eng : Engine α φ ε γ κ) (s s' : Stream α φ ε γ κ) (status : Status) :
    Prop where
  result : PumpStatus status
  committed : status ≠ .backendError → s'.decoder.adapterGroupsCommitted = committable s
  prefillDone : status ≠ .backendError → (s'.decoder.decoderPrefillDone = true ↔
    s.decoder.decoderPrefillDone = true ∨ promptLength - 1 ≤ committable s)
  done : status = .ok → s'.decoder.pending = none ∧
    (s'.decoder.decoderPrefillDone = true →
      ¬ decoderMayStep s' ∧ s'.events.decoderBackpressured = false) ∧
    (s'.decoder.decoderPrefillDone = false →
      s'.events.decoderBackpressured = s.events.decoderBackpressured)
  stalled : status = .limitExceeded → s'.decoder.decoderPrefillDone = true ∧
    s'.decoder.pending ≠ none ∧ s'.decoder.decoderEos = false ∧
    s'.events.decoderBackpressured = true ∧ s'.events.bound ≤ s'.events.queue.length
  runs : (∀ n, eng.submitFails n = false) → status ≠ .backendError
  /-- A queue with room for two events for every position does not stall the pump. -/
  room : s.decoder.pending = none → s.decoder.decoderEos = false →
    s.events.queue.length + 2 * (committable s - firstOpen s) ≤ s.events.bound + 1 →
    status ≠ .limitExceeded ∧
      s'.events.queue.length ≤ s.events.queue.length + 2 * (committable s - firstOpen s)
  /-- After the end nothing is decoded. -/
  ended : s.decoder.pending = none → s.decoder.decoderEos = true →
    status ≠ .limitExceeded ∧ s'.events.queue = s.events.queue

variable (eng) in
/-- The prefill stage prefills the decoder, or there is nothing to do, or a graph failed. -/
lemma pumpPrefill_outcome (s : Stream α φ ε γ κ) :
    (pumpPrefill eng s = (s, .ok) ∧
      ¬ (s.decoder.decoderPrefillDone = false ∧
        promptLength - 1 ≤ s.decoder.adapterGroupsCommitted)) ∨
    (pumpPrefill eng s = (prefillDecoder eng (submitGraph eng s).1, .ok) ∧
      s.decoder.decoderPrefillDone = false ∧
        promptLength - 1 ≤ s.decoder.adapterGroupsCommitted) ∨
    ((pumpPrefill eng s).2 = .backendError ∧ (pumpPrefill eng s).1.events = s.events ∧
      ¬ ∀ n, eng.submitFails n = false) := by
  unfold pumpPrefill
  by_cases hready : s.decoder.decoderPrefillDone = false ∧
      promptLength - 1 ≤ s.decoder.adapterGroupsCommitted
  · rw [if_pos hready]
    by_cases hran : (submitGraph eng s).2 = true
    · refine Or.inr (Or.inl ⟨?_, hready⟩)
      have hprefill : decoderPrefill eng s = ((decoderPrefill eng s).1, true) := by
        simp only [decoderPrefill, hran]
        rfl
      rw [hprefill]
      simp only [decoderPrefill, hran]
      rfl
    · refine Or.inr (Or.inr ?_)
      have hprefill : decoderPrefill eng s = ((submitGraph eng s).1, false) := by
        simp only [decoderPrefill, Bool.not_eq_true] at hran ⊢
        simp only [hran, Bool.not_false, if_true]
      rw [hprefill]
      exact ⟨rfl, rfl, fun hruns => hran (by simp [submitGraph, hruns])⟩
  · rw [if_neg hready]
    exact Or.inl ⟨rfl, hready⟩

variable (eng) in
/-- A pump between two calls. -/
theorem pumpIncremental_outcome (hw : DecoderWithin s)
    (hle : s.decoder.adapterGroupsCommitted ≤ committable s) :
    PumpOutcome eng s (pumpIncremental eng s).1 (pumpIncremental eng s).2 := by
  have hadapter := pumpAdapter_outcome eng hw.floor hle
  have hsteps := pumpAdapter_steps eng s hw.floor
  have hstatus := pumpIncremental_status eng s
  unfold pumpIncremental at hstatus ⊢
  cases ha : pumpAdapter eng s with
  | mk t status =>
    rw [ha] at hadapter hsteps hstatus
    simp only at hadapter hstatus ⊢
    obtain ⟨calls, hdec⟩ := hadapter.decoder
    have hwt : DecoderWithin t := PumpSteps.within hsteps hw
    -- what the adapter stage leaves alone
    have hprefill_eq : t.decoder.decoderPrefillDone = s.decoder.decoderPrefillDone := by rw [hdec]
    have hposition_eq : t.decoder.decoderPosition = s.decoder.decoderPosition := by rw [hdec]
    have hpending_eq : t.decoder.pending = s.decoder.pending := by rw [hdec]
    have heos_eq : t.decoder.decoderEos = s.decoder.decoderEos := by rw [hdec]
    have hopen : firstOpen t = firstOpen s := by
      unfold firstOpen
      rw [hprefill_eq, hposition_eq]
    have hbound_eq : t.events.bound = s.events.bound := by rw [hadapter.events]
    by_cases hok : status = .ok
    · rw [if_neg (by simp [hok])] at hstatus ⊢
      have hcommitted := hadapter.committed hok
      rcases pumpPrefill_outcome eng t with ⟨hp, hnot⟩ | ⟨hp, hready⟩ | ⟨hfail, hev, hbad⟩
      · rw [hp] at hstatus ⊢
        simp only [ne_eq, not_true_eq_false, if_false] at hstatus ⊢
        by_cases hprefill : t.decoder.decoderPrefillDone = true
        · have hstage := pumpDecoder_outcome eng hprefill hwt
          have hdone := hprefill
          rw [hprefill_eq] at hdone
          refine ⟨hstatus, fun _ => hstage.committed.trans hcommitted,
            fun _ => ⟨fun _ => Or.inl hdone, fun _ => hstage.prefillDone⟩,
            fun h => ?_, fun h => ⟨hstage.prefillDone, hstage.stalled h⟩, hstage.runs,
            fun hnone hlive hroom => ?_, fun hnone hend => ?_⟩
          · obtain ⟨hnone, hmay, hbp⟩ := hstage.done h
            exact ⟨hnone, fun _ => ⟨hmay, hbp⟩, fun hfalse => absurd
              (hstage.prefillDone.symm.trans hfalse) (by decide)⟩
          · have hopen' : firstOpen s = t.decoder.decoderPosition := by
              rw [← hopen, firstOpen, if_pos hprefill]
            rw [hopen', ← hcommitted, ← hbound_eq, ← hadapter.events] at hroom
            rw [hopen', ← hcommitted, ← hadapter.events]
            exact hstage.room (hpending_eq.trans hnone) (heos_eq.trans hlive) hroom
          · obtain ⟨hqueue, hsok⟩ :=
              hstage.ended (hpending_eq.trans hnone) (heos_eq.trans hend)
            exact ⟨by rw [hsok]; decide, by rw [hqueue, hadapter.events]⟩
        · -- the prompt is not covered yet
          simp only [Bool.not_eq_true] at hprefill
          have hsmall : ¬ promptLength - 1 ≤ committable s := fun h =>
            hnot ⟨hprefill, by rwa [hcommitted]⟩
          have hstage : pumpDecoder eng t = (t, .ok) := by
            unfold pumpDecoder
            rw [if_pos hprefill]
          rw [hstage] at hstatus ⊢
          have hfresh := hprefill
          rw [hprefill_eq] at hfresh
          refine ⟨hstatus, fun _ => hcommitted, fun _ => ?_, fun _ => ?_, fun h => ?_, fun _ => ?_,
            fun _ _ _ => ?_, fun _ _ => ?_⟩
          · constructor
            · intro h
              exact absurd (h.symm.trans hprefill) (by decide)
            · rintro (h | h)
              · exact absurd (h.symm.trans hfresh) (by decide)
              · exact absurd h hsmall
          · exact ⟨(hwt.fresh hprefill).1, fun h => absurd (h.symm.trans hprefill) (by decide),
              fun _ => by rw [hadapter.events]⟩
          · exact absurd h (by simp)
          · simp
          · exact ⟨by simp, by simp only [hadapter.events]; omega⟩
          · exact ⟨by simp, by simp only [hadapter.events]⟩
      · rw [hp] at hstatus ⊢
        simp only [ne_eq, not_true_eq_false, if_false] at hstatus ⊢
        set u := prefillDecoder eng (submitGraph eng t).1 with hu
        have hwu : DecoderWithin u :=
          PumpSteps.within (.tail (.single (submitGraph_step t)) (.prefill _ hready.1 hready.2)) hwt
        have hstage := pumpDecoder_outcome eng (s := u) rfl hwu
        have hcommittedu : u.decoder.adapterGroupsCommitted = committable s := hcommitted
        have hfresh := hready.1
        rw [hprefill_eq] at hfresh
        have hopen' : firstOpen s = u.decoder.decoderPosition := by
          rw [firstOpen, hfresh]
          rfl
        have hevents : u.events = s.events := hadapter.events
        refine ⟨hstatus, fun _ => hstage.committed.trans hcommitted,
          fun _ => ⟨fun _ => Or.inr (by rw [← hcommitted]; exact hready.2),
            fun _ => hstage.prefillDone⟩,
          fun h => ?_, fun h => ⟨hstage.prefillDone, hstage.stalled h⟩, hstage.runs,
          fun hnone hlive hroom => ?_, fun hnone hend => ?_⟩
        · obtain ⟨hnone, hmay, hbp⟩ := hstage.done h
          exact ⟨hnone, fun _ => ⟨hmay, hbp⟩, fun hfalse => absurd
            (hstage.prefillDone.symm.trans hfalse) (by decide)⟩
        · rw [hopen', ← hcommittedu, ← hevents] at hroom
          rw [hopen', ← hcommittedu, ← hevents]
          exact hstage.room (hpending_eq.trans hnone) (heos_eq.trans hlive) hroom
        · rw [(hw.fresh hfresh).2] at hend
          exact absurd hend (by decide)
      · rw [if_pos (by rw [hfail]; decide)] at hstatus ⊢
        refine ⟨hstatus, fun h => absurd hfail h, fun h => absurd hfail h, fun h => ?_, fun h => ?_,
          fun hruns => absurd hruns hbad, fun _ _ _ => ⟨?_, ?_⟩, fun _ _ => ⟨?_, ?_⟩⟩
        · rw [hfail] at h
          exact absurd h (by decide)
        · rw [hfail] at h
          exact absurd h (by decide)
        · rw [hfail]
          decide
        · rw [hev, hadapter.events]
          exact Nat.le_add_right _ _
        · rw [hfail]
          decide
        · rw [hev, hadapter.events]
    · have hfail : status = .backendError := hadapter.result.resolve_left hok
      rw [if_pos hok] at hstatus ⊢
      simp only [hfail] at hstatus ⊢
      refine ⟨hstatus, fun h => absurd rfl h, fun h => absurd rfl h, fun h => absurd h (by decide),
        fun h => absurd h (by decide), fun hruns => absurd (hadapter.runs hruns) hok,
        fun _ _ _ => ⟨by decide, ?_⟩, fun _ _ => ⟨by decide, ?_⟩⟩
      · rw [hadapter.events]
        exact Nat.le_add_right _ _
      · rw [hadapter.events]

/-! ## The cause of a failed pump -/

/-- The adapter stops at a failed graph only. -/
lemma adapterCommitLoop_blame (fuel group n : ℕ)
    (hfail : (adapterCommitLoop eng fuel s group n).2 ≠ true) :
    LastGraphFailed eng (adapterCommitLoop eng fuel s group n).1 := by
  induction fuel generalizing s group n with
  | zero => exact absurd rfl hfail
  | succ fuel ih =>
    rw [adapterCommitLoop] at hfail ⊢
    by_cases hn : n = 0
    · rw [if_pos hn] at hfail
      exact absurd rfl hfail
    · simp only [if_neg hn] at hfail ⊢
      by_cases hran : (submitGraph eng s).2 = true
      · simp only [hran, Bool.not_true, Bool.false_eq_true, if_false] at hfail ⊢
        exact ih _ _ hfail
      · have hfalse := Bool.not_eq_true _ ▸ hran
        simp only [hfalse, Bool.not_false, if_true]
        exact lastGraphFailed_submit hran

/-- So its part of the pump fails for a graph only. -/
lemma pumpAdapter_blame (hfail : (pumpAdapter eng s).2 ≠ .ok) :
    LastGraphFailed eng (pumpAdapter eng s).1 := by
  rw [pumpAdapter_eq] at hfail ⊢
  split_ifs at hfail ⊢ with hmore
  · simp only at hfail ⊢
    split_ifs at hfail ⊢ with hran
    · exact absurd rfl hfail
    · exact adapterCommitLoop_blame _ _ _ hran
  · exact absurd rfl hfail

/-- So does the prefill. -/
lemma pumpPrefill_blame (hfail : (pumpPrefill eng s).2 ≠ .ok) :
    LastGraphFailed eng (pumpPrefill eng s).1 := by
  unfold pumpPrefill at hfail ⊢
  split_ifs at hfail ⊢ with hready
  · by_cases hran : (submitGraph eng s).2 = true
    · simp only [decoderPrefill, hran, Bool.not_true, Bool.false_eq_true, if_false] at hfail
      exact absurd rfl hfail
    · have hfalse := Bool.not_eq_true _ ▸ hran
      simp only [decoderPrefill, hfalse, Bool.not_false, if_true]
      exact lastGraphFailed_submit hran
  · exact absurd rfl hfail

/-- The step loop reports the backend for a failed graph only. -/
lemma pumpStepLoop_blame (fuel : ℕ) (hfail : (pumpStepLoop eng fuel s).2 = .backendError) :
    LastGraphFailed eng (pumpStepLoop eng fuel s).1 := by
  induction fuel generalizing s with
  | zero => exact absurd hfail (by simp [pumpStepLoop])
  | succ fuel ih =>
    rw [pumpStepLoop_succ] at hfail ⊢
    split_ifs at hfail ⊢ with hmay hran
    · simp only at hfail ⊢
      split_ifs at hfail ⊢
      exact ih hfail
    · exact lastGraphFailed_submit hran

/-- Only a failed graph makes a pump fail. -/
lemma pumpIncremental_blame (hfail : (pumpIncremental eng s).2 = .backendError) :
    LastGraphFailed eng (pumpIncremental eng s).1 := by
  unfold pumpIncremental at hfail ⊢
  simp only at hfail ⊢
  split_ifs at hfail ⊢ with hadapter hprefill
  · exact pumpAdapter_blame hadapter
  · exact pumpPrefill_blame hprefill
  · unfold pumpDecoder at hfail ⊢
    split_ifs at hfail ⊢ with hnot
    simp only at hfail ⊢
    split_ifs at hfail ⊢
    exact pumpStepLoop_blame _ hfail

end Voxtral
