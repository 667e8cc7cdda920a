import Voxtral.Stream.Decoder
import Mathlib.Logic.Relation

/-!
# What a pump can do

`PumpStep` lists the atomic changes a pass of `pump_incremental` is made of, each with what the code
has checked at that point.  `pumpIncremental_steps` says that a pass is a chain of them, whatever it
returns.  An invariant of the pump is shown for one atomic change at a time.
-/

namespace Voxtral

open Relation

variable {α φ ε γ κ : Type*}

/-! ## Specifications of the queue operations -/

/-- A TOKEN event is no snapshot. -/
@[simp] lemma tokenEvent_isPartial (eng : Engine α φ ε γ κ) (p : PendingToken) (n : ℕ) :
    (tokenEvent eng p n).isPartial = false := rfl

/-- The stream after an event found the queue full. -/
def overflowed (s : Stream α φ ε γ κ) (type : EventType) : Stream α φ ε γ κ :=
  setError
    { s with events := { s.events with
        eventsOverflowed := true
        eventQueueOverflowAttempts := s.events.eventQueueOverflowAttempts + 1 } }
    .limitExceeded
    ("event queue full (bound " ++ toString s.events.bound ++ "): backpressure on " ++
      eventName type ++ " event")

/-- An event is enqueued below the bound and counted as an overflow at it. -/
lemma pushEvent_eq (s : Stream α φ ε γ κ) (e : StreamEvent) :
    pushEvent s e =
      if s.events.queue.length < s.events.bound then (enqueueEvent s e, true)
      else (overflowed s e.type, false) := by
  unfold pushEvent overflowed
  split_ifs <;> first | rfl | omega

/-- Mandatory events are appended or refused. -/
lemma pushEventCoalesced_of_mandatory (s : Stream α φ ε γ κ) {e : StreamEvent}
    (he : e.isPartial = false) :
    pushEventCoalesced s e =
      if s.events.queue.length < s.events.bound then (enqueueEvent s e, true)
      else (overflowed s e.type, false) := by
  simp only [pushEventCoalesced, he, Bool.false_eq_true, false_and, if_false, pushEvent_eq]
  split_ifs <;> rfl

/-- The stream after the TOKEN event of `p` was accepted. -/
def acceptToken (eng : Engine α φ ε γ κ) (s : Stream α φ ε γ κ) (p : PendingToken) :
    Stream α φ ε γ κ :=
  let s := enqueueEvent s (tokenEvent eng p (s.decoder.tokenSequence + 1))
  { s with decoder := { s.decoder with
      tokenSequence := s.decoder.tokenSequence + 1, pending := none } }

/-- The stream after the stashed token `p` was delivered. -/
def deliverPending (eng : Engine α φ ε γ κ) (s : Stream α φ ε γ κ) (p : PendingToken) :
    Stream α φ ε γ κ :=
  let s := acceptToken eng s p
  if p.token = tokenEos then { s with decoder := { s.decoder with decoderEos := true } }
  else advanceDecoder eng s p

/-- The stream after the TOKEN event of the stashed token found the queue full. -/
def stallPending (s : Stream α φ ε γ κ) : Stream α φ ε γ κ :=
  let s := overflowed s .token
  { s with events := { s.events with decoderBackpressured := true } }

/-- Without a stashed token there is nothing to commit. -/
lemma commitPending_of_none (eng : Engine α φ ε γ κ) {s : Stream α φ ε γ κ}
    (h : s.decoder.pending = none) : commitPending eng s = (s, true) := by
  simp only [commitPending, h]

/-- The stashed token is delivered exactly when the queue has room for its event. -/
lemma commitPending_of_some (eng : Engine α φ ε γ κ) {s : Stream α φ ε γ κ} {p : PendingToken}
    (h : s.decoder.pending = some p) :
    commitPending eng s =
      if s.events.queue.length < s.events.bound then (deliverPending eng s p, true)
      else (stallPending s, false) := by
  simp only [commitPending, h, emitTokenEvent,
    pushEventCoalesced_of_mandatory s (tokenEvent_isPartial eng p _)]
  by_cases hroom : s.events.queue.length < s.events.bound
  · simp only [if_pos hroom, deliverPending, acceptToken]
    by_cases heos : p.token = tokenEos
    · simp only [Bool.not_true, Bool.false_eq_true, if_false, if_pos heos]
    · simp only [Bool.not_true, Bool.false_eq_true, if_false, if_neg heos]
  · simp only [if_neg hroom, stallPending, Bool.not_false, if_true]
    rfl

/-! ## Atomic changes -/

/-- The first position the decoder has not consumed (`consumed_floor`). -/
def consumedFloor (s : Stream α φ ε γ κ) : ℕ :=
  if s.decoder.decoderPrefillDone then s.decoder.decoderPosition else 0

/-- Changes of counters, flags and error state that no other part of the stream depends on. -/
def bookkeep (s : Stream α φ ε γ κ) (status : Status) (msg : String) (submits : ℕ)
    (overflow : Bool) (attempts : ℕ) (backpressured : Bool) : Stream α φ ε γ κ :=
  { s with
    lifecycle := { s.lifecycle with lastStatus := status, lastError := msg }
    device := { s.device with submits := submits }
    events := { s.events with
      eventsOverflowed := overflow
      eventQueueOverflowAttempts := attempts
      decoderBackpressured := backpressured } }

/-- The stream after a group of audio embeddings was recorded as committed. -/
def advanceAdapter (s : Stream α φ ε γ κ) (committed : ℕ) : Stream α φ ε γ κ :=
  { s with decoder := { s.decoder with
      adapterGroupsCommitted := committed
      adapterCommitCalls := s.decoder.adapterCommitCalls + 1 } }

/-- The audio embeddings the prefill reads. -/
def prefillRows (s : Stream α φ ε γ κ) : List (RingRow γ) :=
  (List.range (promptLength - 1)).map fun p => s.device.audioEmbRing.read aembRingCap p

/-- The stream after the prefill. -/
def prefillDecoder (eng : Engine α φ ε γ κ) (s : Stream α φ ε γ κ) : Stream α φ ε γ κ :=
  { s with
    device := { s.device with
      decKv := eng.prefill (promptIds.take (promptLength - 1))
        ((prefillRows s).map RingRow.value) }
    decoder := { s.decoder with
      decoderPrefillDone := true
      decoderPosition := promptLength - 1
      decoderPrevToken := promptIds.getD (promptLength - 1) 0 }
    trace := s.trace ++ [.prefill (prefillRows s)] }

/-- The audio embedding a decoder step reads. -/
def stepRow (s : Stream α φ ε γ κ) : RingRow γ :=
  s.device.audioEmbRing.read aembRingCap s.decoder.decoderPosition

/-- What a decoder step returns: the token and the new decoder state. -/
def stepResult (eng : Engine α φ ε γ κ) (s : Stream α φ ε γ κ) : ℤ × κ :=
  eng.decoderStep s.device.decKv s.decoder.decoderPrevToken s.decoder.decoderPosition
    (stepRow s).value

/-- The stream after a decoder step; its token is stashed. -/
def stepDecoder (eng : Engine α φ ε γ κ) (s : Stream α φ ε γ κ) : Stream α φ ε γ κ :=
  let token := (stepResult eng s).1
  { s with
    device := { s.device with decKv := (stepResult eng s).2 }
    decoder := { s.decoder with
      decoderSteps := s.decoder.decoderSteps + 1
      pending := some ⟨token, s.decoder.decoderPosition, isSpecialToken token⟩ }
    trace := s.trace ++
      [.decoderStep s.decoder.decoderPrevToken s.decoder.decoderPosition (stepRow s) token] }

/-- An atomic change of a pump, with what the code has checked when it makes it. -/
inductive PumpStep (eng : Engine α φ ε γ κ) : Stream α φ ε γ κ → Stream α φ ε γ κ → Prop
  | bookkeep (s : Stream α φ ε γ κ) (status : Status) (msg : String) (submits : ℕ)
      (overflow : Bool) (attempts : ℕ) (backpressured : Bool) :
      PumpStep eng s (bookkeep s status msg submits overflow attempts backpressured)
  /-- A group is written ahead of the committed ones, into a slot the decoder has consumed. -/
  | commitGroup (s : Stream α φ ε γ κ) (group : ℕ)
      (hcommitted : s.decoder.adapterGroupsCommitted ≤ group)
      (hcap : group < consumedFloor s + aembRingCap)
      (havail : group < s.frontend.enc.emitted / downsampleFactor) :
      PumpStep eng s (commitGroup eng s group)
  /-- The groups written are recorded, and all of them are still in the ring. -/
  | advanceAdapter (s : Stream α φ ε γ κ) (committed : ℕ)
      (hgrow : s.decoder.adapterGroupsCommitted < committed)
      (hcap : committed ≤ consumedFloor s + aembRingCap)
      (havail : committed ≤ s.frontend.enc.emitted / downsampleFactor)
      (hrows : ∀ g, s.decoder.adapterGroupsCommitted ≤ g → g < committed →
        s.device.audioEmbRing.read aembRingCap g =
          ⟨g, eng.adapterGroup ((adapterRows s.device.encOutRing g).map RingRow.value)⟩) :
      PumpStep eng s (advanceAdapter s committed)
  | prefill (s : Stream α φ ε γ κ) (hfresh : s.decoder.decoderPrefillDone = false)
      (hready : promptLength - 1 ≤ s.decoder.adapterGroupsCommitted) :
      PumpStep eng s (prefillDecoder eng s)
  | decoderStep (s : Stream α φ ε γ κ) (hprefill : s.decoder.decoderPrefillDone = true)
      (hpending : s.decoder.pending = none) (hmay : decoderMayStep s) :
      PumpStep eng s (stepDecoder eng s)
  | deliver (s : Stream α φ ε γ κ) (p : PendingToken)
      (hprefill : s.decoder.decoderPrefillDone = true) (hpending : s.decoder.pending = some p)
      (hroom : s.events.queue.length < s.events.bound) :
      PumpStep eng s (deliverPending eng s p)

/-- A chain of atomic changes. -/
abbrev PumpSteps (eng : Engine α φ ε γ κ) : Stream α φ ε γ κ → Stream α φ ε γ κ → Prop :=
  ReflTransGen (PumpStep eng)

section Chains

variable {eng : Engine α φ ε γ κ} {s s' : Stream α φ ε γ κ}

/-- Noting an error is bookkeeping of the pump. -/
lemma setError_step (s : Stream α φ ε γ κ) (status : Status) (msg : String) :
    PumpStep eng s (setError s status msg) :=
  .bookkeep s status msg s.device.submits s.events.eventsOverflowed
    s.events.eventQueueOverflowAttempts s.events.decoderBackpressured

/-- So is the submission of a graph. -/
lemma submitGraph_step (s : Stream α φ ε γ κ) : PumpStep eng s (submitGraph eng s).1 :=
  .bookkeep s s.lifecycle.lastStatus s.lifecycle.lastError (s.device.submits + 1)
    s.events.eventsOverflowed s.events.eventQueueOverflowAttempts s.events.decoderBackpressured

/-- So is the note of a stall. -/
lemma stallPending_step (s : Stream α φ ε γ κ) : PumpStep eng s (stallPending s) :=
  .bookkeep s .limitExceeded _ s.device.submits true (s.events.eventQueueOverflowAttempts + 1) true

/-! ## The adapter stage -/

/-- Nothing but the ring, the submission counter and the trace changes while groups are computed. -/
structure AdapterFrame (s s' : Stream α φ ε γ κ) : Prop where
  decoder : s'.decoder = s.decoder
  frontend : s'.frontend = s.frontend
  encOutRing : s'.device.encOutRing = s.device.encOutRing
  events : s'.events = s.events
  params : s'.params = s.params

/-- Two parts of the adapter's work. -/
lemma AdapterFrame.trans {s₁ s₂ s₃ : Stream α φ ε γ κ} (h : AdapterFrame s₁ s₂)
    (h' : AdapterFrame s₂ s₃) : AdapterFrame s₁ s₃ :=
  ⟨h'.decoder.trans h.decoder, h'.frontend.trans h.frontend, h'.encOutRing.trans h.encOutRing,
    h'.events.trans h.events, h'.params.trans h.params⟩

/-- The adapter consumes no group. -/
lemma AdapterFrame.consumedFloor (h : AdapterFrame s s') : consumedFloor s' = consumedFloor s := by
  unfold Voxtral.consumedFloor
  rw [h.decoder]

/-- The groups `[lo, hi)` are in the ring, computed from the rows the encoder ring holds. -/
def GroupsWritten (eng : Engine α φ ε γ κ) (s : Stream α φ ε γ κ) (lo hi : ℕ) : Prop :=
  ∀ g, lo ≤ g → g < hi → s.device.audioEmbRing.read aembRingCap g =
    ⟨g, eng.adapterGroup ((adapterRows s.device.encOutRing g).map RingRow.value)⟩

/-- One more group is written, within one capacity of the first one. -/
lemma commitGroup_written {lo hi : ℕ} (h : GroupsWritten eng s lo hi) (hcap : hi < lo + aembRingCap) :
    GroupsWritten eng (commitGroup eng s hi) lo (hi + 1) := by
  intro g hlo hhi
  rcases Nat.lt_succ_iff_lt_or_eq.mp hhi with hlt | rfl
  · have hnear := HistoryRing.read_write_of_near s.device.audioEmbRing
      (eng.adapterGroup ((adapterRows s.device.encOutRing hi).map RingRow.value)) hlt
      (show hi < g + aembRingCap by omega)
    exact hnear.trans (h g hlo hlt)
  · exact HistoryRing.read_write_self s.device.audioEmbRing aembRingCap g _

/-- The groups of one graph. -/
lemma commitGroups_steps {lo group : ℕ} (n : ℕ) (hlo : s.decoder.adapterGroupsCommitted ≤ lo)
    (hgroup : lo ≤ group) (hcap : group + n ≤ lo + aembRingCap)
    (hfloor : group + n ≤ consumedFloor s + aembRingCap)
    (havail : group + n ≤ s.frontend.enc.emitted / downsampleFactor)
    (h : GroupsWritten eng s lo group) :
    PumpSteps eng s (commitGroups eng s group n) ∧ AdapterFrame s (commitGroups eng s group n) ∧
      GroupsWritten eng (commitGroups eng s group n) lo (group + n) := by
  induction n with
  | zero => exact ⟨.refl, ⟨rfl, rfl, rfl, rfl, rfl⟩, h⟩
  | succ n ih =>
    obtain ⟨hsteps, hframe, hwritten⟩ := ih (by omega) (by omega) (by omega)
    set t := commitGroups eng s group n with ht
    have hstep : PumpStep eng t (commitGroup eng t (group + n)) := by
      refine .commitGroup t (group + n) ?_ ?_ ?_
      · rw [hframe.decoder]
        omega
      · rw [hframe.consumedFloor]
        omega
      · rw [hframe.frontend]
        omega
    refine ⟨hsteps.tail hstep, hframe.trans ⟨rfl, rfl, rfl, rfl, rfl⟩, ?_⟩
    exact commitGroup_written hwritten (by omega)

/-- `voxtral_ctx_adapter_commit`: a chain of group writes; on success all groups are written. -/
lemma adapterCommitLoop_steps {lo : ℕ} (fuel group n : ℕ)
    (hlo : s.decoder.adapterGroupsCommitted ≤ lo) (hgroup : lo ≤ group)
    (hcap : group + n ≤ lo + aembRingCap) (hfloor : group + n ≤ consumedFloor s + aembRingCap)
    (havail : group + n ≤ s.frontend.enc.emitted / downsampleFactor) (hfuel : n ≤ fuel)
    (h : GroupsWritten eng s lo group) :
    PumpSteps eng s (adapterCommitLoop eng fuel s group n).1 ∧
      AdapterFrame s (adapterCommitLoop eng fuel s group n).1 ∧
      ((adapterCommitLoop eng fuel s group n).2 = true →
        GroupsWritten eng (adapterCommitLoop eng fuel s group n).1 lo (group + n)) := by
  induction fuel generalizing s group n with
  | zero =>
    obtain rfl : n = 0 := by omega
    exact ⟨.refl, ⟨rfl, rfl, rfl, rfl, rfl⟩, fun _ => h⟩
  | succ fuel ih =>
    rw [adapterCommitLoop]
    by_cases hn : n = 0
    · rw [if_pos hn]
      subst hn
      exact ⟨.refl, ⟨rfl, rfl, rfl, rfl, rfl⟩, fun _ => h⟩
    · rw [if_neg hn]
      have hsubmit : PumpSteps eng s (submitGraph eng s).1 := .single (submitGraph_step s)
      have hrun : (if 32 ≤ n then 32 else 1) ≤ n ∧ 0 < (if 32 ≤ n then 32 else 1) := by
        split_ifs <;> omega
      set run := if 32 ≤ n then 32 else 1 with hrundef
      have hframe₁ : AdapterFrame s (submitGraph eng s).1 := ⟨rfl, rfl, rfl, rfl, rfl⟩
      simp only
      split_ifs with hran
      · exact ⟨hsubmit, hframe₁, fun hfalse => absurd hfalse (by simp)⟩
      · obtain ⟨hsteps₂, hframe₂, hwritten₂⟩ :=
          commitGroups_steps (s := (submitGraph eng s).1) run hlo hgroup
            (by omega) (show group + run ≤ consumedFloor s + aembRingCap by omega)
            (show group + run ≤ s.frontend.enc.emitted / downsampleFactor by omega) h
        have hframe := hframe₁.trans hframe₂
        obtain ⟨hsteps₃, hframe₃, hwritten₃⟩ := ih (group + run) (n - run)
          (by rw [hframe.decoder]; exact hlo) (by omega) (by omega)
          (by rw [hframe.consumedFloor]; omega)
          (by rw [hframe.frontend]; omega) (by omega) hwritten₂
        have hsum : group + run + (n - run) = group + n := by omega
        rw [hsum] at hwritten₃
        exact ⟨(hsubmit.trans hsteps₂).trans hsteps₃, hframe.trans hframe₃, hwritten₃⟩

variable (eng) in
/-- The adapter stage is a chain of atomic changes. -/
lemma pumpAdapter_steps (s : Stream α φ ε γ κ)
    (hfloor : consumedFloor s ≤ s.decoder.adapterGroupsCommitted) :
    PumpSteps eng s (pumpAdapter eng s).1 := by
  have hfloor_eq : (if s.decoder.decoderPrefillDone = true then s.decoder.decoderPosition else 0) =
      consumedFloor s := rfl
  simp only [pumpAdapter, hfloor_eq, adapterCommit]
  set committed := s.decoder.adapterGroupsCommitted with hcommitted
  set committable := min (s.frontend.enc.emitted / downsampleFactor)
    (consumedFloor s + aembRingCap) with hcommittable
  have hle : committable ≤ consumedFloor s + aembRingCap := min_le_right _ _
  have havail : committable ≤ s.frontend.enc.emitted / downsampleFactor := min_le_left _ _
  by_cases hmore : committed < committable
  · rw [if_pos hmore]
    have hempty : GroupsWritten eng s committed committed := fun g h h' => by omega
    obtain ⟨hsteps, hframe, hwritten⟩ :=
      adapterCommitLoop_steps (committable - committed) committed (committable - committed)
        le_rfl le_rfl (by omega) (by omega) (by omega) le_rfl hempty
    rw [show committed + (committable - committed) = committable by omega] at hwritten
    cases hrun : adapterCommitLoop eng (committable - committed) s committed
      (committable - committed) with
    | mk t ran =>
      rw [hrun] at hsteps hframe hwritten
      cases ran with
      | false => exact hsteps.tail (setError_step t _ _)
      | true =>
        refine hsteps.tail (.advanceAdapter t committable ?_ ?_ ?_ ?_)
        · rw [hframe.decoder]
          exact hmore
        · rw [hframe.consumedFloor]
          exact hle
        · rw [hframe.frontend]
          exact havail
        · rw [hframe.decoder]
          exact hwritten rfl
  · rw [if_neg hmore]

/-! ## The decoder stages -/

variable (eng) in
/-- The prefill stage is a chain of atomic changes. -/
lemma pumpPrefill_steps (s : Stream α φ ε γ κ) : PumpSteps eng s (pumpPrefill eng s).1 := by
  unfold pumpPrefill
  split_ifs with hready
  · have hsubmit : PumpSteps eng s (submitGraph eng s).1 := .single (submitGraph_step s)
    by_cases hran : (submitGraph eng s).2 = true
    · have hprefill : decoderPrefill eng s = ((decoderPrefill eng s).1, true) := by
        simp only [decoderPrefill, hran]
        rfl
      rw [hprefill]
      refine hsubmit.tail ?_
      have hstep : PumpStep eng (submitGraph eng s).1 _ := .prefill _ hready.1 hready.2
      simp only [decoderPrefill, hran]
      exact hstep
    · have hprefill : decoderPrefill eng s = ((submitGraph eng s).1, false) := by
        simp only [decoderPrefill, Bool.not_eq_true] at hran ⊢
        simp only [hran, Bool.not_false, if_true]
      rw [hprefill]
      exact hsubmit.tail (setError_step _ _ _)
  · exact .refl

variable (eng) in
/-- Delivering the stashed token, if there is one, is a chain of atomic changes. -/
lemma commitPending_steps (s : Stream α φ ε γ κ) (hprefill : s.decoder.decoderPrefillDone = true) :
    PumpSteps eng s (commitPending eng s).1 := by
  cases hpending : s.decoder.pending with
  | none =>
    rw [commitPending_of_none eng hpending]
  | some p =>
    rw [commitPending_of_some eng hpending]
    split_ifs with hroom
    · exact .single (.deliver s p hprefill hpending hroom)
    · exact .single (stallPending_step s)

/-! ## Frames of the queue operations -/

/-- Nothing but the queue, its counters and the trace changes when a snapshot is pushed. -/
structure SnapshotFrame (s s' : Stream α φ ε γ κ) : Prop where
  params : s'.params = s.params
  lifecycle : s'.lifecycle = s.lifecycle
  frontend : s'.frontend = s.frontend
  decoder : s'.decoder = s.decoder
  device : s'.device = s.device
  polled : s'.events.polled = s.events.polled
  maxEvents : s'.events.maxEvents = s.events.maxEvents
  publicPollSequence : s'.events.publicPollSequence = s.events.publicPollSequence
  decoderBackpressured : s'.events.decoderBackpressured = s.events.decoderBackpressured
  finalizingFlush : s'.events.finalizingFlush = s.events.finalizingFlush
  aggressive :
    s'.events.aggressivePartialCoalescing = s.events.aggressivePartialCoalescing

/-- A snapshot leaves the bound of the queue. -/
lemma SnapshotFrame.bound (h : SnapshotFrame s s') : s'.events.bound = s.events.bound := by
  unfold Events.bound
  rw [h.maxEvents, h.finalizingFlush]

/-- A snapshot, enqueued, put in place of another or dropped, changes the events only. -/
lemma pushEventCoalesced_partial_frame (s : Stream α φ ε γ κ) {e : StreamEvent}
    (he : e.isPartial = true) : SnapshotFrame s (pushEventCoalesced s e).1 := by
  unfold pushEventCoalesced
  split_ifs with h1 h2
  · exact ⟨rfl, rfl, rfl, rfl, rfl, rfl, rfl, rfl, rfl, rfl, rfl⟩
  · exact ⟨rfl, rfl, rfl, rfl, rfl, rfl, rfl, rfl, rfl, rfl, rfl⟩
  · cases replaceLastPartial s.events.queue e with
    | none => exact ⟨rfl, rfl, rfl, rfl, rfl, rfl, rfl, rfl, rfl, rfl, rfl⟩
    | some queue => exact ⟨rfl, rfl, rfl, rfl, rfl, rfl, rfl, rfl, rfl, rfl, rfl⟩

/-- The decoder record after a delivered token `p`. -/
def decoderAfter (eng : Engine α φ ε γ κ) (d : Decoder) (p : PendingToken) : Decoder :=
  if p.token = tokenEos then
    { d with tokenSequence := d.tokenSequence + 1, pending := none, decoderEos := true }
  else
    { appendTokenToPartial eng d p.token with
      tokenSequence := d.tokenSequence + 1
      pending := none
      tokens := d.tokens ++ [p.token]
      partialRevision := d.partialRevision + 1
      decoderTokensEmitted := d.decoderTokensEmitted + 1
      decoderPrevToken := p.token
      decoderPosition := d.decoderPosition + 1 }

/-- The stream in which the snapshot for `p` is about to be pushed. -/
def beforeSnapshot (eng : Engine α φ ε γ κ) (s : Stream α φ ε γ κ) (p : PendingToken) :
    Stream α φ ε γ κ :=
  let t := acceptToken eng s p
  { t with
    decoder := { appendTokenToPartial eng { t.decoder with tokens := t.decoder.tokens ++ [p.token] }
        p.token with partialRevision := t.decoder.partialRevision + 1 }
    trace := t.trace ++
      [.partialPush t.events.queue t.events.bound t.events.aggressivePartialCoalescing] }

/-- The snapshot event pushed for `p`. -/
def snapshotOf (eng : Engine α φ ε γ κ) (s : Stream α φ ε γ κ) (p : PendingToken) : StreamEvent :=
  partialEvent (beforeSnapshot eng s p).decoder p.position

/-- The stream after the snapshot for `p` was pushed, before the position advances. -/
def afterSnapshot (eng : Engine α φ ε γ κ) (s : Stream α φ ε γ κ) (p : PendingToken) :
    Stream α φ ε γ κ :=
  (pushEventCoalesced (beforeSnapshot eng s p) (snapshotOf eng s p)).1

/-- So does the delivery of a token behind its TOKEN event. -/
lemma afterSnapshot_frame (eng : Engine α φ ε γ κ) (s : Stream α φ ε γ κ) (p : PendingToken) :
    SnapshotFrame (beforeSnapshot eng s p) (afterSnapshot eng s p) :=
  pushEventCoalesced_partial_frame _ rfl

/-- Delivering the end of the stream. -/
lemma deliverPending_eos {p : PendingToken} (heos : p.token = tokenEos) :
    deliverPending eng s p =
      { acceptToken eng s p with decoder := decoderAfter eng s.decoder p } := by
  simp only [deliverPending, decoderAfter, if_pos heos]
  rfl

/-- Delivering a token that is not the end of the stream: its event, its snapshot, the advance. -/
lemma deliverPending_text {p : PendingToken} (heos : p.token ≠ tokenEos) :
    deliverPending eng s p =
      { afterSnapshot eng s p with decoder := decoderAfter eng s.decoder p } := by
  have hdec := (afterSnapshot_frame eng s p).decoder
  simp only [deliverPending, decoderAfter, if_neg heos, advanceDecoder]
  change ({ afterSnapshot eng s p with decoder :=
    { (afterSnapshot eng s p).decoder with
      decoderTokensEmitted := (afterSnapshot eng s p).decoder.decoderTokensEmitted + 1
      decoderPrevToken := p.token
      decoderPosition := (afterSnapshot eng s p).decoder.decoderPosition + 1 } } :
    Stream α φ ε γ κ) = _
  rw [hdec]
  rfl

/-- The decoder behind the delivery of a token. -/
lemma deliverPending_decoder (eng : Engine α φ ε γ κ) (s : Stream α φ ε γ κ) (p : PendingToken) :
    (deliverPending eng s p).decoder = decoderAfter eng s.decoder p := by
  by_cases heos : p.token = tokenEos
  · rw [deliverPending_eos heos]
  · rw [deliverPending_text heos]

/-- A delivery leaves the device. -/
lemma deliverPending_device (eng : Engine α φ ε γ κ) (s : Stream α φ ε γ κ) (p : PendingToken) :
    (deliverPending eng s p).device = s.device := by
  by_cases heos : p.token = tokenEos
  · rw [deliverPending_eos heos]
    rfl
  · rw [deliverPending_text heos]
    exact (afterSnapshot_frame eng s p).device

/-- What a pump leaves alone. -/
structure PumpFrame (s s' : Stream α φ ε γ κ) : Prop where
  params : s'.params = s.params
  frontend : s'.frontend = s.frontend
  encOutRing : s'.device.encOutRing = s.device.encOutRing
  state : s'.lifecycle.state = s.lifecycle.state
  totalReceived : s'.lifecycle.totalSamplesReceived = s.lifecycle.totalSamplesReceived
  polled : s'.events.polled = s.events.polled
  maxEvents : s'.events.maxEvents = s.events.maxEvents
  publicPollSequence : s'.events.publicPollSequence = s.events.publicPollSequence
  finalizingFlush : s'.events.finalizingFlush = s.events.finalizingFlush
  aggressive : s'.events.aggressivePartialCoalescing = s.events.aggressivePartialCoalescing

/-- A pump that did nothing. -/
lemma PumpFrame.refl (s : Stream α φ ε γ κ) : PumpFrame s s :=
  ⟨rfl, rfl, rfl, rfl, rfl, rfl, rfl, rfl, rfl, rfl⟩

/-- Two pumps. -/
lemma PumpFrame.trans {s₁ s₂ s₃ : Stream α φ ε γ κ} (h : PumpFrame s₁ s₂) (h' : PumpFrame s₂ s₃) :
    PumpFrame s₁ s₃ where
  params := h'.params.trans h.params
  frontend := h'.frontend.trans h.frontend
  encOutRing := h'.encOutRing.trans h.encOutRing
  state := h'.state.trans h.state
  totalReceived := h'.totalReceived.trans h.totalReceived
  polled := h'.polled.trans h.polled
  maxEvents := h'.maxEvents.trans h.maxEvents
  publicPollSequence := h'.publicPollSequence.trans h.publicPollSequence
  finalizingFlush := h'.finalizingFlush.trans h.finalizingFlush
  aggressive := h'.aggressive.trans h.aggressive

/-- A pump leaves the bound of the queue. -/
lemma PumpFrame.bound (h : PumpFrame s s') : s'.events.bound = s.events.bound := by
  unfold Events.bound
  rw [h.maxEvents, h.finalizingFlush]

/-- Every atomic change keeps the frame. -/
lemma PumpStep.frame (h : PumpStep eng s s') : PumpFrame s s' := by
  cases h with
  | deliver p hprefill hpending hroom =>
    by_cases heos : p.token = tokenEos
    · rw [deliverPending_eos heos]
      exact ⟨rfl, rfl, rfl, rfl, rfl, rfl, rfl, rfl, rfl, rfl⟩
    · rw [deliverPending_text heos]
      have h := afterSnapshot_frame eng s p
      exact ⟨h.params, h.frontend, by simp only [h.device]; rfl, by simp only [h.lifecycle]; rfl,
        by simp only [h.lifecycle]; rfl, h.polled, h.maxEvents, h.publicPollSequence,
        h.finalizingFlush, h.aggressive⟩
  | _ => exact ⟨rfl, rfl, rfl, rfl, rfl, rfl, rfl, rfl, rfl, rfl⟩

/-- The steps of a pump leave alone what a pump does. -/
lemma PumpSteps.frame (h : PumpSteps eng s s') : PumpFrame s s' := by
  induction h with
  | refl => exact PumpFrame.refl s
  | tail _ hstep ih => exact ih.trans hstep.frame

/-! ## Bounds of the decoder cursors -/

/-- The decoder stays within the committed groups, and a stashed token belongs to the current
position. -/
structure DecoderWithin (s : Stream α φ ε γ κ) : Prop where
  floor : consumedFloor s ≤ s.decoder.adapterGroupsCommitted
  started : s.decoder.decoderPrefillDone = true → promptLength - 1 ≤ s.decoder.decoderPosition
  fresh : s.decoder.decoderPrefillDone = false → s.decoder.pending = none ∧
    s.decoder.decoderEos = false
  stash : ∀ p, s.decoder.pending = some p → p.position = s.decoder.decoderPosition ∧
    s.decoder.decoderPosition < s.decoder.adapterGroupsCommitted ∧ s.decoder.decoderEos = false

/-- Every atomic change keeps the bounds. -/
lemma PumpStep.within (h : PumpStep eng s s') (hw : DecoderWithin s) : DecoderWithin s' := by
  cases h with
  | bookkeep => exact ⟨hw.floor, hw.started, hw.fresh, hw.stash⟩
  | commitGroup => exact ⟨hw.floor, hw.started, hw.fresh, hw.stash⟩
  | advanceAdapter committed hgrow hcap havail hrows =>
    refine ⟨hw.floor.trans hgrow.le, hw.started, hw.fresh, fun p hp => ?_⟩
    obtain ⟨hpos, hlt, heos⟩ := hw.stash p hp
    exact ⟨hpos, hlt.trans hgrow, heos⟩
  | prefill hfresh hready =>
    obtain ⟨hnone, -⟩ := hw.fresh hfresh
    refine ⟨hready, fun _ => le_rfl, fun hfalse => absurd hfalse (by simp [prefillDecoder]), ?_⟩
    intro p hp
    rw [show (prefillDecoder eng s).decoder.pending = s.decoder.pending from rfl, hnone] at hp
    exact absurd hp (by simp)
  | decoderStep hprefill hpending hmay =>
    refine ⟨hw.floor, hw.started, fun hfalse => ?_, fun p hp => ?_⟩
    · exact absurd (hprefill.symm.trans hfalse) (by simp)
    · obtain rfl := Option.some.inj hp
      exact ⟨rfl, hmay.1, hmay.2.1⟩
  | deliver p hprefill hpending hroom =>
    obtain ⟨hpos, hlt, heos⟩ := hw.stash p hpending
    have hstarted := hw.started hprefill
    have hfloor := hw.floor
    have hdec := deliverPending_decoder eng s p
    by_cases hend : p.token = tokenEos
    · rw [decoderAfter, if_pos hend] at hdec
      refine ⟨?_, ?_, ?_, ?_⟩ <;> simp only [consumedFloor, hdec, hprefill, if_true]
      · exact hlt.le
      · exact fun _ => hstarted
      · exact fun hfalse => absurd hfalse (by simp)
      · exact fun q hq => absurd hq (by simp)
    · rw [decoderAfter, if_neg hend] at hdec
      refine ⟨?_, ?_, ?_, ?_⟩ <;>
        simp only [consumedFloor, hdec, appendTokenToPartial, hprefill, if_true]
      · exact hlt
      · exact fun _ => hstarted.trans (Nat.le_succ _)
      · exact fun hfalse => absurd hfalse (by simp)
      · exact fun q hq => absurd hq (by simp)

/-- They keep the decoder within its groups. -/
lemma PumpSteps.within (h : PumpSteps eng s s') (hw : DecoderWithin s) : DecoderWithin s' := by
  induction h with
  | refl => exact hw
  | tail _ hstep ih => exact hstep.within ih

/-! ## The whole pump -/

/-- No token is stashed after a successful delivery. -/
lemma commitPending_pending (h : (commitPending eng s).2 = true) :
    (commitPending eng s).1.decoder.pending = none := by
  cases hpending : s.decoder.pending with
  | none =>
    rw [commitPending_of_none eng hpending]
    exact hpending
  | some p =>
    rw [commitPending_of_some eng hpending] at h ⊢
    split_ifs at h ⊢ with hroom
    rw [deliverPending_decoder, decoderAfter]
    split_ifs <;> rfl

/-- The prefill is never undone. -/
lemma PumpSteps.prefillDone (h : PumpSteps eng s s')
    (hprefill : s.decoder.decoderPrefillDone = true) : s'.decoder.decoderPrefillDone = true := by
  induction h with
  | refl => exact hprefill
  | tail _ hstep ih =>
    cases hstep with
    | deliver p hp hpending hroom =>
      rw [deliverPending_decoder, decoderAfter]
      split_ifs <;> exact ih
    | prefill => rfl
    | _ => exact ih

/-- One iteration of the step loop: submit, step, deliver. -/
lemma pumpStepLoop_succ (eng : Engine α φ ε γ κ) (fuel : ℕ) (s : Stream α φ ε γ κ) :
    pumpStepLoop eng (fuel + 1) s =
      if decoderMayStep s then
        if (submitGraph eng s).2 then
          let r := commitPending eng (stepDecoder eng (submitGraph eng s).1)
          if r.2 then pumpStepLoop eng fuel r.1 else (r.1, .limitExceeded)
        else
          (setError (submitGraph eng s).1 .backendError "incremental decoder step failed",
            .backendError)
      else (s, .ok) := by
  rw [pumpStepLoop]
  by_cases hmay : decoderMayStep s
  · rw [if_neg (not_not.mpr hmay), if_pos hmay]
    by_cases hran : (submitGraph eng s).2 = true
    · have hstep : decoderStep eng s =
          ((decoderStep eng s).1, some (stepResult eng (submitGraph eng s).1).1) := by
        simp only [decoderStep, hran]
        rfl
      have hsame : ({ (decoderStep eng s).1 with decoder := { (decoderStep eng s).1.decoder with
          decoderSteps := (decoderStep eng s).1.decoder.decoderSteps + 1
          pending := some ⟨(stepResult eng (submitGraph eng s).1).1,
            (decoderStep eng s).1.decoder.decoderPosition,
            isSpecialToken (stepResult eng (submitGraph eng s).1).1⟩ } } :
          Stream α φ ε γ κ) = stepDecoder eng (submitGraph eng s).1 := by
        simp only [decoderStep, hran]
        rfl
      rw [hstep, if_pos hran]
      simp only [hsame]
      cases commitPending eng (stepDecoder eng (submitGraph eng s).1) with
      | mk u delivered => cases delivered <;> rfl
    · have hstep : decoderStep eng s = ((submitGraph eng s).1, none) := by
        simp only [decoderStep, Bool.not_eq_true] at hran ⊢
        simp only [hran, Bool.not_false, if_true]
      rw [hstep, if_neg hran]
  · rw [if_pos hmay, if_neg hmay]

/-- The step loop is a chain of atomic changes. -/
lemma pumpStepLoop_steps (fuel : ℕ) (hprefill : s.decoder.decoderPrefillDone = true)
    (hpending : s.decoder.pending = none) : PumpSteps eng s (pumpStepLoop eng fuel s).1 := by
  induction fuel generalizing s with
  | zero => exact .refl
  | succ fuel ih =>
    rw [pumpStepLoop_succ]
    by_cases hmay : decoderMayStep s
    · have hsubmit : PumpSteps eng s (submitGraph eng s).1 := .single (submitGraph_step s)
      rw [if_pos hmay]
      split_ifs with hran
      · set u := stepDecoder eng (submitGraph eng s).1 with hu
        have hsteps : PumpSteps eng s u :=
          hsubmit.tail (.decoderStep (submitGraph eng s).1 hprefill hpending hmay)
        have hu_prefill : u.decoder.decoderPrefillDone = true := hprefill
        have hdeliver := commitPending_steps eng u hu_prefill
        simp only
        split_ifs with hdelivered
        · exact (hsteps.trans hdeliver).trans
            (ih (hdeliver.prefillDone hu_prefill) (commitPending_pending hdelivered))
        · exact hsteps.trans hdeliver
      · exact hsubmit.tail (setError_step _ _ _)
    · rw [if_neg hmay]

/-- The decoder stage is a chain of atomic changes. -/
lemma pumpDecoder_steps (s : Stream α φ ε γ κ) : PumpSteps eng s (pumpDecoder eng s).1 := by
  unfold pumpDecoder
  split_ifs with hfresh
  · exact .refl
  · have hprefill : s.decoder.decoderPrefillDone = true := by simpa using hfresh
    have hdeliver := commitPending_steps eng s hprefill
    cases hcommit : commitPending eng s with
    | mk v delivered =>
      rw [hcommit] at hdeliver
      cases delivered with
      | false => exact hdeliver
      | true =>
        have hnone : v.decoder.pending = none := by
          have hclear : (commitPending eng s).1.decoder.pending = none :=
            commitPending_pending (by rw [hcommit])
          rwa [hcommit] at hclear
        have hv := hdeliver.prefillDone hprefill
        have hclear : PumpStep eng v
            { v with events := { v.events with decoderBackpressured := false } } :=
          .bookkeep v v.lifecycle.lastStatus v.lifecycle.lastError v.device.submits
            v.events.eventsOverflowed v.events.eventQueueOverflowAttempts false
        exact (hdeliver.tail hclear).trans (pumpStepLoop_steps _ hv hnone)

/-- A pass of `pump_incremental` is a chain of atomic changes. -/
theorem pumpIncremental_steps (hw : DecoderWithin s) :
    PumpSteps eng s (pumpIncremental eng s).1 := by
  have hadapter := pumpAdapter_steps eng s hw.floor
  unfold pumpIncremental
  cases ha : pumpAdapter eng s with
  | mk t status =>
    rw [ha] at hadapter
    simp only
    by_cases hok : status ≠ .ok
    · rw [if_pos hok]
      exact hadapter
    · rw [if_neg hok]
      have hprefill := pumpPrefill_steps eng t
      cases hp : pumpPrefill eng t with
      | mk u status' =>
        rw [hp] at hprefill
        simp only
        split_ifs with hok'
        · exact hadapter.trans hprefill
        · exact (hadapter.trans hprefill).trans (pumpDecoder_steps u)

end Chains

end Voxtral
