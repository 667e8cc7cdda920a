import Voxtral.Lib.Narrowing
import Voxtral.Lib.Runs
import Voxtral.Server.GpuLease
import Mathlib.Algebra.Order.BigOperators.Group.List
import Mathlib.Algebra.Order.Ring.Nat

/-!
# The outbound queue of a realtime session

The worker and the IO thread put messages into one bounded queue, and the IO thread writes them to the
socket one after the other.  A new partial transcript replaces the queued one, and the IO thread may drop
queued partials to make room.  The byte counter covers the queued payloads and the one being written.
Every critical section of `outbound_mutex_` is one call here, so a run is any interleaving of them.
-/

namespace Voxtral

/-- `kMaxOutboundMessages`. -/
def kMaxOutboundMessages : ℕ := 256

/-- `kMaxOutboundBytes`. -/
def kMaxOutboundBytes : ℕ := 4 * 1024 * 1024

/-- `OutboundKind`. -/
inductive OutboundKind
  | token
  | partialText
  | mandatory
  deriving DecidableEq, Repr

/-- `OutboundMessage`. -/
structure OutboundMessage (π : Type*) where
  payload : π
  kind : OutboundKind
  deriving DecidableEq, Repr

/-- Only a partial may be replaced or dropped. -/
def OutboundMessage.kept {π : Type*} (m : OutboundMessage π) : Bool := m.kind ≠ .partialText

/-- The members of `RealtimeSession` around the outbound queue. -/
structure Outbound (π : Type*) where
  outbound : List (OutboundMessage π) := []
  activeWritePayload : Option π := none
  outboundBytes : ℕ := 0
  outboundClosed : Bool := false
  writeInProgress : Bool := false
  closeAfterDrain : Bool := false
  closed : Bool := false
  closeStarted : Bool := false
  cancellation : Option Cancellation := none
  deriving DecidableEq, Repr

/-- One critical section. -/
inductive OutboundCall (π : Type*)
  /-- One round of the loop of `enqueue_from_worker`, entered at first or after a wakeup. -/
  | enqueueFromWorker (message : OutboundMessage π)
  | enqueueFromIo (message : OutboundMessage π)
  | maybeWrite
  /-- The accounting of `on_write`. -/
  | onWrite
  | requestCloseAfterDrain
  | closeTransport (readInProgress : Bool)
  | finishSession
  /-- The shared cancellation token is set, or requested on, elsewhere. -/
  | cancellation (token : Option Cancellation)
  deriving DecidableEq, Repr

/-- What a critical section did. -/
inductive OutboundEvent (π : Type*)
  /-- The message was taken: `true` was returned. -/
  | accepted (message : OutboundMessage π)
  /-- `false` was returned. -/
  | refused
  /-- The worker waits for `outbound_space_`. -/
  | waits
  /-- The payload of the message was handed to the socket. -/
  | written (message : OutboundMessage π)
  | quiet
  deriving DecidableEq, Repr

namespace Outbound

variable {π : Type*}

/-! ## The queue -/

/-- The queued partial that is found first from the back: what stands before it, it, and what stands
behind it. -/
def splitAtPartial : List (OutboundMessage π) →
    Option (List (OutboundMessage π) × OutboundMessage π × List (OutboundMessage π))
  | [] => none
  | m :: rest =>
    match splitAtPartial rest with
    | some (before, existing, behind) => some (m :: before, existing, behind)
    | none => if m.kind = .partialText then some ([], m, rest) else none

/-- The bytes of the queued payloads. -/
def queuedBytes (size : π → ℕ) (queue : List (OutboundMessage π)) : ℕ :=
  (queue.map fun m => size m.payload).sum

/-- The bytes of the payload being written. -/
def activeBytes (size : π → ℕ) (s : Outbound π) : ℕ := (s.activeWritePayload.map size).getD 0

variable (size : π → ℕ)

/-- `has_queue_capacity_locked`. -/
def hasQueueCapacity (s : Outbound π) (bytes : ℕ) : Bool :=
  bytes ≤ kMaxOutboundBytes ∧
    s.outbound.length + (if s.writeInProgress then 1 else 0) < kMaxOutboundMessages ∧
    s.outboundBytes ≤ kMaxOutboundBytes - bytes

/-- `coalesce_partial_locked`; `none` where it returns `false`. -/
def coalescePartial (s : Outbound π) (message : OutboundMessage π) : Option (Outbound π) :=
  if message.kind ≠ .partialText then none
  else
    match splitAtPartial s.outbound with
    | none => none
    | some (before, existing, behind) =>
      let withoutExisting := sizeSub s.outboundBytes (size existing.payload)
      if size message.payload ≤ sizeSub kMaxOutboundBytes withoutExisting then
        some { s with
          outboundBytes := sizeAdd withoutExisting (size message.payload)
          outbound := before ++ message :: behind }
      else none

/-- `remove_optional_partial_locked`; `none` where it returns `false`. -/
def removeOptionalPartial (s : Outbound π) : Option (Outbound π) :=
  match splitAtPartial s.outbound with
  | none => none
  | some (before, existing, behind) =>
    some { s with
      outboundBytes := sizeSub s.outboundBytes (size existing.payload)
      outbound := before ++ behind }

/-- Drop partials until there is room for `bytes` more or no partial is left.  Every round drops a
message, so as many rounds as there are messages are enough. -/
def makeRoom (bytes : ℕ) : ℕ → Outbound π → Outbound π
  | 0, s => s
  | rounds + 1, s =>
    if s.hasQueueCapacity bytes then s
    else
      match s.removeOptionalPartial size with
      | none => s
      | some s' => makeRoom bytes rounds s'

/-- Put a message at the end of the queue. -/
def push (s : Outbound π) (message : OutboundMessage π) : Outbound π :=
  { s with
    outboundBytes := sizeAdd s.outboundBytes (size message.payload)
    outbound := s.outbound ++ [message] }

/-! ## The critical sections -/

/-- One round of `enqueue_from_worker`. -/
def enqueueFromWorker (s : Outbound π) (message : OutboundMessage π) : Outbound π × OutboundEvent π :=
  if s.outboundClosed ∨ (s.cancellation.map Cancellation.reason) = some .disconnect then (s, .refused)
  else
    match s.coalescePartial size message with
    | some s' => (s', .accepted message)
    | none =>
      if s.hasQueueCapacity (size message.payload) then (s.push size message, .accepted message)
      else if kMaxOutboundBytes < size message.payload then (s, .refused)
      else (s, .waits)

/-- `enqueue_from_io`. -/
def enqueueFromIo (s : Outbound π) (message : OutboundMessage π) : Outbound π × OutboundEvent π :=
  if s.outboundClosed then (s, .refused)
  else
    match s.coalescePartial size message with
    | some s' => (s', .accepted message)
    | none =>
      let s' := makeRoom size (size message.payload) s.outbound.length s
      if s'.hasQueueCapacity (size message.payload) then (s'.push size message, .accepted message)
      else (s', .refused)

/-- `maybe_write`, up to the call of `close_transport`. -/
def maybeWrite (s : Outbound π) : Outbound π × OutboundEvent π :=
  if s.closed ∨ s.writeInProgress then (s, .quiet)
  else
    match s.outbound with
    | [] => (s, .quiet)
    | front :: rest =>
      ({ s with
          writeInProgress := true
          activeWritePayload := some front.payload
          outbound := rest }, .written front)

/-- The accounting of `on_write`. -/
def onWrite (s : Outbound π) : Outbound π :=
  { s with
    outboundBytes := match s.activeWritePayload with
      | some payload => sizeSub s.outboundBytes (size payload)
      | none => s.outboundBytes
    activeWritePayload := none
    writeInProgress := false }

/-- `finish_session`. -/
def finishSession (s : Outbound π) : Outbound π :=
  if s.closed then s
  else
    { s with
      closed := true
      outboundClosed := true
      outboundBytes := s.outbound.foldl (fun bytes m => sizeSub bytes (size m.payload)) s.outboundBytes
      outbound := [] }

/-- `close_transport`; with no read outstanding the session is finished when the close handshake is
done. -/
def closeTransport (s : Outbound π) (readInProgress : Bool) : Outbound π :=
  if s.closed ∨ s.closeStarted then s
  else if readInProgress then finishSession size { s with closeStarted := true }
  else { s with closeStarted := true }

/-- One critical section; a write completes only while it is in progress. -/
def outboundStep (s : Outbound π) : OutboundCall π → Option (Outbound π × OutboundEvent π)
  | .enqueueFromWorker message => some (s.enqueueFromWorker size message)
  | .enqueueFromIo message => some (s.enqueueFromIo size message)
  | .maybeWrite => some s.maybeWrite
  | .onWrite => if s.writeInProgress then some (s.onWrite size, .quiet) else none
  | .requestCloseAfterDrain => some ({ s with closeAfterDrain := true }, .quiet)
  | .closeTransport readInProgress => some (s.closeTransport size readInProgress, .quiet)
  | .finishSession => some (s.finishSession size, .quiet)
  | .cancellation token => some ({ s with cancellation := token }, .quiet)

/-! ## What a critical section keeps -/

/-- The counter is exact, and the queue is within its bounds. -/
structure Accounted (s : Outbound π) : Prop where
  bytes : s.outboundBytes = queuedBytes size s.outbound + s.activeBytes size
  bounded : s.outboundBytes ≤ kMaxOutboundBytes
  count : s.outbound.length + (if s.writeInProgress then 1 else 0) ≤ kMaxOutboundMessages
  writing : s.writeInProgress = s.activeWritePayload.isSome
  closing : s.outboundClosed = s.closed
  drained : s.closed = true → s.outbound = []

variable {size} {s s' : Outbound π} {message : OutboundMessage π}

omit size in
/-- No split, no partial. -/
lemma kept_of_splitAtPartial {queue : List (OutboundMessage π)} (h : splitAtPartial queue = none) :
    ∀ m ∈ queue, m.kept = true := by
  induction queue with
  | nil => simp
  | cons m rest ih =>
    rw [splitAtPartial] at h
    cases hrest : splitAtPartial rest with
    | some split => simp [hrest] at h
    | none =>
      simp only [hrest, ite_eq_right_iff, reduceCtorEq, imp_false] at h
      intro m' hm
      rcases List.mem_cons.mp hm with rfl | hm
      · simpa [OutboundMessage.kept] using h
      · exact ih hrest m' hm

omit size in
/-- The split finds the last partial. -/
lemma splitAtPartial_spec {queue before behind : List (OutboundMessage π)}
    {existing : OutboundMessage π} (h : splitAtPartial queue = some (before, existing, behind)) :
    queue = before ++ existing :: behind ∧ existing.kind = .partialText ∧
      ∀ m ∈ behind, m.kept = true := by
  induction queue generalizing before existing behind with
  | nil => cases h
  | cons m rest ih =>
    rw [splitAtPartial] at h
    cases hrest : splitAtPartial rest with
    | some split =>
      obtain ⟨before', existing', behind'⟩ := split
      simp only [hrest, Option.some.injEq, Prod.mk.injEq] at h
      obtain ⟨rfl, rfl, rfl⟩ := h
      obtain ⟨rfl, hkind, hbehind⟩ := ih hrest
      exact ⟨rfl, hkind, hbehind⟩
    | none =>
      simp only [hrest] at h
      split at h
      · next hkind =>
        simp only [Option.some.injEq, Prod.mk.injEq] at h
        obtain ⟨rfl, rfl, rfl⟩ := h
        exact ⟨rfl, hkind, kept_of_splitAtPartial hrest⟩
      · cases h

/-- An empty queue has no bytes. -/
@[simp] lemma queuedBytes_nil : queuedBytes size ([] : List (OutboundMessage π)) = 0 := rfl

/-- The bytes of the first message, and of the others. -/
@[simp] lemma queuedBytes_cons (m : OutboundMessage π) (queue : List (OutboundMessage π)) :
    queuedBytes size (m :: queue) = size m.payload + queuedBytes size queue := by
  simp [queuedBytes]

/-- The bytes of a queue behind a queue. -/
@[simp] lemma queuedBytes_append (q q' : List (OutboundMessage π)) :
    queuedBytes size (q ++ q') = queuedBytes size q + queuedBytes size q' := by
  simp [queuedBytes]

/-- The queued messages that must be written. -/
def keptQueue (s : Outbound π) : List (OutboundMessage π) := s.outbound.filter OutboundMessage.kept

/-- The counter never comes near the end of its range. -/
lemma Accounted.bytes_lt (h : Accounted size s) : s.outboundBytes < 2 ^ 64 := by
  have hbounded := h.bounded
  unfold kMaxOutboundBytes at hbounded
  omega

/-- Replacing the last partial keeps the account, and every other message in its place. -/
lemma Accounted.coalescePartial (h : Accounted size s)
    (hc : s.coalescePartial size message = some s') :
    Accounted size s' ∧ message.kind = .partialText ∧ s'.keptQueue = s.keptQueue ∧
      s'.outboundClosed = s.outboundClosed := by
  unfold Outbound.coalescePartial at hc
  split at hc
  · cases hc
  · next hkind =>
    rw [not_not] at hkind
    split at hc
    · cases hc
    · next before existing behind hsplit =>
      obtain ⟨hqueue, hexisting, -⟩ := splitAtPartial_spec hsplit
      have hbytes := h.bytes
      have hlt := h.bytes_lt
      have hbounded := h.bounded
      rw [hqueue, queuedBytes_append, queuedBytes_cons] at hbytes
      have hwithout : sizeSub s.outboundBytes (size existing.payload) =
          s.outboundBytes - size existing.payload := sizeSub_of_le (by omega) hlt
      have hroom : sizeSub kMaxOutboundBytes (s.outboundBytes - size existing.payload) =
          kMaxOutboundBytes - (s.outboundBytes - size existing.payload) :=
        sizeSub_of_le (by omega) (by unfold kMaxOutboundBytes; omega)
      dsimp only at hc
      rw [hwithout, hroom] at hc
      split at hc
      · next hfits =>
        cases hc
        have hsum : sizeAdd (s.outboundBytes - size existing.payload) (size message.payload) =
            s.outboundBytes - size existing.payload + size message.payload :=
          sizeAdd_of_lt (by unfold kMaxOutboundBytes at hfits; omega)
        have hcount := h.count
        rw [hqueue] at hcount
        refine ⟨⟨?_, ?_, ?_, h.writing, h.closing, ?_⟩, hkind, ?_, rfl⟩
        · change sizeAdd (s.outboundBytes - size existing.payload) (size message.payload) =
            queuedBytes size (before ++ message :: behind) + s.activeBytes size
          rw [hsum, queuedBytes_append, queuedBytes_cons]
          omega
        · change sizeAdd (s.outboundBytes - size existing.payload) (size message.payload) ≤ _
          rw [hsum]
          omega
        · simpa using hcount
        · intro hclosed
          have hdrained := h.drained hclosed
          rw [hqueue] at hdrained
          simp at hdrained
        · simp [keptQueue, hqueue, OutboundMessage.kept, hkind, hexisting]
      · cases hc

/-- Dropping the last partial keeps the account, and every other message in its place. -/
lemma Accounted.removeOptionalPartial (h : Accounted size s)
    (hr : s.removeOptionalPartial size = some s') :
    Accounted size s' ∧ s'.keptQueue = s.keptQueue ∧ s'.outboundClosed = s.outboundClosed ∧
      s'.outbound.length + 1 = s.outbound.length := by
  unfold Outbound.removeOptionalPartial at hr
  split at hr
  · cases hr
  · next before existing behind hsplit =>
    cases hr
    obtain ⟨hqueue, hexisting, -⟩ := splitAtPartial_spec hsplit
    have hbytes := h.bytes
    have hbounded := h.bounded
    rw [hqueue, queuedBytes_append, queuedBytes_cons] at hbytes
    have hwithout : sizeSub s.outboundBytes (size existing.payload) =
        s.outboundBytes - size existing.payload := sizeSub_of_le (by omega) h.bytes_lt
    have hcount := h.count
    rw [hqueue] at hcount
    refine ⟨⟨?_, ?_, ?_, h.writing, h.closing, ?_⟩, ?_, rfl, ?_⟩
    · change sizeSub s.outboundBytes (size existing.payload) =
        queuedBytes size (before ++ behind) + s.activeBytes size
      rw [hwithout, queuedBytes_append]
      omega
    · change sizeSub s.outboundBytes (size existing.payload) ≤ _
      rw [hwithout]
      omega
    · simp only [List.length_append, List.length_cons] at hcount ⊢
      omega
    · intro hclosed
      have hdrained := h.drained hclosed
      rw [hqueue] at hdrained
      simp at hdrained
    · simp [keptQueue, hqueue, OutboundMessage.kept, hexisting]
    · simp [hqueue]
      omega

/-- Making room drops nothing but partials, and stops only with room or without partials. -/
lemma Accounted.makeRoom (h : Accounted size s) (bytes : ℕ) {rounds : ℕ}
    (hrounds : s.outbound.length ≤ rounds) :
    Accounted size (s.makeRoom size bytes rounds) ∧
      (s.makeRoom size bytes rounds).keptQueue = s.keptQueue ∧
      (s.makeRoom size bytes rounds).outboundClosed = s.outboundClosed ∧
      ((s.makeRoom size bytes rounds).hasQueueCapacity bytes = true ∨
        ∀ m ∈ (s.makeRoom size bytes rounds).outbound, m.kept = true) := by
  induction rounds generalizing s with
  | zero =>
    have hempty : s.outbound = [] := List.length_eq_zero_iff.mp (by omega)
    exact ⟨h, rfl, rfl, .inr (by simp [Outbound.makeRoom, hempty])⟩
  | succ rounds ih =>
    rw [Outbound.makeRoom]
    split
    · next hroom => exact ⟨h, rfl, rfl, .inl hroom⟩
    · cases hr : s.removeOptionalPartial size with
      | none =>
        refine ⟨h, rfl, rfl, .inr (kept_of_splitAtPartial ?_)⟩
        unfold Outbound.removeOptionalPartial at hr
        split at hr
        · next hsplit => exact hsplit
        · cases hr
      | some s' =>
        obtain ⟨hs', hkept, hclosed, hlength⟩ := h.removeOptionalPartial hr
        obtain ⟨hroom, hkept', hclosed', hdone⟩ := ih hs' (by omega)
        exact ⟨hroom, hkept'.trans hkept, hclosed'.trans hclosed, hdone⟩

/-- Where there is room a message is added at the end. -/
lemma Accounted.push (h : Accounted size s) (hopen : s.outboundClosed = false)
    (hroom : s.hasQueueCapacity (size message.payload) = true) :
    Accounted size (s.push size message) := by
  simp only [hasQueueCapacity, Bool.decide_and, Bool.and_eq_true, decide_eq_true_eq] at hroom
  obtain ⟨hsize, hcount, hbytes⟩ := hroom
  have hsum : sizeAdd s.outboundBytes (size message.payload) =
      s.outboundBytes + size message.payload :=
    sizeAdd_of_lt (by unfold kMaxOutboundBytes at hbytes hsize; omega)
  refine ⟨?_, ?_, ?_, h.writing, h.closing, ?_⟩
  · have hbytes := h.bytes
    change sizeAdd _ _ = queuedBytes size (s.outbound ++ [message]) + s.activeBytes size
    rw [hsum, queuedBytes_append, queuedBytes_cons, queuedBytes_nil]
    omega
  · change sizeAdd s.outboundBytes (size message.payload) ≤ _
    omega
  · change (s.outbound ++ [message]).length + (if s.writeInProgress then 1 else 0) ≤ _
    rw [List.length_append, List.length_singleton]
    omega
  · intro hclosed
    have hclosing := h.closing
    rw [hopen, show s.closed = true from hclosed] at hclosing
    cases hclosing

/-- What one round of `enqueue_from_worker` can do. -/
lemma enqueueFromWorker_cases (s : Outbound π) (message : OutboundMessage π) :
    s.enqueueFromWorker size message = (s, .refused) ∨
      s.enqueueFromWorker size message = (s, .waits) ∨
      (∃ s', s.coalescePartial size message = some s' ∧
        s.enqueueFromWorker size message = (s', .accepted message)) ∨
      s.enqueueFromWorker size message = (s.push size message, .accepted message) := by
  unfold Outbound.enqueueFromWorker
  split
  · exact .inl rfl
  · split
    · next s' hc => exact .inr (.inr (.inl ⟨s', hc, rfl⟩))
    · split
      · exact .inr (.inr (.inr rfl))
      · split
        · exact .inl rfl
        · exact .inr (.inl rfl)

/-- The messages accepted that must be written. -/
def acceptedKept : OutboundEvent π → List (OutboundMessage π)
  | .accepted m => [m].filter OutboundMessage.kept
  | _ => []

/-- The messages written that had to be. -/
def writtenKept : OutboundEvent π → List (OutboundMessage π)
  | .written m => [m].filter OutboundMessage.kept
  | _ => []

/-- What is accepted is queued, what is written leaves the queue at the front, and all else of the queue is
dropped by closing only. -/
structure KeptStep (size : π → ℕ) (s s' : Outbound π) (event : OutboundEvent π) : Prop where
  accounted : Accounted size s'
  closed : s.outboundClosed = true →
    s'.outboundClosed = true ∧ acceptedKept event = [] ∧ writtenKept event = []
  moved : ∃ dropped, s.keptQueue ++ acceptedKept event =
    writtenKept event ++ s'.keptQueue ++ dropped ∧ (s'.outboundClosed = false → dropped = [])

/-- A critical section without a visible effect on the queue. -/
lemma KeptStep.of_eq (h : Accounted size s') (hkept : s'.keptQueue = s.keptQueue)
    (hclosed : s'.outboundClosed = s.outboundClosed) {event : OutboundEvent π}
    (ha : acceptedKept event = []) (hw : writtenKept event = []) : KeptStep size s s' event :=
  ⟨h, fun hc => ⟨hclosed.trans hc, ha, hw⟩, [], by simp [ha, hw, hkept], fun _ => rfl⟩

/-- A critical section that is not about messages. -/
lemma KeptStep.of_quiet (h : Accounted size s') (hkept : s'.keptQueue = s.keptQueue)
    (hclosed : s'.outboundClosed = s.outboundClosed) : KeptStep size s s' .quiet :=
  .of_eq h hkept hclosed rfl rfl

/-- A partial that replaced another. -/
lemma KeptStep.of_coalesced (h : Accounted size s)
    (hc : s.coalescePartial size message = some s') : KeptStep size s s' (.accepted message) := by
  obtain ⟨hs', hkind, hkept, hclosed⟩ := h.coalescePartial hc
  exact .of_eq hs' hkept hclosed (by simp [acceptedKept, OutboundMessage.kept, hkind]) rfl

/-- A message added at the end, after dropping partials. -/
lemma KeptStep.of_pushed (h : Accounted size s') (hopen : s.outboundClosed = false)
    (hkept : s'.keptQueue = s.keptQueue) (hclosed : s'.outboundClosed = s.outboundClosed)
    (hroom : s'.hasQueueCapacity (size message.payload) = true) :
    KeptStep size s (s'.push size message) (.accepted message) := by
  refine ⟨h.push (hclosed.trans hopen) hroom, fun hc => ?_, [], ?_, fun _ => rfl⟩
  · rw [hopen] at hc
    cases hc
  · rw [← hkept]
    simp [keptQueue, Outbound.push, acceptedKept, writtenKept]

/-- The subtractions of `finish_session` leave the bytes of the payload being written. -/
lemma foldl_sizeSub (queue : List (OutboundMessage π)) {bytes rest : ℕ} (hlt : bytes < 2 ^ 64)
    (h : bytes = queuedBytes size queue + rest) :
    queue.foldl (fun bytes m => sizeSub bytes (size m.payload)) bytes = rest := by
  induction queue generalizing bytes with
  | nil => simpa using h
  | cons m queue ih =>
    rw [queuedBytes_cons] at h
    rw [List.foldl_cons, sizeSub_of_le (by omega) hlt]
    exact ih (by omega) (by omega)

/-- Closing drops the queue. -/
lemma KeptStep.finishSession (h : Accounted size s) :
    KeptStep size s (s.finishSession size) .quiet := by
  unfold Outbound.finishSession
  split
  · exact .of_eq h rfl rfl rfl rfl
  · have hfold := foldl_sizeSub s.outbound h.bytes_lt h.bytes
    have hbytes := h.bytes
    have hbounded := h.bounded
    have hcount := h.count
    refine ⟨⟨?_, ?_, ?_, h.writing, rfl, fun _ => rfl⟩, fun _ => ⟨rfl, rfl, rfl⟩, s.keptQueue, ?_, ?_⟩
    · rw [hfold]
      simp [activeBytes]
    · change s.outbound.foldl _ _ ≤ _
      rw [hfold]
      omega
    · simp only [List.length_nil]
      omega
    · simp [keptQueue, acceptedKept, writtenKept]
    · intro hopen
      cases hopen

/-- A completed write gives its bytes back. -/
lemma Accounted.onWrite (h : Accounted size s) (hwriting : s.writeInProgress = true) :
    Accounted size (s.onWrite size) := by
  have hactive := h.writing
  rw [hwriting] at hactive
  obtain ⟨payload, hpayload⟩ := Option.isSome_iff_exists.mp hactive.symm
  have hbytes := h.bytes
  have hbounded := h.bounded
  have hcount := h.count
  simp only [activeBytes, hpayload, Option.map_some, Option.getD_some] at hbytes
  have hsub : (s.onWrite size).outboundBytes = queuedBytes size s.outbound := by
    simp only [Outbound.onWrite, hpayload]
    rw [sizeSub_of_le (by omega) h.bytes_lt]
    omega
  refine ⟨hsub, by rw [hsub]; omega, ?_, rfl, h.closing, h.drained⟩
  change s.outbound.length + 0 ≤ _
  omega

/-- Every critical section keeps the account and the order of the messages. -/
lemma outboundStep_kept (h : Accounted size s) {call : OutboundCall π} {event : OutboundEvent π}
    (hstep : outboundStep size s call = some (s', event)) : KeptStep size s s' event := by
  cases call with
  | enqueueFromWorker message =>
    have hstep : s.enqueueFromWorker size message = (s', event) := Option.some.inj hstep
    unfold Outbound.enqueueFromWorker at hstep
    split at hstep
    · obtain ⟨rfl, rfl⟩ := Prod.mk.inj hstep
      exact .of_eq h rfl rfl rfl rfl
    · next hgo =>
      have hopen : s.outboundClosed = false := by
        cases hc : s.outboundClosed with
        | false => rfl
        | true => exact absurd (.inl hc) hgo
      split at hstep
      · next hc =>
        obtain ⟨rfl, rfl⟩ := Prod.mk.inj hstep
        exact .of_coalesced h hc
      · split at hstep
        · next hroom =>
          obtain ⟨rfl, rfl⟩ := Prod.mk.inj hstep
          exact .of_pushed h hopen rfl rfl hroom
        · split at hstep
          · obtain ⟨rfl, rfl⟩ := Prod.mk.inj hstep
            exact .of_eq h rfl rfl rfl rfl
          · obtain ⟨rfl, rfl⟩ := Prod.mk.inj hstep
            exact .of_eq h rfl rfl rfl rfl
  | enqueueFromIo message =>
    have hstep : s.enqueueFromIo size message = (s', event) := Option.some.inj hstep
    unfold Outbound.enqueueFromIo at hstep
    split at hstep
    · obtain ⟨rfl, rfl⟩ := Prod.mk.inj hstep
      exact .of_eq h rfl rfl rfl rfl
    · next hgo =>
      have hopen : s.outboundClosed = false := Bool.eq_false_iff.mpr hgo
      split at hstep
      · next hc =>
        obtain ⟨rfl, rfl⟩ := Prod.mk.inj hstep
        exact .of_coalesced h hc
      · obtain ⟨hmade, hkept, hclosed, -⟩ :=
          h.makeRoom (size message.payload) (Nat.le_refl s.outbound.length)
        dsimp only at hstep
        split at hstep
        · next hroom =>
          obtain ⟨rfl, rfl⟩ := Prod.mk.inj hstep
          exact .of_pushed hmade hopen hkept hclosed hroom
        · obtain ⟨rfl, rfl⟩ := Prod.mk.inj hstep
          exact .of_eq hmade hkept hclosed rfl rfl
  | maybeWrite =>
    have hstep : s.maybeWrite = (s', event) := Option.some.inj hstep
    unfold Outbound.maybeWrite at hstep
    split at hstep
    · obtain ⟨rfl, rfl⟩ := Prod.mk.inj hstep
      exact .of_eq h rfl rfl rfl rfl
    · next hgo =>
      simp only [not_or, Bool.not_eq_true] at hgo
      split at hstep
      · obtain ⟨rfl, rfl⟩ := Prod.mk.inj hstep
        exact .of_eq h rfl rfl rfl rfl
      · next front rest hqueue =>
        obtain ⟨rfl, rfl⟩ := Prod.mk.inj hstep
        have hactive : s.activeWritePayload = none := by
          have hwriting := h.writing
          rw [hgo.2] at hwriting
          simpa using hwriting.symm
        have hbytes := h.bytes
        have hcount := h.count
        rw [hqueue, queuedBytes_cons] at hbytes
        rw [hqueue, hgo.2] at hcount
        refine ⟨⟨?_, h.bounded, ?_, rfl, h.closing, ?_⟩, fun hc => ?_, [], ?_, fun _ => rfl⟩
        · change s.outboundBytes = queuedBytes size rest + size front.payload
          simp only [activeBytes, hactive, Option.map_none, Option.getD_none] at hbytes
          omega
        · simpa using hcount
        · intro hclosed
          rw [hgo.1] at hclosed
          cases hclosed
        · rw [h.closing, hgo.1] at hc
          cases hc
        · simp [keptQueue, hqueue, acceptedKept, writtenKept, List.filter_cons]
          split <;> rfl
  | onWrite =>
    simp only [outboundStep] at hstep
    split at hstep
    · next hwriting =>
      simp only [Option.some.injEq, Prod.mk.injEq] at hstep
      obtain ⟨rfl, rfl⟩ := hstep
      exact .of_quiet (h.onWrite hwriting) rfl rfl
    · cases hstep
  | requestCloseAfterDrain =>
    simp only [outboundStep, Option.some.injEq, Prod.mk.injEq] at hstep
    obtain ⟨rfl, rfl⟩ := hstep
    exact .of_quiet ⟨h.bytes, h.bounded, h.count, h.writing, h.closing, h.drained⟩ rfl rfl
  | closeTransport readInProgress =>
    simp only [outboundStep, Option.some.injEq, Prod.mk.injEq] at hstep
    obtain ⟨rfl, rfl⟩ := hstep
    have hstarted : Accounted size { s with closeStarted := true } :=
      ⟨h.bytes, h.bounded, h.count, h.writing, h.closing, h.drained⟩
    unfold Outbound.closeTransport
    split
    · exact .of_eq h rfl rfl rfl rfl
    · split
      · have hfinish := KeptStep.finishSession hstarted
        exact ⟨hfinish.accounted, hfinish.closed, hfinish.moved⟩
      · exact .of_quiet hstarted rfl rfl
  | finishSession =>
    simp only [outboundStep, Option.some.injEq, Prod.mk.injEq] at hstep
    obtain ⟨rfl, rfl⟩ := hstep
    exact .finishSession h
  | cancellation token =>
    simp only [outboundStep, Option.some.injEq, Prod.mk.injEq] at hstep
    obtain ⟨rfl, rfl⟩ := hstep
    exact .of_quiet ⟨h.bytes, h.bounded, h.count, h.writing, h.closing, h.drained⟩ rfl rfl

/-! ## Whole runs -/

/-- What holds of the outbound queue after critical sections that did `events`. -/
structure Guarantees (size : π → ℕ) (events : List (OutboundEvent π)) (s : Outbound π) : Prop where
  /-- The counter is the bytes of the queued payloads and of the one being written. -/
  bytes : s.outboundBytes = queuedBytes size s.outbound + s.activeBytes size
  /-- The counter is at most 4 MiB. -/
  bounded : s.outboundBytes ≤ kMaxOutboundBytes
  /-- At most 256 messages are queued or being written. -/
  count : s.outbound.length + (if s.writeInProgress then 1 else 0) ≤ kMaxOutboundMessages
  /-- No subtraction the next critical section may do underflows: not that of a queued payload, of the one
  being written, or of all queued ones one after the other. -/
  covered : (∀ m ∈ s.outbound, size m.payload ≤ s.outboundBytes) ∧
    s.activeBytes size ≤ s.outboundBytes ∧ queuedBytes size s.outbound ≤ s.outboundBytes
  /-- The token and mandatory messages were accepted in the order in which they were written or wait to
  be, and until the session is finished no other was accepted. -/
  order : ∃ dropped, events.flatMap acceptedKept =
    events.flatMap writtenKept ++ s.keptQueue ++ dropped ∧ (s.closed = false → dropped = [])

/-- **The outbound queue is accounted for.**  After every interleaving of the critical sections of the
worker and of the IO thread the byte counter is exact and within its bound, the number of messages is
within its bound, and every token or mandatory message that was accepted is written or still queued, in
the order of acceptance, unless the session was finished. -/
theorem outbound_accounted (size : π → ℕ) {calls : List (OutboundCall π)}
    {events : List (OutboundEvent π)} {s : Outbound π}
    (hrun : runSteps (outboundStep size) ({} : Outbound π) calls = some (s, events)) :
    Guarantees size events s := by
  have hinv : Accounted size s ∧ ∃ dropped, events.flatMap acceptedKept =
      events.flatMap writtenKept ++ s.keptQueue ++ dropped ∧
        (s.outboundClosed = false → dropped = []) := by
    refine runSteps_induction (P := fun s _ events => Accounted size s ∧ ∃ dropped,
      events.flatMap acceptedKept = events.flatMap writtenKept ++ s.keptQueue ++ dropped ∧
        (s.outboundClosed = false → dropped = [])) ?_ ?_ hrun
    · rintro s calls events call s' event ⟨haccounted, dropped, horder, hdropped⟩ hstep
      obtain ⟨haccounted', hclosed, dropped', hmoved, hdropped'⟩ := outboundStep_kept haccounted hstep
      refine ⟨haccounted', ?_⟩
      rw [List.flatMap_append, List.flatMap_append, List.flatMap_singleton, List.flatMap_singleton]
      cases hc : s.outboundClosed with
      | true =>
        -- nothing moves any more
        obtain ⟨hc', ha, hw⟩ := hclosed hc
        have hempty : s.keptQueue = [] := by
          have hdrained := haccounted.drained (haccounted.closing.symm.trans hc)
          simp [keptQueue, hdrained]
        have hempty' : s'.keptQueue = [] := by
          have hdrained := haccounted'.drained (haccounted'.closing.symm.trans hc')
          simp [keptQueue, hdrained]
        refine ⟨dropped, ?_, fun hopen => ?_⟩
        · rw [ha, hw, hempty', horder, hempty]
          simp
        · rw [hc'] at hopen
          cases hopen
      | false =>
        refine ⟨dropped', ?_, hdropped'⟩
        rw [horder, hdropped hc, List.append_nil, List.append_assoc, hmoved]
        simp
    · exact ⟨⟨rfl, Nat.zero_le _, Nat.zero_le _, rfl, rfl, fun _ => rfl⟩, [], rfl, fun _ => rfl⟩
  obtain ⟨haccounted, dropped, horder, hdropped⟩ := hinv
  have hbytes := haccounted.bytes
  refine ⟨hbytes, haccounted.bounded, haccounted.count, ⟨?_, by omega, by omega⟩, dropped, horder, ?_⟩
  · intro m hm
    have hle : size m.payload ≤ queuedBytes size s.outbound :=
      List.le_sum_of_mem (List.mem_map_of_mem hm)
    omega
  · rw [← haccounted.closing]
    exact hdropped

/-- Two tokens with partials between and behind them: the second partial replaces the first, the IO thread's
message goes behind, one write is in progress. -/
theorem outbound_accounted_busy : ∃ (s : Outbound ℕ) (events : List (OutboundEvent ℕ)),
    s.outbound.length = 3 ∧ s.outboundBytes = 10 + 31 + 40 + 50 ∧
      events.flatMap acceptedKept = [⟨10, .token⟩, ⟨40, .token⟩, ⟨50, .mandatory⟩] ∧
      Guarantees id events s := by
  refine ⟨_, _, ?_, ?_, ?_, outbound_accounted id (show runSteps (outboundStep id) {}
    [.enqueueFromWorker ⟨10, .token⟩, .enqueueFromWorker ⟨30, .partialText⟩, .maybeWrite,
      .enqueueFromWorker ⟨40, .token⟩, .enqueueFromWorker ⟨31, .partialText⟩,
      .enqueueFromIo ⟨50, .mandatory⟩] = some (_, _) from rfl)⟩
  · rfl
  · rfl
  · rfl

end Outbound

end Voxtral
