import Voxtral.Lib.Narrowing
import Voxtral.Lib.Runs
import Mathlib.Data.List.Basic
import Mathlib.Tactic.Linarith

/-!
# The audio path of a realtime session

Binary frames are decoded on the IO thread and pushed, as far as there is room, into a bounded queue that
the worker pops.  The rest of a frame stays pending, no read is started meanwhile, and every pop posts a
handler that pushes on.  The IO thread and the worker meet only at the mutex of the queue, so a step below
is what one of them does up to its next critical section: one round of the loop of `pump_pending_audio`, a
pop, the posting after it, or a handler of the IO thread.
-/

namespace Voxtral

/-- `kMaxBinaryFrameBytes`. -/
def kMaxBinaryFrameBytes : ℕ := 64 * 1024

/-- `kWorkerChunkSamples`. -/
def kWorkerChunkSamples : ℕ := 1280

/-- `valid_binary_frame_size`. -/
def validBinaryFrameSize (size : ℕ) : Bool := size ≤ kMaxBinaryFrameBytes ∧ size % 2 = 0

/-- `realtime_capacity_samples`; `none` where it throws. -/
def realtimeCapacitySamples (realtimeBufferMs : ℕ) : Option ℕ :=
  let samples := realtimeBufferMs * 16 % 2 ^ 64
  if samples = 0 then none else some samples

/-! ## The queue -/

/-- `PcmQueue`. -/
structure PcmQueue where
  capacitySamples : ℕ
  queue : List (List Int16) := []
  queuedSamples : ℕ := 0
  finishing : Bool := false
  cancelled : Bool := false
  deriving DecidableEq

/-- `PcmQueue::PopResult`, with the chunk popped. -/
inductive PopResult
  | audio (chunk : List Int16)
  | finish
  | cancel
  deriving DecidableEq

/-- The chunks `push_some` cuts samples into.  Every round takes a sample, so as many rounds as there are
samples are enough. -/
def workerChunks : ℕ → List Int16 → List (List Int16)
  | 0, _ => []
  | rounds + 1, samples =>
    if samples = [] then []
    else samples.take kWorkerChunkSamples :: workerChunks rounds (samples.drop kWorkerChunkSamples)

namespace PcmQueue

/-- `PcmQueue::push_some`, with the number of samples accepted. -/
def pushSome (q : PcmQueue) (samples : List Int16) : PcmQueue × ℕ :=
  if q.cancelled ∨ q.finishing ∨ samples = [] then (q, 0)
  else
    let available := if q.queuedSamples < q.capacitySamples then q.capacitySamples - q.queuedSamples else 0
    let accepted := min available samples.length
    if accepted = 0 then (q, 0)
    else
      ({ q with
          queue := q.queue ++ workerChunks accepted (samples.take accepted)
          queuedSamples := sizeAdd q.queuedSamples accepted }, accepted)

/-- `PcmQueue::pop`; `none` while it waits. -/
def pop (q : PcmQueue) : Option (PcmQueue × PopResult) :=
  if q.cancelled then some (q, .cancel)
  else
    match q.queue with
    | chunk :: rest =>
      some ({ q with queue := rest, queuedSamples := sizeSub q.queuedSamples chunk.length }, .audio chunk)
    | [] => if q.finishing then some (q, .finish) else none

/-- `PcmQueue::finish`. -/
def finish (q : PcmQueue) : PcmQueue := { q with finishing := true }

/-- `PcmQueue::cancel`. -/
def cancel (q : PcmQueue) : PcmQueue := { q with cancelled := true, queue := [], queuedSamples := 0 }

end PcmQueue

/-! ## The session -/

/-- The members of `RealtimeSession` around the audio input, and where its two threads are. -/
structure PcmPath where
  inputQueue : PcmQueue
  pendingAudio : List Int16 := []
  pendingAudioOffset : ℕ := 0
  receivedSamples : ℕ := 0
  inputEnded : Bool := false
  readInProgress : Bool := false
  closed : Bool := false
  closeAfterDrain : Bool := false
  /-- The reads of the socket that were started and have not completed. -/
  reads : ℕ := 0
  /-- The handlers posted by `notify_input_space` that have not run. -/
  notifications : ℕ := 0
  /-- The IO thread is in the loop of `pump_pending_audio`. -/
  pumping : Bool := false
  /-- The worker popped audio and is about to call `notify_input_space`. -/
  notifyDue : Bool := false
  /-- The worker left its pop loop. -/
  workerDone : Bool := false
  deriving DecidableEq

/-- A step of one of the threads. -/
inductive PcmCall
  /-- The read completes with a binary message. -/
  | readBinary (bytes : List UInt8)
  /-- The read completes with an application ping. -/
  | readPing
  /-- The read completes with `input_audio.end`. -/
  | readFinish
  /-- The read completes with `session.cancel`. -/
  | readCancel
  /-- One round of the loop of `pump_pending_audio`. -/
  | pump
  /-- A handler posted by `notify_input_space` runs. -/
  | wakeup
  /-- A protocol failure, a timeout or a shutdown. -/
  | protocolFailure
  | finishSession
  /-- The worker pops. -/
  | pop
  /-- The worker calls `notify_input_space`. -/
  | notifyInputSpace
  /-- The worker, done, asks for the session to be closed. -/
  | requestCloseAfterDrain
  deriving DecidableEq

namespace PcmPath

/-- `read_next`. -/
def readNext (s : PcmPath) : PcmPath :=
  if s.closed ∨ s.closeAfterDrain ∨ s.inputEnded ∨ s.readInProgress ∨ s.pendingAudio ≠ [] then s
  else { s with readInProgress := true, reads := s.reads + 1 }

/-- `pump_pending_audio`, up to its loop. -/
def pumpPendingAudio (s : PcmPath) : PcmPath :=
  if s.closed ∨ s.pendingAudio = [] then s.readNext else { s with pumping := true }

/-- One round of the loop of `pump_pending_audio`, or what follows it. -/
def pumpRound (s : PcmPath) : PcmPath :=
  if s.pendingAudioOffset < s.pendingAudio.length then
    let (inputQueue, accepted) := s.inputQueue.pushSome (s.pendingAudio.drop s.pendingAudioOffset)
    if accepted = 0 then { s with pumping := false }
    else { s with inputQueue, pendingAudioOffset := s.pendingAudioOffset + accepted }
  else readNext { s with pendingAudio := [], pendingAudioOffset := 0, pumping := false }

/-- `protocol_failure`, as far as the audio input goes. -/
def protocolFailure (s : PcmPath) : PcmPath :=
  if s.closed then s
  else { s with inputEnded := true, inputQueue := s.inputQueue.cancel, closeAfterDrain := true }

/-- `handle_binary`. -/
def handleBinary (s : PcmPath) (bytes : List UInt8) : PcmPath :=
  if ¬ validBinaryFrameSize bytes.length then s.protocolFailure
  else if bytes = [] then s.readNext
  else
    pumpPendingAudio
      { s with
        pendingAudio := decodePcm16 bytes
        pendingAudioOffset := 0
        receivedSamples := sizeAdd s.receivedSamples (decodePcm16 bytes).length }

/-- A read completes. -/
def readDone (s : PcmPath) : PcmPath := { s with readInProgress := false, reads := s.reads - 1 }

/-- One step, with what the worker popped.  The IO thread is either in the loop of `pump_pending_audio` or
free to run a handler. -/
def step (s : PcmPath) : PcmCall → Option (PcmPath × Option PopResult)
  | .readBinary bytes =>
    if s.reads = 0 ∨ s.pumping then none else some (s.readDone.handleBinary bytes, none)
  | .readPing => if s.reads = 0 ∨ s.pumping then none else some (s.readDone.readNext, none)
  | .readFinish =>
    if s.reads = 0 ∨ s.pumping then none
    else some ({ s.readDone with inputEnded := true, inputQueue := s.inputQueue.finish }, none)
  | .readCancel =>
    if s.reads = 0 ∨ s.pumping then none
    else some ({ s.readDone with inputEnded := true, inputQueue := s.inputQueue.cancel }, none)
  | .pump => if s.pumping then some (s.pumpRound, none) else none
  | .wakeup =>
    if s.notifications = 0 ∨ s.pumping then none
    else
      let s' := { s with notifications := s.notifications - 1 }
      some (if s'.closed then s' else s'.pumpPendingAudio, none)
  | .protocolFailure => if s.pumping then none else some (s.protocolFailure, none)
  | .finishSession =>
    if s.pumping then none
    else some ({ s with closed := true, inputQueue := s.inputQueue.cancel }, none)
  | .pop =>
    if s.notifyDue ∨ s.workerDone then none
    else
      match s.inputQueue.pop with
      | none => none
      | some (inputQueue, .audio chunk) =>
        some ({ s with inputQueue, notifyDue := true }, some (.audio chunk))
      | some (inputQueue, result) => some ({ s with inputQueue, workerDone := true }, some result)
  | .notifyInputSpace =>
    if s.notifyDue then
      some ({ s with notifyDue := false, notifications := s.notifications + 1 }, none)
    else none
  | .requestCloseAfterDrain =>
    if s.workerDone then some ({ s with closeAfterDrain := true }, none) else none

/-- The session when it has been configured: the first read of a message is outstanding. -/
def start (capacitySamples : ℕ) : PcmPath where
  inputQueue := { capacitySamples }
  readInProgress := true
  reads := 1

/-! ## What a step keeps -/

/-- The chunks of samples are the samples. -/
lemma flatten_workerChunks (rounds : ℕ) (samples : List Int16) (h : samples.length ≤ rounds) :
    (workerChunks rounds samples).flatten = samples := by
  induction rounds generalizing samples with
  | zero =>
    rw [List.length_eq_zero_iff.mp (by omega : samples.length = 0)]
    rfl
  | succ rounds ih =>
    rw [workerChunks]
    split
    · next hempty => rw [hempty]; rfl
    · next hsome =>
      have hlength := List.length_pos_iff.mpr hsome
      rw [List.flatten_cons, ih _ (by rw [List.length_drop]; unfold kWorkerChunkSamples; omega),
        List.take_append_drop]

/-- `push_some` takes what there is room for. -/
lemma pushSome_cases {q : PcmQueue} {samples : List Int16} (hopen : q.cancelled = false)
    (hmore : q.finishing = false) (hsome : samples ≠ []) (hroom : q.queuedSamples ≤ q.capacitySamples)
    (hcap : q.capacitySamples < 2 ^ 64) :
    (q.queuedSamples = q.capacitySamples ∧ q.pushSome samples = (q, 0)) ∨
      ∃ accepted, 0 < accepted ∧ accepted ≤ samples.length ∧
        q.queuedSamples + accepted ≤ q.capacitySamples ∧
        q.pushSome samples =
          ({ q with
              queue := q.queue ++ workerChunks accepted (samples.take accepted)
              queuedSamples := q.queuedSamples + accepted }, accepted) := by
  have hlength := List.length_pos_iff.mpr hsome
  unfold PcmQueue.pushSome
  rw [if_neg (by simp [hopen, hmore, hsome])]
  dsimp only
  by_cases hfull : q.queuedSamples = q.capacitySamples
  · refine .inl ⟨hfull, ?_⟩
    rw [if_neg (by omega : ¬ q.queuedSamples < q.capacitySamples), Nat.zero_min, if_pos rfl]
  · refine .inr ⟨min (q.capacitySamples - q.queuedSamples) samples.length, by omega, by omega, by omega, ?_⟩
    rw [if_pos (by omega : q.queuedSamples < q.capacitySamples), if_neg (by omega),
      sizeAdd_of_lt (by omega)]

/-- The samples the worker popped, the queued ones and the pending ones are, in this order, the samples
received; the flags say where the IO thread goes on. -/
structure Moving (s : PcmPath) (received popped : List Int16) : Prop where
  flow : popped ++ (s.inputQueue.queue.flatten ++ s.pendingAudio.drop s.pendingAudioOffset) = received
  queued : s.inputQueue.queuedSamples = s.inputQueue.queue.flatten.length
  bounded : s.inputQueue.queuedSamples ≤ s.inputQueue.capacitySamples
  capacity : 0 < s.inputQueue.capacitySamples ∧ s.inputQueue.capacitySamples < 2 ^ 64
  undisturbed : s.inputQueue.cancelled = false ∧ s.closed = false
  reads : s.reads = if s.readInProgress then 1 else 0
  /-- While a read is outstanding nothing is pending. -/
  idle : s.readInProgress = true → s.pendingAudio = [] ∧ s.pumping = false ∧ s.inputEnded = false
  ended : s.inputEnded = s.inputQueue.finishing
  /-- The end of the input is read with nothing pending. -/
  finishing : s.inputEnded = true → s.pendingAudio = [] ∧ s.pumping = false
  pumping : s.pumping = true → s.pendingAudio ≠ []
  /-- The IO thread leaves audio pending only when the queue is full, or a pop has made room since. -/
  awake : s.pumping = false → s.pendingAudio ≠ [] →
    s.inputQueue.queuedSamples = s.inputQueue.capacitySamples ∨ s.notifyDue = true ∨ 0 < s.notifications
  done : s.workerDone = true → s.inputEnded = true ∧ s.inputQueue.queue = []
  closing : s.closeAfterDrain = true → s.workerDone = true

/-- Between the steps a read is outstanding whenever nothing else is to be done. -/
structure Conserved (s : PcmPath) (received popped : List Int16) : Prop
    extends Moving s received popped where
  reading : s.pendingAudio = [] → s.inputEnded = false → s.readInProgress = true

section Step

variable {s s' : PcmPath} {received popped : List Int16} {call : PcmCall} {result : Option PopResult}

/-- `read_next` starts a read unless one is outstanding, audio is pending or the input has ended. -/
lemma Moving.readNext (h : Moving s received popped) (hp : s.pumping = false) :
    Conserved s.readNext received popped := by
  unfold PcmPath.readNext
  split
  · next hno =>
    refine ⟨h, fun hpending hended => ?_⟩
    simp only [h.undisturbed.2, hpending, hended, Bool.false_eq_true, ne_eq, not_true_eq_false, false_or,
      or_false] at hno
    rcases hno with hclose | hread
    · have hdone := (h.done (h.closing hclose)).1
      rw [hended] at hdone
      cases hdone
    · exact hread
  · next hgo =>
    simp only [not_or, Bool.not_eq_true, ne_eq, not_not] at hgo
    obtain ⟨-, -, hended, hread, hpending⟩ := hgo
    have hreads := h.reads
    rw [hread] at hreads
    refine ⟨⟨h.flow, h.queued, h.bounded, h.capacity, h.undisturbed, ?_, fun _ => ⟨hpending, hp, hended⟩,
      h.ended, h.finishing, h.pumping, h.awake, h.done, h.closing⟩, fun _ _ => rfl⟩
    simp [hreads]

/-- One round of the pump loop moves samples from the pending frame to the queue, leaves the loop with the
queue full, or is done with the frame. -/
lemma Conserved.pumpRound (h : Conserved s received popped) (hp : s.pumping = true) :
    Conserved s.pumpRound received popped := by
  have hpending := h.pumping hp
  have hread : s.readInProgress = false := by
    cases hr : s.readInProgress with
    | false => rfl
    | true => exact absurd (h.idle hr).1 hpending
  have hended : s.inputEnded = false := by
    cases he : s.inputEnded with
    | false => rfl
    | true => exact absurd (h.finishing he).1 hpending
  have hnever : ∀ {P : Prop}, s.readInProgress = true → P := fun hr => by
    rw [hread] at hr
    cases hr
  have hopen : ∀ {P : Prop}, s.inputEnded = true → P := fun he => by
    rw [hended] at he
    cases he
  unfold PcmPath.pumpRound
  split
  · next hlt =>
    have hrest : s.pendingAudio.drop s.pendingAudioOffset ≠ [] := by
      rw [ne_eq, List.drop_eq_nil_iff]
      omega
    have hmore : s.inputQueue.finishing = false := h.ended.symm.trans hended
    rcases pushSome_cases h.undisturbed.1 hmore hrest h.bounded h.capacity.2 with
      ⟨hfull, hpush⟩ | ⟨accepted, hpos, hle, hroom, hpush⟩
    · rw [hpush]
      refine ⟨⟨h.flow, h.queued, h.bounded, h.capacity, h.undisturbed, h.reads, hnever, h.ended, hopen, ?_,
        fun _ _ => .inl hfull, h.done, h.closing⟩, fun hnone => absurd hnone hpending⟩
      intro hpump
      cases hpump
    · rw [hpush]
      dsimp only
      rw [if_neg (by omega)]
      have hchunks := flatten_workerChunks accepted
        ((s.pendingAudio.drop s.pendingAudioOffset).take accepted) (by simp)
      have hflow := h.flow
      rw [List.length_drop] at hle
      refine ⟨⟨?_, ?_, hroom, h.capacity, h.undisturbed, h.reads, hnever, h.ended, hopen,
        fun _ => hpending, ?_, ?_, h.closing⟩, fun hnone => absurd hnone hpending⟩
      · change popped ++ ((s.inputQueue.queue ++ workerChunks accepted _).flatten ++
          s.pendingAudio.drop (s.pendingAudioOffset + accepted)) = received
        rw [List.flatten_append, hchunks, ← hflow, ← List.drop_drop, List.append_assoc,
          List.take_append_drop]
      · change s.inputQueue.queuedSamples + accepted =
          (s.inputQueue.queue ++ workerChunks accepted _).flatten.length
        rw [List.flatten_append, hchunks, List.length_append, h.queued, List.length_take,
          List.length_drop, min_eq_left hle]
      · intro hpump
        rw [hp] at hpump
        cases hpump
      · intro hd
        exact hopen (h.done hd).1
  · next hge =>
    have hsent : s.pendingAudio.drop s.pendingAudioOffset = [] := List.drop_eq_nil_iff.mpr (by omega)
    have hflow := h.flow
    rw [hsent] at hflow
    refine Moving.readNext ⟨by simpa using hflow, h.queued, h.bounded, h.capacity, h.undisturbed, h.reads,
      hnever, h.ended, fun _ => ⟨rfl, rfl⟩, ?_, ?_, h.done, h.closing⟩ rfl
    · intro hpump
      cases hpump
    · intro _ hnone
      exact absurd rfl hnone

/-- A nonempty frame of even size has samples. -/
lemma decodePcm16_ne_nil {bytes : List UInt8} (hvalid : validBinaryFrameSize bytes.length = true)
    (hsome : bytes ≠ []) : decodePcm16 bytes ≠ [] := by
  match bytes with
  | [] => exact absurd rfl hsome
  | [low] => simp [validBinaryFrameSize] at hvalid
  | low :: high :: rest => simp [decodePcm16]

/-- A read completes while nothing is pending. -/
lemma Conserved.readDone (h : Conserved s received popped) (hreads : s.reads ≠ 0) :
    Moving s.readDone received popped ∧ s.pendingAudio = [] ∧ s.inputEnded = false ∧
      s.readDone.readInProgress = false ∧ s.readDone.reads = 0 := by
  have hcount := h.reads
  have hread : s.readInProgress = true := by
    cases hr : s.readInProgress with
    | false => simp [hr] at hcount; omega
    | true => rfl
  obtain ⟨hpending, hpump, hended⟩ := h.idle hread
  have hone : s.reads - 1 = 0 := by simp [hcount, hread]
  refine ⟨⟨h.flow, h.queued, h.bounded, h.capacity, h.undisturbed, ?_, ?_, h.ended, h.finishing, h.pumping,
    h.awake, h.done, h.closing⟩, hpending, hended, rfl, hone⟩
  · exact hone
  · intro hr
    cases hr

/-- A valid frame becomes the pending audio. -/
lemma Conserved.handleBinary (h : Conserved s received popped) (hreads : s.reads ≠ 0)
    {bytes : List UInt8} (hvalid : validBinaryFrameSize bytes.length = true) :
    Conserved (s.readDone.handleBinary bytes) (received ++ decodePcm16 bytes) popped := by
  obtain ⟨hdone, hpending, hended, hread, hzero⟩ := h.readDone hreads
  have hpump : s.pumping = false := by
    cases hp : s.pumping with
    | false => rfl
    | true => exact absurd hpending (h.pumping hp)
  unfold PcmPath.handleBinary
  rw [if_neg (by simp [hvalid])]
  split
  · next hempty =>
    rw [hempty, show decodePcm16 [] = [] from rfl, List.append_nil]
    exact hdone.readNext hpump
  · next hsome =>
    have hsamples := decodePcm16_ne_nil hvalid hsome
    unfold PcmPath.pumpPendingAudio
    rw [if_neg (by simp [hdone.undisturbed.2, hsamples])]
    have hflow := hdone.flow
    have hnone : s.readDone.pendingAudio = [] := hpending
    rw [hnone, List.drop_nil, List.append_nil] at hflow
    have hopen : ∀ {P : Prop}, s.inputEnded = true → P := fun he => by
      rw [hended] at he
      cases he
    refine ⟨⟨?_, hdone.queued, hdone.bounded, hdone.capacity, hdone.undisturbed, hdone.reads, ?_,
      hdone.ended, hopen, fun _ => hsamples, ?_, hdone.done, hdone.closing⟩,
      fun hnil => absurd hnil hsamples⟩
    · rw [← hflow]
      simp
    · intro hr
      cases hr
    · intro hp
      cases hp

/-- A pop hands out the oldest chunk, and the end only when everything was handed out. -/
lemma Conserved.pop (h : Conserved s received popped) (hstep : s.step .pop = some (s', result)) :
    (∃ chunk, result = some (.audio chunk) ∧ Conserved s' received (popped ++ chunk)) ∨
      (result = some .finish ∧ popped = received ∧ Conserved s' received popped) := by
  simp only [step] at hstep
  split at hstep
  · cases hstep
  · cases hpop : s.inputQueue.pop with
    | none => simp [hpop] at hstep
    | some r =>
      obtain ⟨inputQueue, popResult⟩ := r
      simp only [hpop] at hstep
      unfold PcmQueue.pop at hpop
      rw [h.undisturbed.1, if_neg Bool.false_ne_true] at hpop
      cases hqueue : s.inputQueue.queue with
      | cons chunk rest =>
        rw [hqueue] at hpop
        cases hpop
        cases hstep
        have hflow := h.flow
        have hqueued := h.queued
        have hbounded := h.bounded
        rw [hqueue, List.flatten_cons] at hflow hqueued
        rw [List.length_append] at hqueued
        have hsub : sizeSub s.inputQueue.queuedSamples chunk.length = rest.flatten.length := by
          rw [sizeSub_of_le (by omega) (by have := h.capacity.2; omega)]
          omega
        refine .inl ⟨chunk, rfl, ⟨⟨?_, hsub, ?_, h.capacity, ⟨rfl, h.undisturbed.2⟩, h.reads, h.idle, h.ended,
          h.finishing, h.pumping, fun _ _ => .inr (.inl rfl), ?_, h.closing⟩, h.reading⟩⟩
        · simpa using hflow
        · change sizeSub _ _ ≤ s.inputQueue.capacitySamples
          rw [hsub]
          omega
        · intro hd
          have hdone := (h.done hd).2
          rw [hqueue] at hdone
          cases hdone
      | nil =>
        rw [hqueue] at hpop
        dsimp only at hpop
        split at hpop
        · next hfinishing =>
          cases hpop
          cases hstep
          have hended := h.ended.trans hfinishing
          have hflow := h.flow
          rw [hqueue, (h.finishing hended).1] at hflow
          refine .inr ⟨rfl, by simpa using hflow, ⟨⟨h.flow, h.queued, h.bounded, h.capacity,
            h.undisturbed, h.reads, h.idle, h.ended, h.finishing, h.pumping, h.awake,
            fun _ => ⟨hended, hqueue⟩, fun _ => rfl⟩, h.reading⟩⟩
        · cases hpop

/-- The samples of a frame. -/
def frameSamples : PcmCall → List Int16
  | .readBinary bytes => decodePcm16 bytes
  | _ => []

/-- The samples of a pop. -/
def poppedSamples : Option PopResult → List Int16
  | some (.audio chunk) => chunk
  | _ => []

/-- Neither the client nor the server disturbs the session, and every binary frame is valid. -/
def orderly : PcmCall → Bool
  | .readBinary bytes => validBinaryFrameSize bytes.length
  | .readCancel => false
  | .protocolFailure => false
  | .finishSession => false
  | _ => true

/-- Every orderly step conserves the audio, and the end is popped only behind all of it. -/
lemma step_conserved (h : Conserved s received popped) (horderly : orderly call = true)
    (hstep : s.step call = some (s', result)) :
    Conserved s' (received ++ frameSamples call) (popped ++ poppedSamples result) ∧
      (result = some .finish → popped = received) := by
  cases call with
  | readBinary bytes =>
    simp only [step] at hstep
    split at hstep
    · cases hstep
    · next hgo =>
      cases hstep
      rw [not_or] at hgo
      refine ⟨?_, by simp⟩
      simpa [poppedSamples, frameSamples] using h.handleBinary hgo.1 horderly
  | readPing =>
    simp only [step] at hstep
    split at hstep
    · cases hstep
    · next hgo =>
      cases hstep
      rw [not_or] at hgo
      refine ⟨?_, by simp⟩
      simpa [poppedSamples, frameSamples] using
        (h.readDone hgo.1).1.readNext (Bool.eq_false_iff.mpr hgo.2)
  | readFinish =>
    simp only [step] at hstep
    split at hstep
    · cases hstep
    · next hgo =>
      cases hstep
      rw [not_or] at hgo
      obtain ⟨hdone, hpending, -, hread, -⟩ := h.readDone hgo.1
      have hpump := Bool.eq_false_iff.mpr hgo.2
      refine ⟨?_, by simp⟩
      simp only [poppedSamples, frameSamples, List.append_nil]
      refine ⟨⟨hdone.flow, hdone.queued, hdone.bounded, hdone.capacity, hdone.undisturbed, hdone.reads, ?_,
        rfl, fun _ => ⟨hpending, hpump⟩, hdone.pumping, hdone.awake, fun hd => ⟨rfl, (hdone.done hd).2⟩,
        hdone.closing⟩, fun _ hended => ?_⟩
      · intro hr
        cases hr
      · cases hended
  | readCancel => exact absurd horderly Bool.false_ne_true
  | pump =>
    simp only [step] at hstep
    split at hstep
    · next hp =>
      cases hstep
      refine ⟨?_, by simp⟩
      simpa [poppedSamples, frameSamples] using h.pumpRound hp
    · cases hstep
  | wakeup =>
    simp only [step] at hstep
    split at hstep
    · cases hstep
    · next hgo =>
      cases hstep
      rw [not_or] at hgo
      have hpump := Bool.eq_false_iff.mpr hgo.2
      refine ⟨?_, by simp⟩
      simp only [poppedSamples, frameSamples, List.append_nil, h.undisturbed.2, Bool.false_eq_true, if_false]
      unfold PcmPath.pumpPendingAudio
      by_cases hpending : s.pendingAudio = []
      · rw [if_pos (.inr hpending)]
        exact Moving.readNext ⟨h.flow, h.queued, h.bounded, h.capacity, ⟨h.undisturbed.1, rfl⟩, h.reads,
          h.idle, h.ended, h.finishing, h.pumping, fun _ hsome => absurd hpending hsome, h.done, h.closing⟩ hpump
      · rw [if_neg (by simp [hpending])]
        refine ⟨⟨h.flow, h.queued, h.bounded, h.capacity, ⟨h.undisturbed.1, rfl⟩, h.reads,
          fun hr => absurd (h.idle hr).1 hpending, h.ended,
          fun hended => absurd (h.finishing hended).1 hpending, fun _ => hpending, ?_, h.done, h.closing⟩,
          fun hnil => absurd hnil hpending⟩
        intro hp
        cases hp
  | protocolFailure => exact absurd horderly Bool.false_ne_true
  | finishSession => exact absurd horderly Bool.false_ne_true
  | pop =>
    rcases h.pop hstep with ⟨chunk, rfl, hs'⟩ | ⟨rfl, hall, hs'⟩
    · exact ⟨by simpa [poppedSamples, frameSamples] using hs', by simp⟩
    · exact ⟨by simpa [poppedSamples, frameSamples] using hs', fun _ => hall⟩
  | notifyInputSpace =>
    simp only [step] at hstep
    split at hstep
    · cases hstep
      refine ⟨?_, by simp⟩
      simp only [poppedSamples, frameSamples, List.append_nil]
      exact ⟨⟨h.flow, h.queued, h.bounded, h.capacity, h.undisturbed, h.reads, h.idle, h.ended, h.finishing,
        h.pumping, fun _ _ => .inr (.inr (Nat.succ_pos _)), h.done, h.closing⟩, h.reading⟩
    · cases hstep
  | requestCloseAfterDrain =>
    simp only [step] at hstep
    split at hstep
    · next hd =>
      cases hstep
      refine ⟨?_, by simp⟩
      simp only [poppedSamples, frameSamples, List.append_nil]
      exact ⟨⟨h.flow, h.queued, h.bounded, h.capacity, h.undisturbed, h.reads, h.idle, h.ended, h.finishing,
        h.pumping, h.awake, h.done, fun _ => hd⟩, h.reading⟩
    · cases hstep

/-- `read_next` starts a read at most. -/
lemma readNext_frame (s : PcmPath) :
    s.readNext.inputQueue = s.inputQueue ∧ s.readNext.workerDone = s.workerDone := by
  unfold PcmPath.readNext
  split <;> exact ⟨rfl, rfl⟩

/-- A push keeps the capacity. -/
lemma pushSome_capacity (q : PcmQueue) (samples : List Int16) :
    (q.pushSome samples).1.capacitySamples = q.capacitySamples := by
  unfold PcmQueue.pushSome
  split
  · rfl
  · dsimp only
    generalize min (if q.queuedSamples < q.capacitySamples then q.capacitySamples - q.queuedSamples else 0)
      samples.length = accepted
    split <;> rfl

/-- The pump loop pushes at most. -/
lemma pumpRound_frame (s : PcmPath) :
    s.pumpRound.inputQueue.capacitySamples = s.inputQueue.capacitySamples ∧
      s.pumpRound.workerDone = s.workerDone := by
  unfold PcmPath.pumpRound
  split
  · have hcap := pushSome_capacity s.inputQueue (s.pendingAudio.drop s.pendingAudioOffset)
    dsimp only
    split
    · exact ⟨rfl, rfl⟩
    · exact ⟨hcap, rfl⟩
  · obtain ⟨hqueue, hdone⟩ := readNext_frame
      { s with pendingAudio := [], pendingAudioOffset := 0, pumping := false }
    exact ⟨by rw [hqueue], hdone⟩

/-- Entering the pump loop touches neither the queue nor the worker. -/
lemma pumpPendingAudio_frame (s : PcmPath) :
    s.pumpPendingAudio.inputQueue = s.inputQueue ∧ s.pumpPendingAudio.workerDone = s.workerDone := by
  unfold PcmPath.pumpPendingAudio
  split
  · exact readNext_frame s
  · exact ⟨rfl, rfl⟩

/-- The capacity is fixed, and the worker is done from the pop of `Finish` on. -/
lemma step_frame (horderly : orderly call = true) (hstep : s.step call = some (s', result)) :
    s'.inputQueue.capacitySamples = s.inputQueue.capacitySamples ∧
      (s.workerDone = true ∨ result = some .finish → s'.workerDone = true) := by
  cases call with
  | readBinary bytes =>
    simp only [step] at hstep
    split at hstep
    · cases hstep
    · cases hstep
      unfold PcmPath.handleBinary
      have hvalid : validBinaryFrameSize bytes.length = true := horderly
      rw [if_neg (not_not.mpr hvalid)]
      split
      · obtain ⟨hqueue, hdone⟩ := readNext_frame s.readDone
        exact ⟨by rw [hqueue]; rfl, fun hd => hdone.trans (hd.resolve_right (by simp))⟩
      · obtain ⟨hqueue, hdone⟩ := pumpPendingAudio_frame
          { s.readDone with
            pendingAudio := decodePcm16 bytes
            pendingAudioOffset := 0
            receivedSamples := sizeAdd s.readDone.receivedSamples (decodePcm16 bytes).length }
        exact ⟨by rw [hqueue]; rfl, fun hd => hdone.trans (hd.resolve_right (by simp))⟩
  | readPing =>
    simp only [step] at hstep
    split at hstep
    · cases hstep
    · cases hstep
      obtain ⟨hqueue, hdone⟩ := readNext_frame s.readDone
      exact ⟨by rw [hqueue]; rfl, fun hd => hdone.trans (hd.resolve_right (by simp))⟩
  | readFinish =>
    simp only [step] at hstep
    split at hstep
    · cases hstep
    · cases hstep
      exact ⟨rfl, by simp [readDone]⟩
  | readCancel => exact absurd horderly Bool.false_ne_true
  | pump =>
    simp only [step] at hstep
    split at hstep
    · cases hstep
      obtain ⟨hcap, hdone⟩ := pumpRound_frame s
      exact ⟨hcap, fun hd => hdone.trans (hd.resolve_right (by simp))⟩
    · cases hstep
  | wakeup =>
    simp only [step] at hstep
    split at hstep
    · cases hstep
    · cases hstep
      split
      · exact ⟨rfl, by simp⟩
      · obtain ⟨hqueue, hdone⟩ := pumpPendingAudio_frame { s with notifications := s.notifications - 1 }
        exact ⟨by rw [hqueue], fun hd => hdone.trans (hd.resolve_right (by simp))⟩
  | protocolFailure => exact absurd horderly Bool.false_ne_true
  | finishSession => exact absurd horderly Bool.false_ne_true
  | pop =>
    simp only [step] at hstep
    split at hstep
    · cases hstep
    · next hgo =>
      have hcap : ∀ q r, s.inputQueue.pop = some (q, r) →
          q.capacitySamples = s.inputQueue.capacitySamples := by
        intro q r hpop
        unfold PcmQueue.pop at hpop
        split at hpop
        · cases hpop
          rfl
        · split at hpop
          · cases hpop
            rfl
          · split at hpop <;> cases hpop
            rfl
      split at hstep
      · cases hstep
      · next q chunk hpop =>
        cases hstep
        exact ⟨hcap _ _ hpop, by simp⟩
      · next q r _ hpop =>
        cases hstep
        exact ⟨hcap _ _ hpop, fun _ => rfl⟩
  | notifyInputSpace =>
    simp only [step] at hstep
    split at hstep <;> cases hstep
    exact ⟨rfl, by simp⟩
  | requestCloseAfterDrain =>
    simp only [step] at hstep
    split at hstep <;> cases hstep
    exact ⟨rfl, by simp⟩

end Step

/-! ## Chunks -/

section Chunks

variable {s s' : PcmPath} {call : PcmCall} {result : Option PopResult}

/-- A chunk for the worker: some samples, and no more than it takes at once. -/
def WorkerChunk (chunk : List Int16) : Prop := chunk ≠ [] ∧ chunk.length ≤ kWorkerChunkSamples

/-- A frame is handed on in such chunks. -/
lemma workerChunk_of_mem (rounds : ℕ) (samples : List Int16) :
    ∀ chunk ∈ workerChunks rounds samples, WorkerChunk chunk := by
  induction rounds generalizing samples with
  | zero => exact fun chunk hchunk => absurd hchunk List.not_mem_nil
  | succ rounds ih =>
    rw [workerChunks]
    split
    · exact fun chunk hchunk => absurd hchunk List.not_mem_nil
    · next hne =>
      intro chunk hchunk
      rcases List.mem_cons.mp hchunk with rfl | hchunk
      · have hsome : samples.take kWorkerChunkSamples ≠ [] := by
          rw [Ne, List.take_eq_nil_iff, not_or]
          exact ⟨by decide, hne⟩
        exact ⟨hsome, List.length_take_le _ _⟩
      · exact ih _ chunk hchunk

/-- The queued chunks are as `push_some` cuts them. -/
def QueuesChunks (s : PcmPath) : Prop :=
  ∀ chunk ∈ s.inputQueue.queue, WorkerChunk chunk

/-- The chunks are those of the queue. -/
lemma QueuesChunks.of_queue (h : QueuesChunks s) (hsame : s'.inputQueue.queue = s.inputQueue.queue) :
    QueuesChunks s' := by
  intro chunk hchunk
  rw [hsame] at hchunk
  exact h chunk hchunk

/-- A push adds chunks for the worker. -/
lemma QueuesChunks.pushSome {q : PcmQueue} (h : ∀ chunk ∈ q.queue, WorkerChunk chunk)
    (samples : List Int16) : ∀ chunk ∈ (q.pushSome samples).1.queue, WorkerChunk chunk := by
  unfold PcmQueue.pushSome
  dsimp only
  generalize min _ samples.length = accepted
  split_ifs
  · exact h
  · exact h
  · intro chunk hchunk
    rcases List.mem_append.mp hchunk with hchunk | hchunk
    · exact h chunk hchunk
    · exact workerChunk_of_mem _ _ chunk hchunk

/-- So does a round of the pump. -/
lemma QueuesChunks.pumpRound (h : QueuesChunks s) : QueuesChunks s.pumpRound := by
  have hpushed := QueuesChunks.pushSome h (s.pendingAudio.drop s.pendingAudioOffset)
  unfold PcmPath.pumpRound
  dsimp only
  split_ifs
  · exact h
  · exact hpushed
  · exact h.of_queue (congrArg PcmQueue.queue (readNext_frame _).1)

/-- A cancelled queue is empty. -/
lemma queuesChunks_of_cancel {q : PcmQueue} (hcancel : s.inputQueue = q.cancel) : QueuesChunks s := by
  intro chunk hchunk
  rw [hcancel] at hchunk
  exact absurd hchunk List.not_mem_nil

/-- A failure of the protocol cancels the queue. -/
lemma QueuesChunks.protocolFailure (h : QueuesChunks s) : QueuesChunks s.protocolFailure := by
  unfold PcmPath.protocolFailure
  split_ifs
  · exact h
  · exact queuesChunks_of_cancel rfl

/-- A binary frame adds nothing to the queue, or cancels it. -/
lemma QueuesChunks.handleBinary (h : QueuesChunks s) (bytes : List UInt8) :
    QueuesChunks (s.handleBinary bytes) := by
  unfold PcmPath.handleBinary
  by_cases hvalid : validBinaryFrameSize bytes.length
  · rw [if_neg (not_not.mpr hvalid)]
    split_ifs
    · exact h.of_queue (congrArg PcmQueue.queue (readNext_frame _).1)
    · exact h.of_queue (congrArg PcmQueue.queue (pumpPendingAudio_frame _).1)
  · rw [if_pos hvalid]
    exact h.protocolFailure

/-- Every step keeps them so, and pops one of them. -/
lemma step_chunks (h : QueuesChunks s) (hstep : s.step call = some (s', result)) :
    QueuesChunks s' ∧ ∀ chunk, result = some (.audio chunk) → WorkerChunk chunk := by
  cases call with
  | readBinary bytes =>
    simp only [step] at hstep
    split_ifs at hstep
    obtain ⟨rfl, rfl⟩ := Prod.mk.inj (Option.some.inj hstep)
    have hdone : QueuesChunks s.readDone := h
    exact ⟨hdone.handleBinary bytes, nofun⟩
  | readPing =>
    simp only [step] at hstep
    split_ifs at hstep
    obtain ⟨rfl, rfl⟩ := Prod.mk.inj (Option.some.inj hstep)
    exact ⟨h.of_queue (congrArg PcmQueue.queue (readNext_frame _).1), nofun⟩
  | readFinish =>
    simp only [step] at hstep
    split_ifs at hstep
    obtain ⟨rfl, rfl⟩ := Prod.mk.inj (Option.some.inj hstep)
    exact ⟨h, nofun⟩
  | readCancel =>
    simp only [step] at hstep
    split_ifs at hstep
    obtain ⟨rfl, rfl⟩ := Prod.mk.inj (Option.some.inj hstep)
    exact ⟨queuesChunks_of_cancel rfl, nofun⟩
  | pump =>
    simp only [step] at hstep
    split_ifs at hstep
    obtain ⟨rfl, rfl⟩ := Prod.mk.inj (Option.some.inj hstep)
    exact ⟨h.pumpRound, nofun⟩
  | wakeup =>
    simp only [step] at hstep
    split_ifs at hstep
    · obtain ⟨rfl, rfl⟩ := Prod.mk.inj (Option.some.inj hstep)
      exact ⟨h, nofun⟩
    · obtain ⟨rfl, rfl⟩ := Prod.mk.inj (Option.some.inj hstep)
      exact ⟨h.of_queue (congrArg PcmQueue.queue (pumpPendingAudio_frame _).1), nofun⟩
  | protocolFailure =>
    simp only [step] at hstep
    split_ifs at hstep
    obtain ⟨rfl, rfl⟩ := Prod.mk.inj (Option.some.inj hstep)
    exact ⟨h.protocolFailure, nofun⟩
  | finishSession =>
    simp only [step] at hstep
    split_ifs at hstep
    obtain ⟨rfl, rfl⟩ := Prod.mk.inj (Option.some.inj hstep)
    exact ⟨queuesChunks_of_cancel rfl, nofun⟩
  | pop =>
    simp only [step, PcmQueue.pop] at hstep
    cases hqueue : s.inputQueue.queue with
    | nil =>
      rw [hqueue] at hstep
      split_ifs at hstep
      all_goals
        obtain ⟨rfl, rfl⟩ := Prod.mk.inj (Option.some.inj hstep)
        exact ⟨h, nofun⟩
    | cons chunk rest =>
      rw [hqueue] at hstep
      dsimp only at hstep
      split_ifs at hstep with hbusy hcancelled
      · obtain ⟨rfl, rfl⟩ := Prod.mk.inj (Option.some.inj hstep)
        exact ⟨h, nofun⟩
      · dsimp only at hstep
        obtain ⟨rfl, rfl⟩ := Prod.mk.inj (Option.some.inj hstep)
        unfold QueuesChunks at h
        rw [hqueue] at h
        refine ⟨fun x hx => h x (List.mem_cons_of_mem chunk hx), fun x hx => ?_⟩
        obtain rfl := PopResult.audio.inj (Option.some.inj hx)
        exact h _ List.mem_cons_self
  | notifyInputSpace =>
    simp only [step] at hstep
    split_ifs at hstep
    obtain ⟨rfl, rfl⟩ := Prod.mk.inj (Option.some.inj hstep)
    exact ⟨h, nofun⟩
  | requestCloseAfterDrain =>
    simp only [step] at hstep
    split_ifs at hstep
    obtain ⟨rfl, rfl⟩ := Prod.mk.inj (Option.some.inj hstep)
    exact ⟨h, nofun⟩

/-- In every run of the audio path the worker pops such chunks. -/
lemma popped_workerChunk {capacity : ℕ} {calls : List PcmCall} {results : List (Option PopResult)}
    (hrun : runSteps step (start capacity) calls = some (s, results)) :
    ∀ chunk, some (.audio chunk) ∈ results → WorkerChunk chunk := by
  have hinv := runSteps_induction (P := fun s _ results => QueuesChunks s ∧
    ∀ chunk, some (.audio chunk) ∈ results → WorkerChunk chunk) ?_
    ⟨fun chunk hchunk => absurd hchunk List.not_mem_nil, fun chunk hchunk => absurd hchunk List.not_mem_nil⟩
    hrun
  · exact hinv.2
  · intro s calls results call s' result hP hstep
    obtain ⟨hchunks, hpopped⟩ := step_chunks hP.1 hstep
    refine ⟨hchunks, fun chunk hchunk => ?_⟩
    rcases List.mem_append.mp hchunk with hchunk | hchunk
    · exact hP.2 chunk hchunk
    · exact hpopped chunk (List.mem_singleton.mp hchunk).symm

end Chunks

/-! ## Whole runs -/

/-- What holds of the audio path after the steps `calls`, in which the worker popped `results`. -/
structure Guarantees (capacity : ℕ) (calls : List PcmCall) (results : List (Option PopResult))
    (s : PcmPath) : Prop where
  /-- The popped chunks, the queued ones and the pending rest are the samples of the frames so far. -/
  flow : results.flatMap poppedSamples ++ (s.inputQueue.queue.flatten ++
    s.pendingAudio.drop s.pendingAudioOffset) = calls.flatMap frameSamples
  /-- `queued_samples_` is the total length of the queued chunks. -/
  queued : s.inputQueue.queuedSamples = s.inputQueue.queue.flatten.length
  /-- The queue never holds more than its capacity. -/
  bounded : s.inputQueue.queuedSamples ≤ capacity
  /-- When `Finish` was popped, all samples were popped before, and no more can come. -/
  finished : some .finish ∈ results →
    results.flatMap poppedSamples = calls.flatMap frameSamples ∧ s.reads = 0 ∧
      s.pendingAudio = [] ∧ s.inputQueue.queue = []
  /-- At most one read is outstanding, and none while audio is pending. -/
  reads : s.reads ≤ 1 ∧ (0 < s.reads → s.pendingAudio = [])
  /-- With unsent audio and a drained queue a wakeup is posted, or due from the worker, unless the IO thread
  is at it. -/
  awake : s.pendingAudio.drop s.pendingAudioOffset ≠ [] → s.inputQueue.queue = [] →
    s.pumping = true ∨ s.notifyDue = true ∨ 0 < s.notifications
  /-- With nothing pending the next message is being read until the input ends. -/
  reading : s.pendingAudio = [] → s.inputEnded = false → s.reads = 1

/-- **The audio path conserves the audio.**  For every configured buffer, every sequence of valid binary
frames, pings and an end of the input, and every interleaving of the IO thread and the worker without
cancellation or failure. -/
theorem pcm_path_conserves {realtimeBufferMs capacity : ℕ}
    (hcap : realtimeCapacitySamples realtimeBufferMs = some capacity) {calls : List PcmCall}
    (horderly : ∀ call ∈ calls, orderly call = true) {s : PcmPath} {results : List (Option PopResult)}
    (hrun : runSteps step (start capacity) calls = some (s, results)) :
    Guarantees capacity calls results s := by
  have hcapacity : 0 < capacity ∧ capacity < 2 ^ 64 := by
    unfold realtimeCapacitySamples at hcap
    dsimp only at hcap
    split at hcap <;> cases hcap
    exact ⟨by omega, Nat.mod_lt _ (by norm_num)⟩
  obtain ⟨hs, hcap', hfinish⟩ : Conserved s (calls.flatMap frameSamples) (results.flatMap poppedSamples) ∧
      s.inputQueue.capacitySamples = capacity ∧ (some .finish ∈ results → s.workerDone = true) := by
    refine runSteps_induction_of_meets (P := fun s calls results =>
      Conserved s (calls.flatMap frameSamples) (results.flatMap poppedSamples) ∧
        s.inputQueue.capacitySamples = capacity ∧ (some .finish ∈ results → s.workerDone = true))
      ?_ ?_ (runMeets_of_forall (C := fun _ call => orderly call = true)
        (fun call hcall _ => horderly call hcall) _) hrun
    · rintro s calls results call s' result ⟨hs, hcap, hfinish⟩ hcall hstep
      obtain ⟨hcap', hdone⟩ := step_frame hcall hstep
      refine ⟨?_, hcap'.trans hcap, fun hmem => hdone ?_⟩
      · simpa using (step_conserved hs hcall hstep).1
      · rcases List.mem_append.mp hmem with hmem | hmem
        · exact .inl (hfinish hmem)
        · exact .inr (List.mem_singleton.mp hmem).symm
    · refine ⟨⟨⟨rfl, rfl, Nat.zero_le _, hcapacity, ⟨rfl, rfl⟩, rfl, fun _ => ⟨rfl, rfl, rfl⟩, rfl, ?_, ?_, ?_, ?_,
        ?_⟩, fun _ _ => rfl⟩, rfl, by simp⟩ <;> simp [start]
  have hreads := hs.reads
  refine ⟨hs.flow, hs.queued, hcap' ▸ hs.bounded, fun hmem => ?_, ⟨?_, fun hpos => ?_⟩, fun hunsent hempty => ?_,
    fun hpending hended => ?_⟩
  · obtain ⟨hended, hempty⟩ := hs.done (hfinish hmem)
    have hpending := (hs.finishing hended).1
    have hflow := hs.flow
    rw [hempty, hpending] at hflow
    have hread : s.readInProgress = false := by
      cases hr : s.readInProgress with
      | false => rfl
      | true => rw [(hs.idle hr).2.2] at hended; cases hended
    refine ⟨by simpa using hflow, ?_, hpending, hempty⟩
    simp [hreads, hread]
  · rw [hreads]
    split <;> omega
  · cases hr : s.readInProgress with
    | false => simp [hr] at hreads; omega
    | true => exact (hs.idle hr).1
  · have hpending : s.pendingAudio ≠ [] := by
      rintro hnil
      rw [hnil, List.drop_nil] at hunsent
      exact hunsent rfl
    cases hp : s.pumping with
    | true => exact .inl rfl
    | false =>
      rcases hs.awake hp hpending with hfull | hdue
      · have hqueued := hs.queued
        have hpos := hs.capacity.1
        rw [hempty, List.flatten_nil, List.length_nil] at hqueued
        omega
      · exact .inr hdue
  · rw [hreads, if_pos (hs.reading hpending hended)]

/-- Three samples through a buffer of one millisecond that is nearly full: the rest of the frame is pushed
when the worker has popped, and the end is popped behind it. -/
def splitFrame : List PcmCall :=
  [.readBinary (List.replicate 28 0), .pump, .pump, .readBinary [1, 0, 2, 0, 255, 255], .pump, .pump, .pop,
    .notifyInputSpace, .wakeup, .pump, .pump, .readFinish, .pop, .notifyInputSpace, .pop,
    .notifyInputSpace, .pop]

/-- All seventeen samples reach the worker. -/
theorem pcm_path_conserves_split : ∃ s results, runSteps step (start 16) splitFrame = some (s, results) ∧
    results.flatMap poppedSamples = List.replicate 14 0 ++ [1, 2, -1] ∧
    Guarantees 16 splitFrame results s := by
  obtain ⟨s, results, hrun, hpopped⟩ : ∃ s results,
      runSteps step (start 16) splitFrame = some (s, results) ∧
        results.flatMap poppedSamples = List.replicate 14 0 ++ [1, 2, -1] := ⟨_, _, rfl, by decide⟩
  exact ⟨s, results, hrun, hpopped,
    pcm_path_conserves (show realtimeCapacitySamples 1 = some 16 by decide) (by decide) hrun⟩

end PcmPath

end Voxtral
