import Voxtral.Stream.PumpSteps

/-!
# What a delivery does to the queue

A delivered token appends its TOKEN event; its snapshot then reaches the queue by one of the routes of
`SnapshotPush`.  The events a caller has polled or will poll, `eventHistory`, change accordingly.
-/

namespace Voxtral

variable {α φ ε γ κ : Type*}

/-- A TOKEN event. -/
def StreamEvent.isToken (e : StreamEvent) : Bool := e.type = .token

/-- The events polled so far, and those a caller that keeps polling would receive next. -/
def eventHistory (s : Stream α φ ε γ κ) : List StreamEvent := s.events.polled ++ s.events.queue

/-- The ways a snapshot `e` reaches a queue. -/
inductive SnapshotPush (bound : ℕ) (aggressive : Bool) (e : StreamEvent) :
    List StreamEvent → List StreamEvent → Prop
  | append (queue : List StreamEvent) (hroom : queue.length < bound) :
      SnapshotPush bound aggressive e queue (queue ++ [e])
  /-- Under aggressive coalescing the oldest snapshot goes and the new one is appended. -/
  | moveBack (pre : List StreamEvent) (x : StreamEvent) (post : List StreamEvent)
      (haggressive : aggressive = true) (hx : x.isPartial = true)
      (hpre : ∀ y ∈ pre, y.isPartial = false) :
      SnapshotPush bound aggressive e (pre ++ x :: post) (pre ++ post ++ [e])
  /-- In a full queue the new snapshot takes the place of the newest older one. -/
  | replace (pre : List StreamEvent) (x : StreamEvent) (post : List StreamEvent)
      (hfull : bound ≤ (pre ++ x :: post).length) (haggressive : aggressive = false)
      (hx : x.isPartial = true) (hpost : ∀ y ∈ post, y.isPartial = false) :
      SnapshotPush bound aggressive e (pre ++ x :: post) (pre ++ e :: post)
  /-- A full queue without a snapshot drops the new one. -/
  | drop (queue : List StreamEvent) (hfull : bound ≤ queue.length)
      (hnone : ∀ y ∈ queue, y.isPartial = false) : SnapshotPush bound aggressive e queue queue

/-- A push adds nothing but the snapshot. -/
lemma SnapshotPush.mem {bound : ℕ} {aggressive : Bool} {e x : StreamEvent}
    {queue queue' : List StreamEvent} (h : SnapshotPush bound aggressive e queue queue')
    (hx : x ∈ queue') : x ∈ queue ∨ x = e := by
  cases h with
  | append => simpa using hx
  | moveBack pre y post =>
    simp only [List.mem_append, List.mem_cons, List.not_mem_nil, or_false] at hx ⊢
    tauto
  | replace pre y post =>
    simp only [List.mem_append, List.mem_cons] at hx ⊢
    tauto
  | drop => exact Or.inl hx

/-- `replaceLastPartial` replaces the last snapshot, if there is one. -/
lemma replaceLastPartial_spec (queue : List StreamEvent) (e : StreamEvent) :
    (replaceLastPartial queue e = none ∧ ∀ y ∈ queue, y.isPartial = false) ∨
      ∃ pre x post, queue = pre ++ x :: post ∧ x.isPartial = true ∧
        (∀ y ∈ post, y.isPartial = false) ∧
        replaceLastPartial queue e = some (pre ++ e :: post) := by
  induction queue with
  | nil => exact Or.inl ⟨rfl, by simp⟩
  | cons a queue ih =>
    rw [replaceLastPartial]
    rcases ih with ⟨hnone, hall⟩ | ⟨pre, x, post, rfl, hx, hpost, hsome⟩
    · rw [hnone]
      by_cases ha : a.isPartial = true
      · exact Or.inr ⟨[], a, queue, rfl, ha, hall, by simp [ha]⟩
      · refine Or.inl ⟨by simp [ha], fun y hy => ?_⟩
        rcases List.mem_cons.mp hy with rfl | hy
        · simpa using ha
        · exact hall y hy
    · exact Or.inr ⟨a :: pre, x, post, rfl, hx, hpost, by simp [hsome]⟩

/-- Splitting a queue at its first snapshot. -/
lemma eraseP_partial_spec {queue : List StreamEvent}
    (hany : queue.any StreamEvent.isPartial = true) :
    ∃ pre x post, queue = pre ++ x :: post ∧ x.isPartial = true ∧
      (∀ y ∈ pre, y.isPartial = false) ∧
      queue.eraseP StreamEvent.isPartial = pre ++ post := by
  obtain ⟨a, ha, hpa⟩ := List.any_eq_true.mp hany
  obtain ⟨x, pre, post, hpre, hx, hsplit, herase⟩ := List.exists_of_eraseP ha hpa
  exact ⟨pre, x, post, hsplit, hx, fun y hy => by simpa using hpre y hy, herase⟩

/-- A snapshot reaches the queue by one of the routes, and is recorded when it does. -/
lemma pushEventCoalesced_snapshot (s : Stream α φ ε γ κ) {e : StreamEvent}
    (he : e.isPartial = true) :
    SnapshotPush s.events.bound s.events.aggressivePartialCoalescing e s.events.queue
        (pushEventCoalesced s e).1.events.queue ∧
      ∃ extra, (pushEventCoalesced s e).1.trace = s.trace ++ extra ∧
        extra.Sublist [.enqueued e (acceptedSamples s)] := by
  have hself : ∀ x : TraceEntry ε γ, [x].Sublist [x] := fun x => List.Sublist.refl _
  unfold pushEventCoalesced
  by_cases hback : e.isPartial = true ∧ s.events.aggressivePartialCoalescing = true ∧
      s.events.queue.any StreamEvent.isPartial = true
  · rw [if_pos hback]
    obtain ⟨pre, x, post, hsplit, hx, hpre, herase⟩ := eraseP_partial_spec hback.2.2
    refine ⟨?_, [_], rfl, hself _⟩
    simp only [coalescePartial, herase]
    rw [hsplit]
    exact .moveBack pre x post hback.2.1 hx hpre
  · rw [if_neg hback]
    by_cases hroom : s.events.queue.length < s.events.bound
    · rw [if_pos hroom]
      exact ⟨.append _ hroom, [_], rfl, hself _⟩
    · rw [if_neg hroom, if_pos he]
      rcases replaceLastPartial_spec s.events.queue e with
        ⟨hnone, hall⟩ | ⟨pre, x, post, hsplit, hx, hpost, hsome⟩
      · rw [hnone]
        exact ⟨.drop _ (not_lt.mp hroom) hall, [], by simp, List.nil_sublist _⟩
      · rw [hsome]
        have haggressive : s.events.aggressivePartialCoalescing = false := by
          by_contra htrue
          refine hback ⟨he, by simpa using htrue, List.any_eq_true.mpr ⟨x, ?_, hx⟩⟩
          rw [hsplit]
          simp
        refine ⟨?_, [_], rfl, hself _⟩
        simp only [coalescePartial]
        rw [hsplit] at hroom ⊢
        exact .replace pre x post (not_lt.mp hroom) haggressive hx hpost

/-- Delivering the end of the stream appends its TOKEN event. -/
lemma deliverPending_eos_events (eng : Engine α φ ε γ κ) (s : Stream α φ ε γ κ) {p : PendingToken}
    (heos : p.token = tokenEos) :
    (deliverPending eng s p).events.queue =
        s.events.queue ++ [tokenEvent eng p (s.decoder.tokenSequence + 1)] ∧
      (deliverPending eng s p).trace = s.trace ++
        [.enqueued (tokenEvent eng p (s.decoder.tokenSequence + 1)) (acceptedSamples s)] := by
  rw [deliverPending_eos heos]
  exact ⟨rfl, rfl⟩

/-- Delivering any other token appends its TOKEN event, then pushes its snapshot. -/
lemma deliverPending_text_events (eng : Engine α φ ε γ κ) (s : Stream α φ ε γ κ) {p : PendingToken}
    (heos : p.token ≠ tokenEos) :
    SnapshotPush s.events.bound s.events.aggressivePartialCoalescing (snapshotOf eng s p)
        (s.events.queue ++ [tokenEvent eng p (s.decoder.tokenSequence + 1)])
        (deliverPending eng s p).events.queue ∧
      ∃ extra, (deliverPending eng s p).trace = s.trace ++
          [.enqueued (tokenEvent eng p (s.decoder.tokenSequence + 1)) (acceptedSamples s),
            .partialPush (s.events.queue ++ [tokenEvent eng p (s.decoder.tokenSequence + 1)])
              s.events.bound s.events.aggressivePartialCoalescing] ++ extra ∧
        extra.Sublist [.enqueued (snapshotOf eng s p) (acceptedSamples s)] := by
  rw [deliverPending_text heos]
  obtain ⟨hpush, extra, htrace, hextra⟩ :=
    pushEventCoalesced_snapshot (beforeSnapshot eng s p) (e := snapshotOf eng s p) rfl
  refine ⟨hpush, extra, ?_, hextra⟩
  rw [show (afterSnapshot eng s p).trace = (beforeSnapshot eng s p).trace ++ extra from htrace]
  simp [beforeSnapshot, acceptToken, enqueueEvent, noteEnqueued, Events.bound]

/-- An entry that records no read or write of the device rings of the decoder. -/
def TraceEntry.IsQuiet : TraceEntry ε γ → Prop
  | .encoderRun _ _ _ | .enqueued _ _ | .partialPush _ _ _ => True
  | _ => False

/-- A delivery records events only. -/
lemma deliverPending_quiet (eng : Engine α φ ε γ κ) (s : Stream α φ ε γ κ) (p : PendingToken) :
    ∃ more, (deliverPending eng s p).trace = s.trace ++ more ∧
      ∀ e ∈ more, TraceEntry.IsQuiet e := by
  by_cases heos : p.token = tokenEos
  · exact ⟨_, (deliverPending_eos_events eng s heos).2, by simp [TraceEntry.IsQuiet]⟩
  · obtain ⟨-, extra, htrace, hextra⟩ := deliverPending_text_events eng s heos
    refine ⟨_, htrace.trans (List.append_assoc _ _ _), fun e he => ?_⟩
    rcases List.mem_append.mp he with he | he
    · simp only [List.mem_cons, List.not_mem_nil, or_false] at he
      rcases he with rfl | rfl <;> trivial
    · rw [List.mem_singleton.mp (hextra.subset he)]
      trivial

/-- An atomic change only appends to the history. -/
lemma PumpStep.trace_prefix {eng : Engine α φ ε γ κ} {s s' : Stream α φ ε γ κ}
    (h : PumpStep eng s s') : s.trace <+: s'.trace := by
  cases h with
  | bookkeep => exact ⟨[], List.append_nil _⟩
  | commitGroup => exact ⟨_, rfl⟩
  | advanceAdapter => exact ⟨[], List.append_nil _⟩
  | prefill => exact ⟨_, rfl⟩
  | decoderStep => exact ⟨_, rfl⟩
  | deliver p =>
    by_cases heos : p.token = tokenEos
    · exact ⟨_, (deliverPending_eos_events eng s heos).2.symm⟩
    · obtain ⟨-, extra, htrace, -⟩ := deliverPending_text_events eng s heos
      exact ⟨_, (htrace.trans (List.append_assoc _ _ _)).symm⟩

/-- A snapshot leaves the mandatory events of the queue in place. -/
lemma SnapshotPush.filter_token {bound : ℕ} {aggressive : Bool} {e : StreamEvent}
    {queue queue' : List StreamEvent} (h : SnapshotPush bound aggressive e queue queue')
    (he : e.isPartial = true) :
    queue'.filter StreamEvent.isToken = queue.filter StreamEvent.isToken := by
  have hsnapshot : ∀ x : StreamEvent, x.isPartial = true → x.isToken = false := by
    intro x hx
    simp only [StreamEvent.isPartial, decide_eq_true_eq] at hx
    simp [StreamEvent.isToken, hx]
  cases h with
  | append => simp [hsnapshot e he]
  | moveBack pre x post haggressive hx hpre => simp [hsnapshot e he, hsnapshot x hx]
  | replace pre x post hfull haggressive hx hpost => simp [hsnapshot e he, hsnapshot x hx]
  | drop => rfl

end Voxtral
