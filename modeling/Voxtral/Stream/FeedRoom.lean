import Voxtral.Stream.TokenLimit

/-!
# Feeds whose tokens fit the queue

A feed estimates the audio positions it can release by its sample count and coalesces snapshots when the
queue has room for one event a position but not for two.  With frames in batches of four the estimate is an
upper bound, whatever the left padding, the prompt and the frames of the last batch hold back.  A feed that
starts with nothing stashed and nothing to decode, in a queue that has room for the estimate, therefore
delivers the token of every position it decodes.
-/

namespace Voxtral

variable {α φ ε γ κ : Type*}

/-! ## The groups a feed completes -/

/-- `k` samples after `n` complete the groups of their audio and one more; the first block is behind the
positions of the prompt. -/
lemma emittedAt_feed (n k : ℕ) :
    emittedAt 4 (n + k) / 4 ≤
      max (emittedAt 4 n / 4) firstPosition + ((k + (rawAudioLengthPerTok - 1)) / rawAudioLengthPerTok + 1) := by
  have hle := encEmitted_le 4 (encFramesRealizable (stableFrameCount (streamLeftPad + (n + k))))
  have hlt := lt_emittedAt (show 0 < 4 by decide) n
  change emittedAt 4 (n + k) ≤ _ at hle
  rw [encFramesRealizable_eq, show streamLeftPad + (n + k) = 40960 + (n + k) from rfl] at hle
  rw [encFramesRealizable_eq, show streamLeftPad + n = 40960 + n from rfl] at hlt
  have hgroups : emittedAt 4 n / 4 ≤ max (emittedAt 4 n / 4) firstPosition := le_max_left _ _
  have hprompt : 38 ≤ max (emittedAt 4 n / 4) firstPosition := le_max_right _ _
  generalize max (emittedAt 4 n / 4) firstPosition = start at hgroups hprompt ⊢
  simp only [rawAudioLengthPerTok]
  unfold stableFrameCount at hle hlt
  split_ifs at hle hlt <;> omega

/-! ## Decoding into a queue -/

/-- The positions behind the decoder: those of the prompt, and those whose token was delivered. -/
def deliveredTo (s : Stream α φ ε γ κ) : ℕ := firstOpen s + if s.decoder.decoderEos then 1 else 0

/-- The events `n` delivered tokens add to a queue that holds `queue` then: one each and the newest snapshot
under aggressive coalescing, else two each. -/
def queueAllowance (aggressive : Bool) (queue : List StreamEvent) (n : ℕ) : ℕ :=
  if aggressive then n + (if queue.any StreamEvent.isPartial then 1 else 0) else 2 * n

/-- Where snapshots are coalesced, `n` tokens take room for one event more at most. -/
lemma queueAllowance_aggressive_le (queue : List StreamEvent) (n : ℕ) : queueAllowance true queue n ≤ n + 1 := by
  unfold queueAllowance
  rw [if_pos rfl]
  split_ifs <;> omega

/-- From `b` to `s` the decoder stepped over at most `budget` positions and delivered the TOKEN events `new`;
what it stepped over beyond these is stashed. -/
structure DecodedOn (budget : ℕ) (b s : Stream α φ ε γ κ) (new : List StreamEvent) : Prop where
  tokens : s.events.queue.filter StreamEvent.isToken = b.events.queue.filter StreamEvent.isToken ++ new
  steps : stepTokens s.trace = stepTokens b.trace ++ new.map StreamEvent.token ++
    (s.decoder.pending.map PendingToken.token).toList
  cursor : deliveredTo s = deliveredTo b + new.length
  ended : b.decoder.decoderEos = true → s.decoder.decoderEos = true
  reach : new.length + s.decoder.pending.toList.length ≤ budget
  mode : s.events.aggressivePartialCoalescing = b.events.aggressivePartialCoalescing
  maxEvents : s.events.maxEvents = b.events.maxEvents
  occupancy : s.events.queue.length ≤ b.events.queue.length +
    queueAllowance s.events.aggressivePartialCoalescing s.events.queue new.length

/-- The queue has room for the tokens of `budget` positions, and for their snapshots unless it coalesces
these. -/
structure HasRoom (budget : ℕ) (b : Stream α φ ε γ κ) : Prop where
  tokens : b.events.queue.length + budget + 1 < b.events.maxEvents
  snapshots : b.events.aggressivePartialCoalescing = false →
    b.events.queue.length + 2 * budget < b.events.maxEvents

section Decoding

variable {eng : Engine α φ ε γ κ} {b s s' : Stream α φ ε γ κ} {budget : ℕ} {new : List StreamEvent}

/-- Nothing decoded yet. -/
lemma DecodedOn.refl (hpending : s.decoder.pending = none) : DecodedOn budget s s [] := by
  constructor
  · exact (List.append_nil _).symm
  · rw [hpending]
    simp
  · rfl
  · exact id
  · rw [hpending]
    exact Nat.zero_le _
  · rfl
  · rfl
  · exact Nat.le_add_right _ _

/-- Changes that neither the queue nor the cursors of the decoder show. -/
lemma DecodedOn.congr (h : DecodedOn budget b s new) (hqueue : s'.events.queue = s.events.queue)
    (hsteps : stepTokens s'.trace = stepTokens s.trace) (hcursor : firstOpen s' = firstOpen s)
    (heos : s'.decoder.decoderEos = s.decoder.decoderEos) (hpending : s'.decoder.pending = s.decoder.pending)
    (hmode : s'.events.aggressivePartialCoalescing = s.events.aggressivePartialCoalescing)
    (hmax : s'.events.maxEvents = s.events.maxEvents) : DecodedOn budget b s' new where
  tokens := by rw [hqueue, h.tokens]
  steps := by rw [hsteps, hpending, h.steps]
  cursor := by rw [← h.cursor, deliveredTo, deliveredTo, hcursor, heos]
  ended := by rw [heos]; exact h.ended
  reach := by rw [hpending]; exact h.reach
  mode := hmode.trans h.mode
  maxEvents := hmax.trans h.maxEvents
  occupancy := by rw [hqueue, hmode]; exact h.occupancy

/-- The frontend decodes nothing. -/
lemma DecodedOn.frontend (h : DecodedOn budget b s new) (hchange : FrontendChange s s') :
    DecodedOn budget b s' new := by
  have hdecoder := hchange.decoder
  have hevents := hchange.events
  refine h.congr (by rw [hevents]) hchange.stepTokens ?_ (by rw [hdecoder]) (by rw [hdecoder])
    (by rw [hevents]) (by rw [hevents])
  unfold firstOpen
  rw [hdecoder]

/-- With room in the queue at the start, there is room for another event. -/
lemma DecodedOn.room (h : DecodedOn budget b s new) (hroom : HasRoom budget b) :
    s.events.queue.length < b.events.maxEvents := by
  have hoccupancy := h.occupancy
  have hreach := h.reach
  have htokens := hroom.tokens
  rw [h.mode] at hoccupancy
  cases hmode : b.events.aggressivePartialCoalescing with
  | true =>
    have hle := queueAllowance_aggressive_le s.events.queue new.length
    rw [hmode] at hoccupancy
    omega
  | false =>
    have hsnapshots := hroom.snapshots hmode
    have hallowance : queueAllowance false s.events.queue new.length = 2 * new.length := rfl
    rw [hmode, hallowance] at hoccupancy
    omega

/-- A step stays within the budget, as far as the committed groups do. -/
lemma DecodedOn.decoderStep (h : DecodedOn budget b s new)
    (hprefill : s.decoder.decoderPrefillDone = true) (hpending : s.decoder.pending = none)
    (hmay : decoderMayStep s) (hcommitted : s.decoder.adapterGroupsCommitted ≤ s.frontend.enc.emitted / 4)
    (hlimit : b.decoder.decoderEos = true ∨ s.frontend.enc.emitted / 4 ≤ deliveredTo b + budget) :
    DecodedOn budget b (stepDecoder eng s) new := by
  obtain ⟨hposition, hlive, -⟩ := hmay
  have hcursor := h.cursor
  have hopen : deliveredTo s = s.decoder.decoderPosition := by
    unfold deliveredTo firstOpen
    rw [if_pos hprefill, hlive]
    rfl
  refine ⟨h.tokens, ?_, h.cursor, h.ended, ?_, h.mode, h.maxEvents, h.occupancy⟩
  · have hsteps := h.steps
    rw [hpending] at hsteps
    unfold stepDecoder
    rw [stepTokens_append, hsteps]
    exact congrArg (· ++ _) (List.append_nil _)
  · rcases hlimit with hend | hlimit
    · exact absurd (hlive.symm.trans (h.ended hend)) (by decide)
    · change new.length + 1 ≤ budget
      omega

/-- A snapshot behind a token keeps to the allowance. -/
lemma pushEventCoalesced_allowance (s : Stream α φ ε γ κ) {e : StreamEvent} (he : e.isPartial = true)
    {start n : ℕ} (hqueue : s.events.queue.length ≤
      start + queueAllowance s.events.aggressivePartialCoalescing s.events.queue n + 1) :
    (pushEventCoalesced s e).1.events.queue.length ≤ start + queueAllowance
      s.events.aggressivePartialCoalescing (pushEventCoalesced s e).1.events.queue (n + 1) := by
  have hbehind : ∀ xs : List StreamEvent, (xs ++ [e]).any StreamEvent.isPartial = true := by
    intro xs
    rw [List.any_append]
    simp [he]
  unfold pushEventCoalesced
  by_cases hback : e.isPartial = true ∧ s.events.aggressivePartialCoalescing = true ∧
      s.events.queue.any StreamEvent.isPartial = true
  · rw [if_pos hback]
    obtain ⟨pre, x, post, hsplit, -, -, herase⟩ := eraseP_partial_spec hback.2.2
    have hlength : (s.events.queue.eraseP StreamEvent.isPartial ++ [e]).length = s.events.queue.length := by
      rw [herase, hsplit]
      simp only [List.length_append, List.length_cons, List.length_nil]
      omega
    change (s.events.queue.eraseP StreamEvent.isPartial ++ [e]).length ≤
      start + queueAllowance _ (s.events.queue.eraseP StreamEvent.isPartial ++ [e]) (n + 1)
    rw [hlength]
    unfold queueAllowance at hqueue ⊢
    rw [hbehind, if_pos rfl]
    split_ifs at hqueue ⊢ <;> omega
  · rw [if_neg hback]
    by_cases hroom : s.events.queue.length < s.events.bound
    · -- without a snapshot to move, an aggressively coalescing queue has one in the allowance
      rw [if_pos hroom]
      have hnone : s.events.aggressivePartialCoalescing = true →
          ¬ s.events.queue.any StreamEvent.isPartial = true := fun hmode hany => hback ⟨he, hmode, hany⟩
      change (s.events.queue ++ [e]).length ≤ start + queueAllowance _ (s.events.queue ++ [e]) (n + 1)
      unfold queueAllowance at hqueue ⊢
      rw [hbehind, if_pos rfl, List.length_append, List.length_singleton]
      by_cases hmode : s.events.aggressivePartialCoalescing = true
      · rw [if_pos hmode, if_neg (hnone hmode)] at hqueue
        rw [if_pos hmode]
        omega
      · rw [if_neg hmode] at hqueue ⊢
        omega
    · rw [if_neg hroom, if_pos he]
      rcases replaceLastPartial_spec s.events.queue e with
        ⟨hnone, -⟩ | ⟨pre, x, post, hsplit, -, -, hsome⟩
      · rw [hnone]
        change s.events.queue.length ≤ start + queueAllowance _ s.events.queue (n + 1)
        unfold queueAllowance at hqueue ⊢
        split_ifs at hqueue ⊢ <;> omega
      · rw [hsome]
        have hnew : (pre ++ e :: post).any StreamEvent.isPartial = true := by
          rw [List.any_append, List.any_cons, he, Bool.true_or, Bool.or_true]
        have hlength : (pre ++ e :: post).length = s.events.queue.length := by
          rw [hsplit, List.length_append, List.length_append, List.length_cons, List.length_cons]
        change (pre ++ e :: post).length ≤ start + queueAllowance _ (pre ++ e :: post) (n + 1)
        rw [hlength]
        unfold queueAllowance at hqueue ⊢
        rw [hnew, if_pos rfl]
        split_ifs at hqueue ⊢ <;> omega

/-- A delivery appends one TOKEN event and moves the decoder over its position. -/
lemma deliverPending_token (eng : Engine α φ ε γ κ) (s : Stream α φ ε γ κ) (p : PendingToken)
    (hprefill : s.decoder.decoderPrefillDone = true) (hlive : s.decoder.decoderEos = false) :
    (deliverPending eng s p).events.queue.filter StreamEvent.isToken =
        s.events.queue.filter StreamEvent.isToken ++ [tokenEvent eng p (s.decoder.tokenSequence + 1)] ∧
      deliveredTo (deliverPending eng s p) = deliveredTo s + 1 := by
  have hbehind : (s.events.queue ++ [tokenEvent eng p (s.decoder.tokenSequence + 1)]).filter
      StreamEvent.isToken = s.events.queue.filter StreamEvent.isToken ++
        [tokenEvent eng p (s.decoder.tokenSequence + 1)] := by
    rw [List.filter_append]
    rfl
  constructor
  · by_cases heos : p.token = tokenEos
    · rw [(deliverPending_eos_events eng s heos).1, hbehind]
    · rw [(deliverPending_text_events eng s heos).1.filter_token rfl, hbehind]
  · unfold deliveredTo firstOpen
    rw [deliverPending_decoder, decoderAfter, hlive]
    split_ifs with heos <;> simp_all [appendTokenToPartial]

/-- A delivery moves the stashed token to the TOKEN events. -/
lemma DecodedOn.deliver (h : DecodedOn budget b s new) {p : PendingToken}
    (hprefill : s.decoder.decoderPrefillDone = true) (hpending : s.decoder.pending = some p)
    (hlive : s.decoder.decoderEos = false) (hroom : s.events.queue.length < s.events.bound) :
    DecodedOn budget b (deliverPending eng s p) (new ++ [tokenEvent eng p (s.decoder.tokenSequence + 1)]) := by
  set event := tokenEvent eng p (s.decoder.tokenSequence + 1) with hevent
  have hframe : PumpFrame s (deliverPending eng s p) := (PumpStep.deliver s p hprefill hpending hroom).frame
  have hdec := deliverPending_decoder eng s p
  have hsteps := h.steps
  have hreach := h.reach
  have hcursor := h.cursor
  rw [hpending] at hsteps hreach
  have hdelivered : stepTokens (deliverPending eng s p).trace =
      stepTokens b.trace ++ (new ++ [event]).map StreamEvent.token := by
    rw [stepTokens_decodeEntries, (deliverPending_entries eng s p).1, List.filterMap_append,
      ← stepTokens_decodeEntries, hsteps, List.map_append, ← List.append_assoc]
    exact List.append_nil _
  obtain ⟨htokens, hmoved⟩ := deliverPending_token eng s p hprefill hlive
  have hend : b.decoder.decoderEos = true → False := fun htrue =>
    absurd (hlive.symm.trans (h.ended htrue)) (by decide)
  have hlength : (deliverPending eng s p).events.queue.length ≤ b.events.queue.length +
      queueAllowance s.events.aggressivePartialCoalescing (deliverPending eng s p).events.queue
        (new.length + 1) := by
    have hoccupancy := h.occupancy
    have hbehind : (s.events.queue ++ [event]).any StreamEvent.isPartial =
        s.events.queue.any StreamEvent.isPartial := by
      rw [List.any_append]
      exact Bool.or_false _
    have hlength : (s.events.queue ++ [event]).length ≤ b.events.queue.length +
        queueAllowance s.events.aggressivePartialCoalescing (s.events.queue ++ [event]) new.length + 1 := by
      unfold queueAllowance at hoccupancy ⊢
      rw [hbehind, List.length_append, List.length_singleton]
      exact Nat.succ_le_succ hoccupancy
    by_cases heos : p.token = tokenEos
    · rw [(deliverPending_eos_events eng s heos).1, ← hevent]
      refine hlength.trans ?_
      unfold queueAllowance
      split_ifs <;> omega
    · rw [deliverPending_text heos]
      exact pushEventCoalesced_allowance (beforeSnapshot eng s p) (e := snapshotOf eng s p) rfl hlength
  have hpending' : (deliverPending eng s p).decoder.pending = none := by
    rw [hdec, decoderAfter]
    split_ifs <;> rfl
  refine ⟨?_, ?_, ?_, fun htrue => (hend htrue).elim, ?_, hframe.aggressive.trans h.mode,
    hframe.maxEvents.trans h.maxEvents, ?_⟩
  · rw [htokens, h.tokens, List.append_assoc]
  · rw [hdelivered, hpending']
    exact (List.append_nil _).symm
  · rw [hmoved, hcursor, List.length_append]
    rfl
  · rw [hpending', List.length_append]
    exact hreach
  · rw [hframe.aggressive, List.length_append, List.length_singleton]
    exact hlength

/-- Every atomic change of a pump goes on decoding. -/
lemma PumpStep.decodedOn (hstep : PumpStep eng s s') (hw : DecoderWithin s)
    (hcommitted : s.decoder.adapterGroupsCommitted ≤ s.frontend.enc.emitted / 4)
    (hlimit : b.decoder.decoderEos = true ∨ s.frontend.enc.emitted / 4 ≤ deliveredTo b + budget)
    (h : DecodedOn budget b s new) : ∃ new', DecodedOn budget b s' new' := by
  cases hstep with
  | bookkeep => exact ⟨new, h.congr rfl rfl rfl rfl rfl rfl rfl⟩
  | commitGroup group =>
    refine ⟨new, h.congr rfl ?_ rfl rfl rfl rfl rfl⟩
    rw [Voxtral.commitGroup, stepTokens_append]
    exact List.append_nil _
  | advanceAdapter => exact ⟨new, h.congr rfl rfl rfl rfl rfl rfl rfl⟩
  | prefill hfresh =>
    refine ⟨new, h.congr rfl ?_ ?_ rfl rfl rfl rfl⟩
    · unfold prefillDecoder
      rw [stepTokens_append]
      exact List.append_nil _
    · unfold firstOpen
      rw [hfresh]
      rfl
  | decoderStep hprefill hpending hmay => exact ⟨new, h.decoderStep hprefill hpending hmay hcommitted hlimit⟩
  | deliver p hprefill hpending hroom =>
    exact ⟨_, h.deliver hprefill hpending (hw.stash p hpending).2.2 hroom⟩

/-- What a pump decodes stays within the budget. -/
lemma PumpSteps.decodedOn (hsteps : PumpSteps eng s s') (hw : DecoderWithin s) (htime : InTime s)
    (hlimit : b.decoder.decoderEos = true ∨ s.frontend.enc.emitted / 4 ≤ deliveredTo b + budget)
    (h : DecodedOn budget b s new) : ∃ new', DecodedOn budget b s' new' := by
  induction hsteps with
  | refl => exact ⟨new, h⟩
  | tail hsteps hstep ih =>
    obtain ⟨new', h'⟩ := ih
    refine hstep.decodedOn (PumpSteps.within hsteps hw) (PumpSteps.inTime hsteps htime).committed ?_ h'
    rw [(PumpSteps.frame hsteps).frontend]
    exact hlimit

end Decoding

/-! ## What is stashed behind a pump -/

section Stash

variable {eng : Engine α φ ε γ κ} {s : Stream α φ ε γ κ}

/-- A loop that does not stall leaves no token stashed. -/
lemma pumpStepLoop_pending (fuel : ℕ) (hpending : s.decoder.pending = none)
    (hstall : (pumpStepLoop eng fuel s).2 ≠ .limitExceeded) :
    (pumpStepLoop eng fuel s).1.decoder.pending = none := by
  induction fuel generalizing s with
  | zero => exact hpending
  | succ fuel ih =>
    rw [pumpStepLoop_succ] at hstall ⊢
    split_ifs at hstall ⊢ with hmay hran
    · dsimp only at hstall ⊢
      split_ifs at hstall ⊢ with hok
      · exact ih (commitPending_pending hok) hstall
      · exact absurd rfl hstall
    · exact hpending
    · exact hpending

/-- A pump that does not stall leaves nothing stashed, also where a graph fails. -/
lemma pumpIncremental_pending (hw : DecoderWithin s) (hle : s.decoder.adapterGroupsCommitted ≤ committable s)
    (hpending : s.decoder.pending = none) (hstall : (pumpIncremental eng s).2 ≠ .limitExceeded) :
    (pumpIncremental eng s).1.decoder.pending = none := by
  obtain ⟨calls, hdec⟩ := (pumpAdapter_outcome eng hw.floor hle).decoder
  have hadapter : (pumpAdapter eng s).1.decoder.pending = none := by
    rw [hdec]
    exact hpending
  have hprefill : (pumpPrefill eng (pumpAdapter eng s).1).1.decoder.pending = none := by
    unfold pumpPrefill decoderPrefill
    dsimp only
    split_ifs <;> exact hadapter
  unfold pumpIncremental at hstall ⊢
  dsimp only at hstall ⊢
  split_ifs at hstall ⊢
  · exact hadapter
  · exact hprefill
  · unfold pumpDecoder at hstall ⊢
    split_ifs at hstall ⊢
    · exact hprefill
    · rw [commitPending_of_none eng hprefill] at hstall ⊢
      exact pumpStepLoop_pending _ hprefill hstall

end Stash

/-! ## Feeds -/

/-- A feed that took the stream from `s` to `s'` decoded at most `budget` positions, and the TOKEN event of
each is in the queue. -/
structure FeedFits (budget : ℕ) (s s' : Stream α φ ε γ κ) : Prop where
  decoded : ∃ new : List StreamEvent, new.length ≤ budget ∧
    stepTokens s'.trace = stepTokens s.trace ++ new.map StreamEvent.token ∧
    s'.events.queue.filter StreamEvent.isToken = s.events.queue.filter StreamEvent.isToken ++ new
  pending : s'.decoder.pending = none
  queue : s'.events.queue.length ≤ s.events.maxEvents

/-- No complete group waits for the decoder. -/
def NothingToDecode (s : Stream α φ ε γ κ) : Prop :=
  s.decoder.decoderEos = false → s.frontend.enc.emitted / downsampleFactor ≤ firstOpen s

section Feeds

variable [Zero α] {eng : Engine α φ ε γ κ} {b s s' : Stream α φ ε γ κ} {budget : ℕ} {new : List StreamEvent}

/-- The slice loop does not stall. -/
lemma feedSlices_decodedOn (slices : List (List α)) {status : Status} (h : Working eng True s)
    (hpadded : s.frontend.leftPadInjected = true)
    (hslices : ∀ slice ∈ slices, slice.length ≤ audioDrainSlice) (hroom : HasRoom budget b)
    (hlimit : b.decoder.decoderEos = true ∨ emittedAt eng.schedule.logical
      (s.frontend.realSamples.length + slices.flatten.length) / 4 ≤ deliveredTo b + budget)
    (hpending : s.decoder.pending = none) (hon : DecodedOn budget b s new)
    (hrun : feedSlices eng s false slices = some (s', status)) :
    status ≠ .limitExceeded ∧ s'.decoder.pending = none ∧ ∃ new', DecodedOn budget b s' new' := by
  induction slices generalizing s new with
  | nil =>
    obtain ⟨rfl, rfl⟩ := Prod.mk.inj (Option.some.inj hrun)
    exact ⟨by decide, hpending, new, hon⟩
  | cons slice rest ih =>
    rw [feedSlices] at hrun
    obtain ⟨⟨t, ok⟩, habsorb, hrun⟩ := Option.bind_eq_some_iff.mp hrun
    have hslice := hslices slice List.mem_cons_self
    have hchange := absorbSlice_frontendChange habsorb
    have hont := hon.frontend hchange
    have hpendingt : t.decoder.pending = none := by
      rw [hchange.decoder]
      exact hpending
    cases ok with
    | false =>
      simp only [Bool.not_false, if_true] at hrun
      obtain ⟨rfl, rfl⟩ := Prod.mk.inj (Option.some.inj hrun)
      exact ⟨by decide, hpendingt, new, hont⟩
    | true =>
      obtain ⟨ht, htpadded, -, -, hsamples⟩ := h.absorb hpadded hslice (Or.inl trivial) habsorb
      have hlength : s.frontend.realSamples.length + (slice :: rest).flatten.length =
          t.frontend.realSamples.length + rest.flatten.length := by
        rw [hsamples, List.flatten_cons, List.length_append, List.length_append, Nat.add_assoc]
      rw [hlength] at hlimit
      have hlimitt : b.decoder.decoderEos = true ∨
          t.frontend.enc.emitted / 4 ≤ deliveredTo b + budget := by
        refine hlimit.imp_right fun hle => le_trans (Nat.div_le_div_right ?_) hle
        rw [ht.emitted]
        exact emittedAt_mono _ (Nat.le_add_right _ _)
      have hsteps : PumpSteps eng t (pumpIncremental eng t).1 := pumpIncremental_steps ht.within
      have hframe := PumpSteps.frame hsteps
      obtain ⟨new', hon'⟩ := PumpSteps.decodedOn hsteps ht.within ht.inTime hlimitt hont
      obtain ⟨hout, hworking, -⟩ := ht.pump
      -- the stall would need a full queue
      have hstall : (pumpIncremental eng t).2 ≠ .limitExceeded := by
        intro hfull
        obtain ⟨-, -, -, -, hbound⟩ := hout.stalled hfull
        have hfree := hon'.room hroom
        rw [← hon'.maxEvents] at hfree
        unfold Events.bound at hbound
        omega
      have hpending' := pumpIncremental_pending ht.within ht.committed hpendingt hstall
      simp only [Bool.not_true, Bool.false_eq_true, if_false] at hrun
      rw [if_neg hstall] at hrun
      split_ifs at hrun with hok
      · obtain ⟨rfl, rfl⟩ := Prod.mk.inj (Option.some.inj hrun)
        exact ⟨hstall, hpending', new', hon'⟩
      · refine ih (hworking (by rw [not_not.mp hok]; decide)) ?_
          (fun x hx => hslices x (List.mem_cons_of_mem slice hx)) ?_ hpending' hon' hrun
        · rw [hframe.frontend]
          exact htpadded
        · rw [hframe.frontend]
          exact hlimit

/-- The positions a feed of `count` samples can decode. -/
def feedBudget (count : ℕ) : ℕ := (count + (rawAudioLengthPerTok - 1)) / rawAudioLengthPerTok + 1

omit [Zero α] in
/-- The estimate of a feed leaves room behind its positions. -/
lemma feedStart_hasRoom {count : ℕ} (hfits :
    s.events.queue.length + estimatedTokenEvents count + 1 ≤ s.events.maxEvents) :
    HasRoom (feedBudget count) (feedStart s count) := by
  have hbudget : feedBudget count + 18 = estimatedTokenEvents count := by
    unfold feedBudget estimatedTokenEvents
    simp only [rawAudioLengthPerTok, nRightPadTokens]
    omega
  constructor
  · change s.events.queue.length + feedBudget count + 1 < s.events.maxEvents
    omega
  · intro hmode
    have hmode' : aggressiveMode s.events count = false := hmode
    unfold aggressiveMode at hmode'
    rw [decide_eq_false_iff_not, not_and] at hmode'
    change s.events.queue.length + 2 * feedBudget count < s.events.maxEvents
    by_contra hfull
    exact hmode' (by omega) hfits

/-- The audio path of a feed. -/
lemma feedAudio_fits {samples : List ℤ} {status : Status} (h : Working eng True s)
    (hlogical : eng.schedule.logical = 4) (hpending : s.decoder.pending = none)
    (hcaught : NothingToDecode s)
    (hfits : s.events.queue.length + estimatedTokenEvents samples.length + 1 ≤ s.events.maxEvents)
    (hfeed : feedAudio eng s samples = some (s', status)) :
    status ≠ .limitExceeded ∧ FeedFits (feedBudget samples.length) s s' ∧
      s'.events.queue.length < s.events.maxEvents := by
  rw [feedAudio_eq] at hfeed
  obtain ⟨t, hpad, hfeed⟩ := Option.bind_eq_some_iff.mp hfeed
  obtain ⟨⟨r, st⟩, hslices, hend⟩ := Option.map_eq_some_iff.mp hfeed
  set u := feedStart s samples.length with hu
  have hufront : FrontReady eng u := h.front.congr rfl rfl
  have hchange := ensureLeftPad_frontendChange hpad
  obtain ⟨hpace, htfront, htpadded⟩ := ensureLeftPad_samePace hufront hpad
  have hpace' : SamePace s t := (feedStart_samePace s samples.length).trans hpace
  have ht : Working eng True t := hpace'.working h htfront
  have hroom : HasRoom (feedBudget samples.length) u := feedStart_hasRoom hfits
  have hont : DecodedOn (feedBudget samples.length) u t [] :=
    (DecodedOn.refl (s := u) hpending).frontend hchange
  have hlimit : u.decoder.decoderEos = true ∨ emittedAt eng.schedule.logical
      (t.frontend.realSamples.length + (audioSlices (samples.map eng.sampleOf)).flatten.length) / 4 ≤
        deliveredTo u + feedBudget samples.length := by
    cases heos : s.decoder.decoderEos with
    | true => exact Or.inl heos
    | false =>
      right
      have hopen : firstPosition ≤ firstOpen s := by
        unfold firstOpen
        split_ifs with hprefill
        · exact h.within.started hprefill
        · exact le_rfl
      have hgroups : s.frontend.enc.emitted / 4 ≤ firstOpen s := hcaught heos
      have hemitted := h.emitted
      rw [hlogical] at hemitted ⊢
      rw [hemitted] at hgroups
      rw [hpace'.samples, flatten_audioSlices, List.length_map]
      refine (emittedAt_feed s.frontend.realSamples.length samples.length).trans ?_
      exact Nat.add_le_add_right ((max_le hgroups hopen).trans (Nat.le_add_right _ _)) _
  obtain ⟨hstall, hnone, new, hon⟩ := feedSlices_decodedOn _ ht htpadded
    (fun slice hslice => length_of_mem_audioSlices hslice) hroom hlimit
    (by rw [hpace'.decoder]; exact hpending) hont hslices
  have hstatus : status = st := (congrArg Prod.snd hend).symm.trans (feedEnd_status _ _ (r, st))
  have hs' : s' = (feedEnd s.events.aggressivePartialCoalescing samples.length (r, st)).1 := by
    rw [hend]
  have hsame : s'.events.queue = r.events.queue ∧ s'.decoder = r.decoder ∧ s'.trace = r.trace := by
    rw [hs']
    unfold feedEnd
    dsimp only
    split_ifs <;> exact ⟨rfl, rfl, rfl⟩
  obtain ⟨hqueue, hdecoder, htrace⟩ := hsame
  have hfree : s'.events.queue.length < s.events.maxEvents := by
    rw [hqueue]
    exact hon.room hroom
  have hsteps := hon.steps
  rw [hnone] at hsteps
  refine ⟨by rw [hstatus]; exact hstall, ⟨⟨new, ?_, ?_, ?_⟩, ?_, hfree.le⟩, hfree⟩
  · exact (Nat.le_add_right _ _).trans hon.reach
  · rw [htrace, hsteps]
    exact List.append_nil _
  · rw [hqueue]
    exact hon.tokens
  · rw [hdecoder, hnone]

/-- A feed of an open stream, with its exits in front of the audio path. -/
lemma feedCommon_fits {buf : FeedBuffer} {status : Status} (hr : OpReady eng True s)
    (hlogical : eng.schedule.logical = 4) (hpending : s.decoder.pending = none)
    (hcaught : NothingToDecode s)
    (hfits : s.events.queue.length + estimatedTokenEvents buf.count + 1 ≤ s.events.maxEvents)
    (hfeed : feedCommon eng s buf = some (s', status)) :
    ¬ (status = .limitExceeded ∧ s'.events.decoderBackpressured = true) ∧
      FeedFits (feedBudget buf.count) s s' ∧ s'.events.queue.length < s.events.maxEvents := by
  have hfree : s.events.queue.length < s.events.maxEvents := by omega
  have hsame : ∀ lifecycle : Lifecycle,
      FeedFits (feedBudget buf.count) s { s with lifecycle := lifecycle } := fun lifecycle =>
    ⟨⟨[], Nat.zero_le _, (List.append_nil _).symm, (List.append_nil _).symm⟩, hpending, hfree.le⟩
  have hclear : s.Open → s.events.decoderBackpressured = false := by
    intro hopen
    by_contra htrue
    exact ((hr.live (live_of_open hopen)).stall (by simpa using htrue)).2.1 hpending
  have hresumed : s.Open → resumed eng s = s := fun hopen => if_neg (by simp [hclear hopen])
  cases feedCommon_call hfeed with
  | closed => exact ⟨fun hlimit => absurd hlimit.1 (by decide), hsame _, hfree⟩
  | stalled hopen hbp => exact absurd ((hclear hopen).symm.trans hbp) (by decide)
  | pumpFailed hopen hbp => exact absurd ((hclear hopen).symm.trans hbp) (by decide)
  | refused hopen =>
    rw [hresumed hopen]
    refine ⟨fun hlimit => ?_, hsame _, hfree⟩
    exact absurd ((hclear hopen).symm.trans hlimit.2) (by decide)
  | admitted hadmitted haudio =>
    obtain ⟨hopen, -, hbuffer⟩ := hadmitted
    rw [hresumed hopen] at haudio
    have hcount : buf.count = buf.samples.length := by
      cases buf with
      | null => exact absurd hbuffer id
      | data => rfl
    rw [hcount] at hfits ⊢
    obtain ⟨hstall, hdone, hroom⟩ :=
      feedAudio_fits (hr.live (live_of_open hopen)).toWorking hlogical hpending hcaught hfits haudio
    exact ⟨fun hlimit => absurd hlimit.1 hstall, hdone, hroom⟩

/-- A feed through the public interface. -/
lemma streamFeedPcm16_fits {buf : FeedBuffer} {status : PublicStatus} {consumed : ℕ}
    (hr : OpReady eng True s) (hlogical : eng.schedule.logical = 4) (hpending : s.decoder.pending = none)
    (hcaught : NothingToDecode s)
    (hfits : s.events.queue.length + estimatedTokenEvents buf.count + 1 ≤ s.events.maxEvents)
    (hfeed : streamFeedPcm16 eng s buf = some (s', .feed status consumed)) :
    status ≠ .queueFull ∧ FeedFits (feedBudget buf.count) s s' := by
  obtain ⟨⟨t, st⟩, hcommon, hr'⟩ := Option.map_eq_some_iff.mp hfeed
  obtain ⟨hs', hresponse⟩ := Prod.mk.inj hr'
  obtain ⟨hstatus, -⟩ := Response.feed.inj hresponse
  obtain ⟨hstall, hdone, hfree⟩ := feedCommon_fits hr hlogical hpending hcaught hfits hcommon
  dsimp only at hs' hstatus
  rw [hs'] at hstatus
  split_ifs at hs' with hfailed
  · -- the ERROR event takes the place that is left
    set u := setError { t with events := { t.events with finalizingFlush := true } } st
      t.lifecycle.lastError with hu
    obtain ⟨es, happ, hes⟩ := pushEvent_appends u (errorEvent u st)
    have hqueue : s'.events.queue = t.events.queue ++ es := by
      rw [← hs']
      exact happ.queue
    have herror : es.filter StreamEvent.isToken = [] :=
      List.filter_eq_nil_iff.mpr fun e he => by
        rw [List.mem_singleton.mp (hes.subset he)]
        exact Bool.false_ne_true
    obtain ⟨new, hle, hsteps, htokens⟩ := hdone.decoded
    refine ⟨?_, ⟨new, hle, ?_, ?_⟩, ?_, ?_⟩
    · rw [← hstatus]
      unfold mapFeedStatus
      rcases hfailed with hst | hst | hst <;> rw [hst] <;> exact nofun
    · rw [← hs', ← hsteps]
      exact happ.stepTokens
    · rw [hqueue, List.filter_append, herror, List.append_nil, htokens]
    · rw [← hs']
      exact (congrArg Decoder.pending happ.decoder).trans hdone.pending
    · have hlength := hes.length_le
      rw [List.length_singleton] at hlength
      rw [hqueue, List.length_append]
      omega
  · subst hs'
    refine ⟨?_, hdone⟩
    rw [← hstatus]
    unfold mapFeedStatus
    cases st with
    | limitExceeded =>
      have hclear : ¬ t.events.decoderBackpressured = true := fun hbp => hstall ⟨rfl, hbp⟩
      simp [hclear]
    | _ => exact nofun

omit [Zero α] in
/-- The budget of a feed is covered by the tokens estimated for it. -/
lemma feedBudget_le (count : ℕ) : feedBudget count ≤ estimatedTokenEvents count := by
  unfold feedBudget estimatedTokenEvents
  simp only [rawAudioLengthPerTok, nRightPadTokens]
  omega

end Feeds

/-- The stream with other events in its queue. -/
def Stream.withQueue (s : Stream α φ ε γ κ) (queue : List StreamEvent) : Stream α φ ε γ κ :=
  { s with events := { s.events with queue := queue } }

/-- A stream stays ready with any queue within its capacity. -/
lemma OpReady.withQueue [Zero α] {eng : Engine α φ ε γ κ} {s : Stream α φ ε γ κ} (h : OpReady eng True s)
    {queue : List StreamEvent} (hqueue : queue.length ≤ s.events.maxEvents) :
    OpReady eng True (s.withQueue queue) where
  within := ⟨h.within.floor, h.within.started, h.within.fresh, h.within.stash⟩
  fresh := h.fresh
  settled := h.settled
  live := by
    intro hlive
    have hs := h.live hlive
    refine ⟨⟨⟨hs.within.floor, hs.within.started, hs.within.fresh, hs.within.stash⟩,
      hs.front.congr rfl rfl, hs.emitted, hs.recorded, hs.params, hs.committed, hqueue, hs.flush, hs.stall,
      hs.stash, Or.inl trivial⟩, hs.total, hs.aggressive, fun _ => Or.inl trivial⟩
  completed := fun hcompleted hsamples => (h.completed hcompleted hsamples).congr rfl rfl rfl rfl rfl rfl

/-- **Large feeds fit a queue that holds their tokens.**  In batches of four frames, take a stream in any
state that calls and resets lead to, with any events in its queue, nothing stashed and no complete group
waiting for the decoder.  A feed whose estimate of one event a position leaves a place in the queue decodes
no more positions than the estimate, is not refused or cut short by a full queue, appends the TOKEN event of
every position it decodes, and leaves the queue within its capacity. -/
theorem large_feed_fits_queue [Zero α] (eng : Engine α φ ε γ κ) (hlogical : eng.schedule.logical = 4)
    (clearKv : κ → κ) (maxEvents : ℕ) (device : Device ε γ κ) (calls : List Call)
    (s₀ : Stream α φ ε γ κ) (os : List CallResponse)
    (hrun : runSteps (callStep eng clearKv) (Stream.create maxEvents device) calls = some (s₀, os))
    (hpending : s₀.decoder.pending = none) (hcaught : NothingToDecode s₀) (queue : List StreamEvent)
    (buf : FeedBuffer)
    (hfits : queue.length + estimatedTokenEvents buf.count + 1 ≤ s₀.events.maxEvents)
    (s' : Stream α φ ε γ κ) (status : PublicStatus) (consumed : ℕ)
    (hfeed : streamFeedPcm16 eng (s₀.withQueue queue) buf = some (s', .feed status consumed)) :
    status ≠ .queueFull ∧ FeedFits (estimatedTokenEvents buf.count) (s₀.withQueue queue) s' := by
  obtain ⟨device', hsince⟩ := exists_sinceReset hrun
  have hr := (runSteps_moves (opReady_create eng True maxEvents device') (Or.inl trivial) hsince).2
  have hqueue : queue.length ≤ s₀.events.maxEvents := by omega
  obtain ⟨hstatus, hdone⟩ :=
    streamFeedPcm16_fits (hr.withQueue hqueue) hlogical hpending hcaught hfits hfeed
  obtain ⟨new, hle, hsteps, htokens⟩ := hdone.decoded
  exact ⟨hstatus, ⟨new, hle.trans (feedBudget_le _), hsteps, htokens⟩, hdone.pending, hdone.queue⟩

/-- A second of audio into a queue with one snapshot and 33 free places. -/
theorem large_feed_fits_queue_second : ∃ s' status consumed,
    streamFeedPcm16 (plainEngine defaultSchedule)
        ((Stream.create 34 plainDevice).withQueue [partialEvent {} 0])
        (.data (List.replicate 16000 0)) = some (s', .feed status consumed) ∧
      status ≠ .queueFull ∧
      FeedFits 32 ((Stream.create 34 plainDevice).withQueue [partialEvent {} 0]) s' := by
  have hcreated : OpReady (plainEngine defaultSchedule) True (Stream.create 34 plainDevice) :=
    opReady_create _ True 34 plainDevice
  have hqueue : [partialEvent {} 0].length ≤ 34 := by decide
  have hready := hcreated.withQueue hqueue
  have hlength : (List.replicate 16000 (0 : ℤ)).length = 16000 := List.length_replicate
  generalize List.replicate 16000 (0 : ℤ) = zeros at hlength ⊢
  have hsome : (streamStep (plainEngine defaultSchedule) _ (.feed (.data zeros))).isSome = true :=
    streamStep_isSome hready fun _ => by
      change 0 + zeros.length + 64000 < 2 ^ 31
      rw [hlength]
      decide
  obtain ⟨⟨s', r⟩, hstep⟩ := Option.isSome_iff_exists.mp hsome
  obtain ⟨t, -, ht⟩ := Option.map_eq_some_iff.mp hstep
  obtain ⟨-, rfl⟩ := Prod.mk.inj ht
  have hestimate : estimatedTokenEvents (FeedBuffer.data zeros).count = 32 := by
    change estimatedTokenEvents zeros.length = 32
    rw [hlength]
    decide
  have hfits := large_feed_fits_queue (plainEngine defaultSchedule) rfl id 34 plainDevice [] _ [] rfl rfl
    (fun _ => Nat.zero_le _) [partialEvent {} 0] (.data zeros)
    (by rw [hestimate]; decide) s' _ _ hstep
  rw [hestimate] at hfits
  exact ⟨s', _, _, hstep, hfits⟩

end Voxtral
