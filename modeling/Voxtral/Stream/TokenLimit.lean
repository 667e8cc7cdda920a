import Mathlib.Data.List.TakeWhile
import Voxtral.Stream.CallRule
import Voxtral.Stream.ResetLaw
import Voxtral.Stream.FeedPlan

/-!
# The token limit of a stream

With `max_tokens = k > 0` the decoder of a stream stops after `k` tokens, at the end of the stream or at the
last committed position, whichever is first.  The tokens of a completed stream are therefore the longest
prefix without the end among the first outputs, as many of them as the limit and the positions allow.
-/

namespace Voxtral

variable {α φ ε γ κ : Type*}

/-! ## Prefixes of the outputs -/

/-- The longest prefix without the end among the first `n` outputs. -/
def cappedTokens (out : ℕ → ℤ) (n : ℕ) : List ℤ := ((List.range n).map out).takeWhile fun t => t ≠ tokenEos

/-- The outputs `out` start with the list `returned`. -/
def StartsWith (out : ℕ → ℤ) (returned : List ℤ) : Prop := (List.range returned.length).map out = returned

section Prefixes

variable {out : ℕ → ℤ} {returned : List ℤ} {n : ℕ}

/-- A limit of `n` gives `n` tokens at most. -/
lemma cappedTokens_length_le (out : ℕ → ℤ) (n : ℕ) : (cappedTokens out n).length ≤ n := by
  have hle := (List.takeWhile_sublist (l := (List.range n).map out) fun t => decide (t ≠ tokenEos)).length_le
  rwa [List.length_map, List.length_range] at hle

/-- Every list of tokens is the start of some outputs. -/
lemma exists_startsWith (returned : List ℤ) : ∃ out, StartsWith out returned := by
  refine ⟨fun i => returned.getD i 0, ?_⟩
  apply List.ext_getElem
  · simp
  · intro i hi _
    rw [List.length_map, List.length_range] at hi
    simp [hi]

/-- Outputs without the end are all taken. -/
lemma cappedTokens_of_live (h : StartsWith out returned) (hlive : ∀ t ∈ returned, t ≠ tokenEos) :
    cappedTokens out returned.length = returned := by
  unfold cappedTokens
  rw [h]
  exact List.takeWhile_eq_self_iff.mpr fun t ht => decide_eq_true (hlive t ht)

/-- Nothing behind the end is taken. -/
lemma cappedTokens_of_ended (h : StartsWith out (returned ++ [tokenEos]))
    (hlive : ∀ t ∈ returned, t ≠ tokenEos) (hn : returned.length < n) : cappedTokens out n = returned := by
  obtain ⟨m, rfl⟩ := Nat.exists_eq_add_of_le (Nat.succ_le_of_lt hn)
  unfold StartsWith at h
  rw [List.length_append, List.length_singleton] at h
  unfold cappedTokens
  rw [List.range_add, List.map_append, h, List.append_assoc,
    List.takeWhile_append_of_pos fun t ht => decide_eq_true (hlive t ht)]
  simp

end Prefixes

/-! ## The ledger of the decoder -/

/-- The decoder of a stream with the token limit `k` returned `delivered`, and then the stashed token: it
stays within the limit and the committed positions, and makes no step behind the end. -/
structure Ledger (k : ℕ) (s : Stream α φ ε γ κ) (delivered : List ℤ) : Prop where
  within : DecoderWithin s
  limit : s.params.maxTokens = k
  steps : stepTokens s.trace = delivered ++ (s.decoder.pending.map PendingToken.token).toList
  kept : s.decoder.tokens = delivered.filter fun t => t ≠ tokenEos
  emitted : s.decoder.decoderTokensEmitted = s.decoder.tokens.length
  bound : s.decoder.tokens.length ≤ k
  room : s.decoder.pending ≠ none → s.decoder.tokens.length < k
  fresh : s.decoder.decoderPrefillDone = false → delivered = []
  reads : s.decoder.decoderPrefillDone = true →
    firstPosition + (stepTokens s.trace).length ≤ s.decoder.adapterGroupsCommitted
  cursor : s.decoder.decoderPrefillDone = true → s.decoder.decoderEos = false →
    s.decoder.decoderPosition = firstPosition + delivered.length
  ended : (s.decoder.decoderEos = false ∧ ∀ t ∈ delivered, t ≠ tokenEos) ∨
    (s.decoder.decoderEos = true ∧ s.decoder.tokens.length < k ∧
      ∃ before, delivered = before ++ [tokenEos] ∧ ∀ t ∈ before, t ≠ tokenEos)

section Steps

variable {eng : Engine α φ ε γ κ} {s s' : Stream α φ ε γ κ} {k : ℕ} {delivered : List ℤ}

/-- Changes that the decoder does not see. -/
lemma Ledger.congr (h : Ledger k s delivered) (hdecoder : s'.decoder = { s.decoder with
      tokensBeforeFinish := s'.decoder.tokensBeforeFinish
      transcript := s'.decoder.transcript })
    (hparams : s'.params = s.params) (htrace : stepTokens s'.trace = stepTokens s.trace) :
    Ledger k s' delivered where
  within := h.within.of_decoder hdecoder rfl rfl rfl rfl rfl
  limit := by rw [hparams, h.limit]
  steps := by rw [htrace, hdecoder, h.steps]
  kept := by rw [hdecoder]; exact h.kept
  emitted := by rw [hdecoder]; exact h.emitted
  bound := by rw [hdecoder]; exact h.bound
  room := by rw [hdecoder]; exact h.room
  fresh := by rw [hdecoder]; exact h.fresh
  reads := by rw [hdecoder, htrace]; exact h.reads
  cursor := by rw [hdecoder]; exact h.cursor
  ended := by rw [hdecoder]; exact h.ended

/-- A decoder that is not at the end delivered no end. -/
lemma Ledger.alive (h : Ledger k s delivered) (hlive : s.decoder.decoderEos = false) :
    ∀ t ∈ delivered, t ≠ tokenEos := by
  rcases h.ended with ⟨-, hall⟩ | ⟨heos, -⟩
  · exact hall
  · exact absurd (hlive.symm.trans heos) (by decide)

/-- Before the end all delivered tokens are kept. -/
lemma Ledger.tokens_eq (h : Ledger k s delivered) (hlive : s.decoder.decoderEos = false) :
    s.decoder.tokens = delivered := by
  rw [h.kept]
  exact List.filter_eq_self.mpr fun t ht => decide_eq_true (h.alive hlive t ht)

/-- The prefill starts in front of the first position. -/
lemma Ledger.prefill (h : Ledger k s delivered) (hfresh : s.decoder.decoderPrefillDone = false)
    (hready : promptLength - 1 ≤ s.decoder.adapterGroupsCommitted) :
    Ledger k (prefillDecoder eng s) delivered := by
  have hnone := (h.within.fresh hfresh).1
  have hdelivered := h.fresh hfresh
  have htrace : stepTokens (prefillDecoder eng s).trace = stepTokens s.trace := by
    unfold prefillDecoder
    rw [stepTokens_append]
    exact List.append_nil _
  refine ⟨(PumpStep.prefill s hfresh hready).within h.within, h.limit, ?_, h.kept, h.emitted, h.bound,
    h.room, fun _ => hdelivered, fun _ => ?_, fun _ _ => ?_, h.ended⟩
  · rw [htrace, h.steps]
    rfl
  · rw [htrace, h.steps, hnone, hdelivered]
    exact hready
  · rw [hdelivered]
    rfl

/-- A step stays within the limit and the committed positions. -/
lemma Ledger.decoderStep (h : Ledger k s delivered) (hk : 0 < k)
    (hprefill : s.decoder.decoderPrefillDone = true) (hpending : s.decoder.pending = none)
    (hmay : decoderMayStep s) : Ledger k (stepDecoder eng s) delivered := by
  obtain ⟨hposition, hlive, hlimit⟩ := hmay
  have hsteps := h.steps
  rw [hpending] at hsteps
  have htrace : stepTokens (stepDecoder eng s).trace = delivered ++ [(stepResult eng s).1] := by
    unfold stepDecoder
    rw [stepTokens_append, hsteps]
    exact congrArg (· ++ _) (List.append_nil delivered)
  have hroom : s.decoder.tokens.length < k := by
    rw [h.limit, h.emitted] at hlimit
    omega
  refine ⟨(PumpStep.decoderStep s hprefill hpending ⟨hposition, hlive, ?_⟩).within h.within, h.limit,
    htrace, h.kept, h.emitted, h.bound, fun _ => hroom, ?_, fun _ => ?_, h.cursor, h.ended⟩
  · exact hlimit
  · intro hfalse
    exact absurd (hprefill.symm.trans hfalse) (by decide)
  · have hcursor := h.cursor hprefill hlive
    change _ ≤ s.decoder.adapterGroupsCommitted
    rw [htrace, List.length_append, List.length_singleton]
    omega

/-- A delivery moves the stashed token to the delivered ones. -/
lemma Ledger.deliver (h : Ledger k s delivered) {p : PendingToken}
    (hprefill : s.decoder.decoderPrefillDone = true) (hpending : s.decoder.pending = some p)
    (hqueue : s.events.queue.length < s.events.bound) :
    Ledger k (deliverPending eng s p) (delivered ++ [p.token]) := by
  have hstep : PumpStep eng s (deliverPending eng s p) := .deliver s p hprefill hpending hqueue
  obtain ⟨-, -, hlive⟩ := h.within.stash p hpending
  have hbefore := h.alive hlive
  have htokens := h.tokens_eq hlive
  have hroom := h.room (by rw [hpending]; exact nofun)
  have hsteps := h.steps
  rw [hpending] at hsteps
  have htrace : stepTokens (deliverPending eng s p).trace = delivered ++ [p.token] := by
    rw [stepTokens_decodeEntries, (deliverPending_entries eng s p).1, List.filterMap_append,
      ← stepTokens_decodeEntries, hsteps]
    exact List.append_nil _
  have hreads := h.reads hprefill
  rw [hsteps] at hreads
  have hdec := deliverPending_decoder eng s p
  have hparams := (PumpStep.frame hstep).params
  by_cases heos : p.token = tokenEos
  · have hafter : (deliverPending eng s p).decoder = { s.decoder with
        tokenSequence := s.decoder.tokenSequence + 1, pending := none, decoderEos := true } := by
      rw [hdec, decoderAfter, if_pos heos]
    refine ⟨hstep.within h.within, by rw [hparams, h.limit], ?_, ?_, ?_, ?_, ?_, ?_, ?_, ?_, ?_⟩
    all_goals rw [hafter]
    · rw [htrace]
      exact (List.append_nil _).symm
    · rw [List.filter_append, ← h.kept, heos]
      exact (List.append_nil _).symm
    · exact h.emitted
    · exact h.bound
    · exact fun hsome => absurd rfl hsome
    · exact fun hfalse => absurd (hprefill.symm.trans hfalse) (by decide)
    · rw [htrace]
      exact fun _ => hreads
    · exact fun _ hfalse => Bool.noConfusion hfalse
    · exact Or.inr ⟨rfl, hroom, delivered, by rw [heos], hbefore⟩
  · have hafter := hdec
    rw [decoderAfter, if_neg heos] at hafter
    have hall : ∀ t ∈ delivered ++ [p.token], t ≠ tokenEos := by
      intro t ht
      rcases List.mem_append.mp ht with ht | ht
      · exact hbefore t ht
      · rw [List.mem_singleton.mp ht]
        exact heos
    refine ⟨hstep.within h.within, by rw [hparams, h.limit], ?_, ?_, ?_, ?_, ?_, ?_, ?_, ?_, ?_⟩
    all_goals rw [hafter]
    · rw [htrace]
      exact (List.append_nil _).symm
    · rw [List.filter_eq_self.mpr fun t ht => decide_eq_true (hall t ht)]
      exact congrArg (· ++ [p.token]) htokens
    · change s.decoder.decoderTokensEmitted + 1 = (s.decoder.tokens ++ [p.token]).length
      rw [h.emitted, List.length_append, List.length_singleton]
    · change (s.decoder.tokens ++ [p.token]).length ≤ k
      rw [List.length_append, List.length_singleton]
      exact hroom
    · exact fun hsome => absurd rfl hsome
    · exact fun hfalse => absurd (hprefill.symm.trans hfalse) (by decide)
    · rw [htrace]
      exact fun _ => hreads
    · intro _ _
      change s.decoder.decoderPosition + 1 = _
      rw [h.cursor hprefill hlive, List.length_append, List.length_singleton, Nat.add_assoc]
    · exact Or.inl ⟨hlive, hall⟩

/-- Every atomic change of a pump keeps the ledger. -/
lemma PumpStep.ledger (hstep : PumpStep eng s s') (hk : 0 < k) (h : Ledger k s delivered) :
    ∃ delivered', Ledger k s' delivered' := by
  cases hstep with
  | bookkeep => exact ⟨delivered, h.congr rfl rfl rfl⟩
  | commitGroup group =>
    refine ⟨delivered, h.congr rfl rfl ?_⟩
    rw [Voxtral.commitGroup, stepTokens_append]
    exact List.append_nil _
  | advanceAdapter committed hgrow hcap havail hrows =>
    refine ⟨delivered, ⟨(PumpStep.advanceAdapter s committed hgrow hcap havail hrows).within h.within,
      h.limit, h.steps, h.kept, h.emitted, h.bound, h.room, h.fresh, ?_, h.cursor, h.ended⟩⟩
    exact fun hprefill => (h.reads hprefill).trans hgrow.le
  | prefill hfresh hready => exact ⟨delivered, h.prefill hfresh hready⟩
  | decoderStep hprefill hpending hmay => exact ⟨delivered, h.decoderStep hk hprefill hpending hmay⟩
  | deliver p hprefill hpending hqueue => exact ⟨_, h.deliver hprefill hpending hqueue⟩

/-- A pump keeps the ledger of a stream. -/
lemma PumpSteps.ledger (hsteps : PumpSteps eng s s') (hk : 0 < k) (h : Ledger k s delivered) :
    ∃ delivered', Ledger k s' delivered' := by
  induction hsteps with
  | refl => exact ⟨delivered, h⟩
  | tail _ hstep ih =>
    obtain ⟨delivered', h'⟩ := ih
    exact hstep.ledger hk h'

/-- A pump that succeeds leaves nothing stashed, and the decoder either may make no step or has no
position. -/
lemma pumpIncremental_done (hw : DecoderWithin s) (hok : (pumpIncremental eng s).2 = .ok) :
    (pumpIncremental eng s).1.decoder.pending = none ∧
      ((pumpIncremental eng s).1.decoder.decoderPrefillDone = true →
        ¬ decoderMayStep (pumpIncremental eng s).1) ∧
      ((pumpIncremental eng s).1.decoder.decoderPrefillDone = false →
        (pumpIncremental eng s).1.decoder.adapterGroupsCommitted ≤ firstPosition) := by
  have hadapter := PumpSteps.within (pumpAdapter_steps eng s hw.floor) hw
  unfold pumpIncremental at hok ⊢
  generalize pumpAdapter eng s = a at hadapter hok ⊢
  by_cases ha : a.2 = .ok
  · simp only [ha, ne_eq, not_true_eq_false, if_false] at hok ⊢
    have hprefill := PumpSteps.within (pumpPrefill_steps eng a.1) hadapter
    have hready : (pumpPrefill eng a.1).2 = .ok →
        (pumpPrefill eng a.1).1.decoder.decoderPrefillDone = false →
          (pumpPrefill eng a.1).1.decoder.adapterGroupsCommitted ≤ firstPosition := by
      rcases pumpPrefill_outcome eng a.1 with ⟨hp, hnot⟩ | ⟨hp, -⟩ | ⟨hfail, -⟩
      · rw [hp]
        intro _ hfresh
        rw [not_and, not_le] at hnot
        exact (hnot hfresh).le
      · rw [hp]
        exact fun _ hfalse => Bool.noConfusion hfalse
      · rw [hfail]
        exact nofun
    generalize pumpPrefill eng a.1 = b at hprefill hready hok ⊢
    by_cases hb : b.2 = .ok
    · simp only [hb, not_true_eq_false, if_false] at hok ⊢
      cases hdone : b.1.decoder.decoderPrefillDone with
      | true =>
        have hstage := pumpDecoder_outcome eng hdone hprefill
        obtain ⟨hnone, hmay, -⟩ := hstage.done hok
        refine ⟨hnone, fun _ => hmay, fun hfalse => ?_⟩
        exact absurd (hstage.prefillDone.symm.trans hfalse) (by decide)
      | false =>
        have hskip : pumpDecoder eng b.1 = (b.1, .ok) := if_pos hdone
        rw [hskip]
        refine ⟨(hprefill.fresh hdone).1, fun htrue => ?_, fun _ => hready hb hdone⟩
        exact absurd (hdone.symm.trans htrue) (by decide)
    · simp only [hb, not_false_eq_true, if_true] at hok
  · simp only [ne_eq, ha, not_false_eq_true, if_true] at hok

/-- The positions with audio for the decoder: those committed behind the prompt, and none without
samples. -/
def availablePositions (s : Stream α φ ε γ κ) : ℕ :=
  if s.lifecycle.totalSamplesReceived = 0 then 0 else s.decoder.adapterGroupsCommitted - firstPosition

/-- With the decoder at a standstill, the tokens are what the limit and the positions leave of the outputs. -/
lemma Ledger.tokens_of_done (h : Ledger k s delivered) (hpending : s.decoder.pending = none)
    (hmay : s.decoder.decoderPrefillDone = true → ¬ decoderMayStep s)
    (hfew : s.decoder.decoderPrefillDone = false → s.decoder.adapterGroupsCommitted ≤ firstPosition)
    {out : ℕ → ℤ} (hout : StartsWith out (stepTokens s.trace)) :
    s.decoder.tokens = cappedTokens out (min k (s.decoder.adapterGroupsCommitted - firstPosition)) := by
  have hsteps : stepTokens s.trace = delivered := by
    rw [h.steps, hpending]
    exact List.append_nil _
  have hreads := h.reads
  rw [hsteps] at hout hreads
  cases hprefill : s.decoder.decoderPrefillDone with
  | false =>
    have hnone := h.fresh hprefill
    have hcount : s.decoder.adapterGroupsCommitted - firstPosition = 0 := by
      have := hfew hprefill
      omega
    rw [h.kept, hnone, hcount, Nat.min_zero]
    rfl
  | true =>
    have hle := hreads hprefill
    rcases h.ended with ⟨hlive, hall⟩ | ⟨heos, hlt, before, hdelivered, hall⟩
    · have htokens := h.tokens_eq hlive
      have hbound := h.bound
      have hcursor := h.cursor hprefill hlive
      have hstop := hmay hprefill
      unfold decoderMayStep at hstop
      rw [h.limit, h.emitted, hcursor, htokens] at hstop
      rw [htokens] at hbound ⊢
      have hcount : min k (s.decoder.adapterGroupsCommitted - firstPosition) = delivered.length := by
        by_contra hne
        exact hstop ⟨by omega, hlive, Or.inr (by omega)⟩
      rw [hcount]
      exact (cappedTokens_of_live hout hall).symm
    · have htokens : s.decoder.tokens = before := by
        rw [h.kept, hdelivered, List.filter_append,
          List.filter_eq_self.mpr fun t ht => decide_eq_true (hall t ht)]
        exact List.append_nil _
      rw [htokens] at hlt ⊢
      rw [hdelivered, List.length_append, List.length_singleton] at hle
      rw [hdelivered] at hout
      exact (cappedTokens_of_ended hout hall (by omega)).symm

end Steps

/-! ## Runs -/

section Runs

variable {eng : Engine α φ ε γ κ} {k : ℕ}

/-- A stream that is not completed, with a ledger. -/
def LiveLedger (k : ℕ) (s : Stream α φ ε γ κ) : Prop :=
  s.lifecycle.state ≠ .completed ∧ ∃ delivered, Ledger k s delivered

/-- A completed stream: its tokens are what the limit and the positions leave of the outputs. -/
def EndLedger (k : ℕ) (s : Stream α φ ε γ κ) : Prop :=
  s.lifecycle.state = .completed ∧ s.params.maxTokens = k ∧ DecoderWithin s ∧
    ∀ out, StartsWith out (stepTokens s.trace) →
      s.decoder.tokens = cappedTokens out (min k (availablePositions s))

/-- Events are no steps. -/
lemma Appends.stepTokens {s s' : Stream α φ ε γ κ} {es : List StreamEvent} (h : Appends s s' es) :
    stepTokens s'.trace = stepTokens s.trace := by
  have hnone : Voxtral.stepTokens (es.map fun e => (.enqueued e (acceptedSamples s) : TraceEntry ε γ)) = [] := by
    rw [Voxtral.stepTokens, List.filterMap_map, List.filterMap_eq_nil_iff]
    exact fun _ _ => rfl
  rw [h.trace, stepTokens_append, hnone, List.append_nil]

/-- The frontend makes no decoder step. -/
lemma FrontendChange.stepTokens {s s' : Stream α φ ε γ κ} (h : FrontendChange s s') :
    stepTokens s'.trace = stepTokens s.trace := by
  obtain ⟨runs, htrace, hruns⟩ := h.trace
  have hnone : Voxtral.stepTokens runs = [] := by
    rw [Voxtral.stepTokens, List.filterMap_eq_nil_iff]
    intro e he
    have hrun := hruns e he
    cases e <;> first | rfl | exact absurd hrun id
  rw [htrace, stepTokens_append, hnone, List.append_nil]

/-- Every call keeps the ledger, and completes it when it completes the stream. -/
lemma callInvariant_ledger (eng : Engine α φ ε γ κ) (hk : 0 < k) :
    CallInvariant eng (LiveLedger k) (EndLedger k) where
  within := fun ⟨_, _, h⟩ => h.within
  live := fun h => h.1
  ended := fun h => h.1
  pumpStep := by
    rintro s s' hstep ⟨hlive, delivered, h⟩
    refine ⟨?_, hstep.ledger hk h⟩
    rw [(PumpStep.frame hstep).state]
    exact hlive
  frontend := by
    rintro s s' hchange ⟨hlive, delivered, h⟩
    refine ⟨?_, delivered, h.congr (by rw [hchange.decoder]) hchange.params hchange.stepTokens⟩
    rw [hchange.state]
    exact hlive
  same := by
    rintro s s' hsame ⟨hlive, delivered, h⟩
    exact ⟨fun hended => hlive (hsame.completed.mp hended), delivered,
      h.congr hsame.decoder hsame.params (by rw [hsame.trace])⟩
  sameEnded := by
    rintro s s' hsame ⟨hended, hlimit, hw, h⟩
    refine ⟨hsame.completed.mpr hended, by rw [hsame.params, hlimit],
      hw.of_decoder hsame.decoder rfl rfl rfl rfl rfl, ?_⟩
    unfold availablePositions
    rw [hsame.trace, hsame.decoder, hsame.received hended]
    exact h
  appends := by
    rintro s s' es happ hlive ⟨-, delivered, h⟩
    exact ⟨hlive, delivered, h.congr (by rw [happ.decoder]) happ.params happ.stepTokens⟩
  empty := by
    rintro s hzero ⟨-, delivered, h⟩
    obtain ⟨es, happ, -⟩ := completeStream_appends (emptyEnd s)
    have hnone : availablePositions (completeStream (emptyEnd s)) = 0 := by
      unfold availablePositions
      rw [happ.totalReceived]
      exact if_pos hzero
    refine ⟨rfl, by rw [happ.params]; exact h.limit, ?_, ?_⟩
    · exact h.within.of_decoder happ.decoder rfl rfl rfl rfl rfl
    · intro out _
      rw [hnone, Nat.min_zero, happ.decoder]
      rfl
  complete := by
    rintro s hreceived ⟨hlive, delivered, h⟩ hok
    obtain ⟨hpending, hmay, hfew⟩ := pumpIncremental_done h.within hok
    have hsteps : PumpSteps eng s (pumpIncremental eng s).1 := pumpIncremental_steps h.within
    obtain ⟨delivered', h'⟩ := PumpSteps.ledger hsteps hk h
    obtain ⟨es, happ, -⟩ := completeStream_appends (tailEnd (pumpIncremental eng s).1)
    have hpositions : availablePositions (completeStream (tailEnd (pumpIncremental eng s).1)) =
        (pumpIncremental eng s).1.decoder.adapterGroupsCommitted - firstPosition := by
      unfold availablePositions
      rw [happ.totalReceived, happ.decoder]
      exact if_neg (by rw [← (PumpSteps.frame hsteps).totalReceived] at hreceived; exact hreceived)
    refine ⟨rfl, by rw [happ.params]; exact h'.limit, ?_, ?_⟩
    · exact h'.within.of_decoder happ.decoder rfl rfl rfl rfl rfl
    · intro out hout
      rw [happ.stepTokens] at hout
      rw [hpositions, happ.decoder]
      exact h'.tokens_of_done hpending hmay hfew hout

/-- A new decoder has an empty ledger. -/
lemma ledger_new {s : Stream α φ ε γ κ} (hlimit : s.params.maxTokens = k) (hdecoder : s.decoder = {})
    (htrace : s.trace = []) : Ledger k s [] where
  within := by
    refine ⟨?_, ?_, ?_, ?_⟩
    · unfold consumedFloor
      rw [hdecoder]
      exact le_refl 0
    · rw [hdecoder]
      exact nofun
    · rw [hdecoder]
      exact fun _ => ⟨rfl, rfl⟩
    · rw [hdecoder]
      exact nofun
  limit := hlimit
  steps := by rw [htrace, hdecoder]; rfl
  kept := by rw [hdecoder]; rfl
  emitted := by rw [hdecoder]; rfl
  bound := by rw [hdecoder]; exact Nat.zero_le k
  room := by rw [hdecoder]; exact fun hsome => absurd rfl hsome
  fresh := fun _ => rfl
  reads := by rw [hdecoder]; exact nofun
  cursor := by rw [hdecoder]; exact nofun
  ended := by rw [hdecoder]; exact Or.inl ⟨rfl, nofun⟩

end Runs

section Histories

variable [Zero α] {χ : Type*} {eng : Engine α φ ε γ (DecoderKv χ)} {params : StreamParams}
  {maxEvents capacity k : ℕ} {silence : φ} {w w' : WarmStream α φ ε γ (DecoderKv χ)}

omit [Zero α] in
/-- A warmup keeps the ledger. -/
lemma LiveLedger.warmup (h : LiveLedger k w.stream) (allocated : Bool) :
    LiveLedger k (warmupInternal eng capacity silence allocated w).1.stream := by
  obtain ⟨hlive, delivered, hledger⟩ := h
  unfold warmupInternal
  dsimp only
  split_ifs
  · exact ⟨hlive, delivered, hledger⟩
  all_goals exact ⟨hlive, delivered, hledger.congr rfl rfl rfl⟩

omit [Zero α] in
/-- The warmup of a completed stream is refused. -/
lemma EndLedger.warmup (h : EndLedger k w.stream) (allocated : Bool) :
    EndLedger k (warmupInternal eng capacity silence allocated w).1.stream := by
  obtain ⟨hended, hlimit, hw, htokens⟩ := h
  have hrefused : w.stream.lifecycle.state ≠ .created ∨ w.stream.lifecycle.totalSamplesReceived ≠ 0 := by
    left
    rw [hended]
    decide
  unfold warmupInternal
  dsimp only
  rw [if_pos hrefused]
  split_ifs
  · exact ⟨hended, hlimit, hw, htokens⟩
  · exact ⟨hended, hlimit, hw.of_decoder rfl rfl rfl rfl rfl rfl, htokens⟩

/-- Calls, warmups and resets keep the ledger. -/
lemma ledger_historyStep (hk : 0 < k) (h : LiveLedger k w.stream ∨ EndLedger k w.stream)
    {call : HistoryCall} {o : HistoryResponse}
    (hstep : historyStep eng capacity silence w call = some (w', o)) :
    LiveLedger k w'.stream ∨ EndLedger k w'.stream := by
  cases call with
  | op op =>
    obtain ⟨⟨t, r⟩, hop, ht⟩ := Option.map_eq_some_iff.mp hstep
    obtain ⟨rfl, rfl⟩ := Prod.mk.inj ht
    exact (callInvariant_ledger eng hk).step h hop
  | warmup allocated =>
    obtain ⟨rfl, rfl⟩ := Prod.mk.inj (Option.some.inj hstep)
    exact h.imp (fun hlive => hlive.warmup allocated) fun hended => hended.warmup allocated
  | reset =>
    obtain ⟨rfl, rfl⟩ := Prod.mk.inj (Option.some.inj hstep)
    have hlimit : w.stream.params.maxTokens = k := by
      rcases h with ⟨-, delivered, hledger⟩ | ⟨-, hlimit, -⟩
      · exact hledger.limit
      · exact hlimit
    dsimp only
    rw [resetInternal_eq]
    exact Or.inl ⟨nofun, [], ledger_new hlimit rfl rfl⟩

/-- After every history of calls, warmups and resets a stream with the token limit `k` has at most `k`
tokens, and once it is completed they are the longest prefix without the end among the outputs of its
decoder, as many of them as the limit and the positions with audio allow. -/
theorem stream_tokens_capped (hk : 0 < k) (hlimit : params.maxTokens = k)
    {device : Device ε γ (DecoderKv χ)} {history : List HistoryCall} {os : List HistoryResponse}
    (hrun : runSteps (historyStep eng capacity silence)
      ⟨Stream.createWith params maxEvents capacity device, false⟩ history = some (w, os)) :
    w.stream.decoder.tokens.length ≤ k ∧
      (w.stream.lifecycle.state = .completed → ∀ out, StartsWith out (stepTokens w.stream.trace) →
        w.stream.decoder.tokens = cappedTokens out (min k (availablePositions w.stream))) := by
  have h : LiveLedger k w.stream ∨ EndLedger k w.stream := by
    refine runSteps_induction (P := fun w _ _ => LiveLedger k w.stream ∨ EndLedger k w.stream)
      (fun _ _ _ _ _ _ hw hstep => ledger_historyStep hk hw hstep) ?_ hrun
    exact Or.inl ⟨nofun, [], ledger_new hlimit rfl rfl⟩
  rcases h with ⟨hlive, delivered, hledger⟩ | ⟨-, -, -, htokens⟩
  · exact ⟨hledger.bound, fun hended => absurd hended hlive⟩
  · refine ⟨?_, fun _ => htokens⟩
    obtain ⟨out, hout⟩ := exists_startsWith (stepTokens w.stream.trace)
    rw [htokens out hout]
    exact (cappedTokens_length_le _ _).trans (Nat.min_le_left _ _)

end Histories

end Voxtral
