import Voxtral.Stream.AlikeCalls
import Voxtral.Stream.CallCases

/-!
# Invariants of calls

What a call does is a sequence of pump steps, frontend changes, bookkeeping and events, in any state of
the parameters.  A predicate that each of these keeps is kept by every call (`CallInvariant.step`) until a
finish completes the stream, where a second predicate takes over.
-/

namespace Voxtral

variable {α φ ε γ κ : Type*}

/-- The records changed, and decoding did not: the cursors and tokens of the decoder, the parameters, the
event capacity, the history and whether the stream is completed are as before, and so is the number of
samples of a completed stream. -/
structure SameDecoding (s s' : Stream α φ ε γ κ) : Prop where
  decoder : s'.decoder = { s.decoder with
    tokensBeforeFinish := s'.decoder.tokensBeforeFinish
    transcript := s'.decoder.transcript }
  params : s'.params = s.params
  maxEvents : s'.events.maxEvents = s.events.maxEvents
  decKv : s'.device.decKv = s.device.decKv
  trace : s'.trace = s.trace
  completed : s'.lifecycle.state = .completed ↔ s.lifecycle.state = .completed
  received : s.lifecycle.state = .completed →
    s'.lifecycle.totalSamplesReceived = s.lifecycle.totalSamplesReceived

/-- `I` holds of a stream until it is completed and `J` from then on, as far as the parts of a call keep
them. -/
structure CallInvariant (eng : Engine α φ ε γ κ) (I J : Stream α φ ε γ κ → Prop) : Prop where
  within : ∀ {s}, I s → DecoderWithin s
  live : ∀ {s}, I s → s.lifecycle.state ≠ .completed
  ended : ∀ {s}, J s → s.lifecycle.state = .completed
  pumpStep : ∀ {s s'}, PumpStep eng s s' → I s → I s'
  frontend : ∀ {s s'}, FrontendChange s s' → I s → I s'
  same : ∀ {s s'}, SameDecoding s s' → I s → I s'
  sameEnded : ∀ {s s'}, SameDecoding s s' → J s → J s'
  appends : ∀ {s s' es}, Appends s s' es → s'.lifecycle.state ≠ .completed → I s → I s'
  empty : ∀ {s}, s.lifecycle.totalSamplesReceived = 0 → I s → J (completeStream (emptyEnd s))
  complete : ∀ {s}, s.lifecycle.totalSamplesReceived ≠ 0 → I s → (pumpIncremental eng s).2 = .ok →
    J (completeStream (tailEnd (pumpIncremental eng s).1))

namespace CallInvariant

variable {eng : Engine α φ ε γ κ} {I J : Stream α φ ε γ κ → Prop} {s s' : Stream α φ ε γ κ}

/-- The steps of a pump keep `I`. -/
lemma pumpSteps (h : CallInvariant eng I J) (hsteps : PumpSteps eng s s') (hs : I s) : I s' := by
  induction hsteps with
  | refl => exact hs
  | tail _ hstep ih => exact h.pumpStep hstep ih

/-- So does a whole pump. -/
lemma pump (h : CallInvariant eng I J) (hs : I s) : I (pumpIncremental eng s).1 :=
  h.pumpSteps (pumpIncremental_steps (h.within hs)) hs

/-- A resumption keeps `I`. -/
lemma resumed (h : CallInvariant eng I J) (hs : I s) : I (resumed eng s) := by
  unfold Voxtral.resumed
  split_ifs
  · exact h.pump hs
  · exact hs

/-- A failure ends the stream behind such a change. -/
lemma failStream (h : CallInvariant eng I J) (hs : I s) {t : Stream α φ ε γ κ} (status : Status)
    (hsame : SameDecoding s t) : I (failStream t status) := by
  obtain ⟨_, happ, -⟩ := failStream_appends t status
  refine h.appends happ ?_ (h.same hsame hs)
  change StreamState.failed ≠ .completed
  decide

/-- The slice loop of a feed keeps `I`. -/
lemma feedSlices (h : CallInvariant eng I J) (slices : List (List α)) {stalled : Bool} {status : Status}
    (hs : I s) (hfeed : feedSlices eng s stalled slices = some (s', status)) : I s' := by
  induction slices generalizing s stalled with
  | nil =>
    obtain ⟨rfl, -⟩ := Prod.mk.inj (Option.some.inj hfeed)
    exact hs
  | cons slice rest ih =>
    rw [Voxtral.feedSlices] at hfeed
    obtain ⟨⟨t, ok⟩, habsorb, hfeed⟩ := Option.bind_eq_some_iff.mp hfeed
    have ht : I t := h.frontend (absorbSlice_frontendChange habsorb) hs
    have hpump : I (pumpIncremental eng t).1 := h.pump ht
    dsimp only at hfeed
    split_ifs at hfeed with hok hstalled hfull hfail
    · obtain ⟨rfl, -⟩ := Prod.mk.inj (Option.some.inj hfeed)
      exact ht
    · exact ih ht hfeed
    · exact ih hpump hfeed
    · rwa [show pumpIncremental eng t = (s', status) from Option.some.inj hfeed] at hpump
    · exact ih hpump hfeed

variable [Zero α]

/-- The audio part of a feed keeps `I`. -/
lemma feedAudio (h : CallInvariant eng I J) {samples : List ℤ} {status : Status} (hs : I s)
    (hfeed : feedAudio eng s samples = some (s', status)) : I s' := by
  rw [feedAudio_eq] at hfeed
  obtain ⟨t, hpad, hfeed⟩ := Option.bind_eq_some_iff.mp hfeed
  obtain ⟨⟨u, st⟩, hslices, hend⟩ := Option.map_eq_some_iff.mp hfeed
  have hstart : I (feedStart s samples.length) := h.same ⟨rfl, rfl, rfl, rfl, rfl, Iff.rfl, fun _ => rfl⟩ hs
  have hu : I u := h.feedSlices _ (h.frontend (ensureLeftPad_frontendChange hpad) hstart) hslices
  have hs' : (feedEnd s.events.aggressivePartialCoalescing samples.length (u, st)).1 = s' :=
    congrArg Prod.fst hend
  have hcount : ∀ {n : ℕ}, u.lifecycle.state = .completed → n = u.lifecycle.totalSamplesReceived :=
    fun hended => absurd hended (h.live hu)
  rw [← hs']
  unfold feedEnd
  dsimp only
  split_ifs with _ _ hcreated hcreated
  · exact h.same ⟨rfl, rfl, rfl, rfl, rfl, Iff.rfl, fun _ => rfl⟩ hu
  · exact h.same ⟨rfl, rfl, rfl, rfl, rfl, iff_of_false nofun (by rw [hcreated]; exact nofun), hcount⟩ hu
  · exact h.same ⟨rfl, rfl, rfl, rfl, rfl, Iff.rfl, hcount⟩ hu
  · exact h.same ⟨rfl, rfl, rfl, rfl, rfl, iff_of_false nofun (by rw [hcreated]; exact nofun), hcount⟩ hu
  · exact h.same ⟨rfl, rfl, rfl, rfl, rfl, Iff.rfl, hcount⟩ hu

/-- A feed keeps `I`, whatever it answers. -/
lemma feedCommon (h : CallInvariant eng I J) {buf : FeedBuffer} {status : Status} (hs : I s)
    (hfeed : feedCommon eng s buf = some (s', status)) : I s' := by
  cases feedCommon_call hfeed with
  | closed => exact h.same ⟨rfl, rfl, rfl, rfl, rfl, Iff.rfl, fun _ => rfl⟩ hs
  | stalled => exact h.same ⟨rfl, rfl, rfl, rfl, rfl, Iff.rfl, fun _ => rfl⟩ (h.pump hs)
  | pumpFailed => exact h.pump hs
  | refused _ _ _ _ _ hstate htotal =>
    exact h.same ⟨rfl, rfl, rfl, rfl, rfl, by rw [hstate], fun _ => htotal⟩ (h.resumed hs)
  | admitted _ haudio => exact h.feedAudio (h.resumed hs) haudio

/-- Every way to end a stream ends in `I`, or in `J` if the stream is completed. -/
lemma finishPath (h : CallInvariant eng I J) {status : Status} (hs : I s)
    (hpath : FinishPath eng s s' status) : I s' ∨ J s' := by
  have hfinishing : StreamState.finishing = .completed ↔ s.lifecycle.state = .completed :=
    iff_of_false (by decide) (h.live hs)
  have hfront : ∀ {t : Stream α φ ε γ κ} {out : Option String},
      finishFrontend eng (flushStart s) = some (t, out) → I t := by
    intro t out hflush
    have hstart : I (flushStart s) := h.same ⟨rfl, rfl, rfl, rfl, rfl, hfinishing, fun _ => rfl⟩ hs
    exact h.frontend (finishFrontend_frontendChange hflush).1 hstart
  have htail : ∀ {t : Stream α φ ε γ κ}, finishFrontend eng (flushStart s) = some (t, none) →
      I (tailStart t) := fun hflush => h.same ⟨rfl, rfl, rfl, rfl, rfl, Iff.rfl, fun _ => rfl⟩ (hfront hflush)
  cases hpath with
  | empty hzero => exact Or.inr (h.empty hzero hs)
  | frontendFailed _ hflush =>
    exact Or.inl (h.failStream (hfront hflush) _ ⟨rfl, rfl, rfl, rfl, rfl, Iff.rfl, fun _ => rfl⟩)
  | pumpFailed _ hflush =>
    exact Or.inl (h.failStream (h.pump (htail hflush)) _ ⟨rfl, rfl, rfl, rfl, rfl, Iff.rfl, fun _ => rfl⟩)
  | @completed hzero t hflush hok =>
    have hreceived : (tailStart t).lifecycle.totalSamplesReceived ≠ 0 := by
      change t.lifecycle.totalSamplesReceived ≠ 0
      rw [(finishFrontend_frontendChange hflush).1.totalReceived]
      exact hzero
    exact Or.inr (h.complete hreceived (htail hflush) hok)

/-- So does a finish. -/
lemma finishInternal (h : CallInvariant eng I J) {status : Status} (hs : I s)
    (hfinish : finishInternal eng s = some (s', status)) : I s' ∨ J s' := by
  cases finishInternal_call hfinish with
  | ended | finishing => exact Or.inl hs
  | failed => exact Or.inl (h.same ⟨rfl, rfl, rfl, rfl, rfl, Iff.rfl, fun _ => rfl⟩ hs)
  | stalled => exact Or.inl (h.pump hs)
  | pumpFailed => exact Or.inl (h.failStream (h.pump hs) _ ⟨rfl, rfl, rfl, rfl, rfl, Iff.rfl, fun _ => rfl⟩)
  | live _ _ hpath => exact h.finishPath (h.resumed hs) hpath

omit [Zero α] in
/-- A poll takes an event out of the queue. -/
lemma poll_sameDecoding (s : Stream α φ ε γ κ) : SameDecoding s (streamPollEvent s).1 := by
  unfold streamPollEvent
  split <;> exact ⟨rfl, rfl, rfl, rfl, rfl, Iff.rfl, fun _ => rfl⟩

/-- A completed stream refuses every call but a poll. -/
lemma stepEnded (h : CallInvariant eng I J) {op : Op} {r : Response} (hs : J s)
    (hstep : streamStep eng s op = some (s', r)) : J s' := by
  have hstate := h.ended hs
  have hclosed : ¬ s.Open := by
    unfold Stream.Open
    rw [hstate]
    decide
  cases op with
  | feed buf =>
    obtain ⟨⟨t, status⟩, hfeed, ht⟩ := Option.map_eq_some_iff.mp hstep
    have hcall := feedCommon_call hfeed
    rw [← (Prod.mk.inj ht).1]
    cases hcall with
    | closed => exact h.sameEnded ⟨rfl, rfl, rfl, rfl, rfl, Iff.rfl, fun _ => rfl⟩ hs
    | stalled hopen => exact absurd hopen hclosed
    | pumpFailed hopen => exact absurd hopen hclosed
    | refused hopen => exact absurd hopen hclosed
    | admitted hadmitted => exact absurd hadmitted.1 hclosed
  | poll =>
    have hs' : (streamPollEvent s).1 = s' := congrArg Prod.fst (Option.some.inj hstep)
    rw [← hs']
    exact h.sameEnded (poll_sameDecoding s) hs
  | cancel =>
    obtain ⟨rfl, rfl⟩ := Prod.mk.inj (Option.some.inj hstep)
    unfold cancelInternal
    rw [hstate]
    exact h.sameEnded ⟨rfl, rfl, rfl, rfl, rfl, Iff.rfl, fun _ => rfl⟩ hs
  | finish =>
    obtain ⟨⟨t, status⟩, hfinish, ht⟩ := Option.map_eq_some_iff.mp hstep
    obtain ⟨rfl, rfl⟩ := Prod.mk.inj ht
    cases finishInternal_call hfinish with
    | ended => exact hs
    | finishing => exact hs
    | failed hfailed => exact absurd (hstate.symm.trans hfailed) (by decide)
    | stalled hopen => exact absurd hopen hclosed
    | pumpFailed hopen => exact absurd hopen hclosed
    | live hopen => exact absurd hopen hclosed

/-- Invariant rule: every call keeps what its parts keep. -/
theorem step (h : CallInvariant eng I J) {op : Op} {r : Response} (hs : I s ∨ J s)
    (hstep : streamStep eng s op = some (s', r)) : I s' ∨ J s' := by
  rcases hs with hs | hs
  · cases op with
    | feed buf =>
      obtain ⟨⟨t, status⟩, hfeed, ht⟩ := Option.map_eq_some_iff.mp hstep
      have hkept : I t := h.feedCommon hs hfeed
      left
      rw [← (Prod.mk.inj ht).1]
      dsimp only
      split_ifs
      · exact h.failStream hkept _ ⟨rfl, rfl, rfl, rfl, rfl, Iff.rfl, fun _ => rfl⟩
      · exact hkept
    | poll =>
      have hs' : (streamPollEvent s).1 = s' := congrArg Prod.fst (Option.some.inj hstep)
      rw [← hs']
      exact Or.inl (h.same (poll_sameDecoding s) hs)
    | cancel =>
      obtain ⟨rfl, rfl⟩ := Prod.mk.inj (Option.some.inj hstep)
      obtain ⟨es, happ, -⟩ := cancelInternal_appends s
      refine Or.inl (h.appends happ ?_ hs)
      have hlive := h.live hs
      unfold cancelInternal
      cases hstate : s.lifecycle.state with
      | completed => exact absurd hstate hlive
      | created | running => exact nofun
      | cancelled | failed | finishing => exact hlive
    | finish =>
      obtain ⟨⟨t, status⟩, hfinish, ht⟩ := Option.map_eq_some_iff.mp hstep
      obtain ⟨rfl, rfl⟩ := Prod.mk.inj ht
      exact h.finishInternal hs hfinish
  · exact Or.inr (h.stepEnded hs hstep)

end CallInvariant

end Voxtral
