import Voxtral.Stream.Calls

/-!
# Runs that have a result

The step function has no result only where the Mel frontend reads outside its buffer.  Runs whose
padded total stays within the 32-bit range always have one.
-/

namespace Voxtral

variable {α φ ε γ κ : Type*} [Zero α] {eng : Engine α φ ε γ κ} {s s' : Stream α φ ε γ κ}

/-- The samples a call offers. -/
def Op.sampleCount : Op → ℕ
  | .feed buf => buf.samples.length
  | _ => 0

/-- The samples a list of calls offers. -/
def offeredSamples (ops : List Op) : ℕ := (ops.map Op.sampleCount).sum

/-- A total of `n` real samples fits the 32-bit range together with its padding. -/
def TotalFits (n : ℕ) : Prop := n + 64000 < 2 ^ 31

/-- The complete signal of `n` real samples fits the 32-bit range. -/
def PaddedFits (n : ℕ) : Prop := streamLeftPad + n + finishRightPad n < 2 ^ 31

/-- A total that fits, fits with its padding. -/
lemma TotalFits.padded {n : ℕ} (h : TotalFits n) : PaddedFits n := by
  have hleft : streamLeftPad = 40960 := rfl
  have hright := finishRightPad_eq n
  rw [TotalFits] at h
  rw [PaddedFits]
  omega

/-- So does what a stream receives on the way. -/
lemma PaddedFits.received {m n : ℕ} (h : PaddedFits n) (hle : m ≤ n) : streamLeftPad + m < 2 ^ 31 :=
  ((Nat.add_le_add_left hle _).trans (Nat.le_add_right _ _)).trans_lt h

/-- The left padding of a ready front has a result. -/
lemma ensureLeftPad_isSome (h : FrontReady eng s) : (ensureLeftPad eng s).isSome = true := by
  unfold ensureLeftPad
  by_cases hpadded : s.frontend.leftPadInjected = true
  · rw [if_pos hpadded]
    rfl
  · rw [if_neg hpadded]
    have hempty : paddedSignal s.frontend = [] := by
      rw [paddedSignal, if_neg hpadded, h.unpadded (by simpa using hpadded)]
      rfl
    obtain ⟨fe, hfeed, -⟩ := melFrontendFeed_ready h.mel (List.replicate streamLeftPad 0)
      (Or.inl (by rw [hempty, List.nil_append, List.length_replicate]; decide))
    rw [melFrontendFeedSilence, hfeed]
    rfl

/-- The slice loop has a result. -/
lemma feedSlices_isSome (slices : List (List α)) (stalled : Bool) (h : Working eng True s)
    (hpadded : s.frontend.leftPadInjected = true)
    (hslices : ∀ slice ∈ slices, slice.length ≤ audioDrainSlice)
    (hfits : streamLeftPad + (s.frontend.realSamples.length + slices.flatten.length) < 2 ^ 31) :
    (feedSlices eng s stalled slices).isSome = true := by
  induction slices generalizing s stalled with
  | nil => rfl
  | cons slice rest ih =>
    have hlen : (slice :: rest).flatten.length = slice.length + rest.flatten.length := by
      rw [List.flatten_cons, List.length_append]
    rw [hlen, show streamLeftPad = 40960 from rfl] at hfits
    have hslice := hslices slice List.mem_cons_self
    have hrest := fun x hx => hslices x (List.mem_cons_of_mem slice hx)
    have hsome : (absorbSlice eng s slice).isSome = true := absorbSlice_isSome h.front (by
      rw [List.length_append, length_paddedSignal hpadded]
      omega)
    obtain ⟨⟨t, ok⟩, habsorb⟩ := Option.isSome_iff_exists.mp hsome
    rw [feedSlices, habsorb, Option.bind_some]
    cases ok with
    | false => rfl
    | true =>
      obtain ⟨ht, htpadded, -, -, hsamples⟩ := h.absorb hpadded hslice (Or.inl trivial) habsorb
      have hfits' : streamLeftPad + (t.frontend.realSamples.length + rest.flatten.length) < 2 ^ 31 := by
        rw [hsamples, List.length_append, show streamLeftPad = 40960 from rfl]
        omega
      obtain ⟨-, hworking, -⟩ := ht.pump
      have hframe : PumpFrame t (pumpIncremental eng t).1 := (pumpIncremental_steps ht.within).frame
      have hgo : (pumpIncremental eng t).2 ≠ .backendError → ∀ stalled,
          (feedSlices eng (pumpIncremental eng t).1 stalled rest).isSome = true := by
        intro hne stalled
        refine ih stalled (hworking hne) ?_ hrest ?_
        · rw [hframe.frontend]
          exact htpadded
        · rw [hframe.frontend]
          exact hfits'
      simp only [Bool.not_true, Bool.false_eq_true, if_false]
      split_ifs with hstall hlimit hok
      · exact ih true ht htpadded hrest hfits'
      · exact hgo (by rw [hlimit]; decide) true
      · rfl
      · exact hgo (by rw [not_not.mp hok]; decide) false

/-- A feed has a result. -/
lemma feedAudio_isSome {samples : List ℤ} (hs : StreamReady eng True s)
    (hfits : streamLeftPad + (s.frontend.realSamples.length + samples.length) < 2 ^ 31) :
    (feedAudio eng s samples).isSome = true := by
  unfold feedAudio
  change ((ensureLeftPad eng (feedStart s samples.length)).bind _).isSome = true
  have hfront : FrontReady eng (feedStart s samples.length) := hs.front.congr rfl rfl
  obtain ⟨t, hpad⟩ := Option.isSome_iff_exists.mp (ensureLeftPad_isSome hfront)
  obtain ⟨hpace, htfront, htpadded⟩ := ensureLeftPad_samePace hfront hpad
  have htpace := (feedStart_samePace s samples.length).trans hpace
  have hloop := feedSlices_isSome (audioSlices (samples.map eng.sampleOf)) false
    (htpace.working hs.toWorking htfront) htpadded (fun _ hslice => length_of_mem_audioSlices hslice)
    (by
      rw [htpace.samples, flatten_audioSlices, List.length_map]
      exact hfits)
  obtain ⟨r, hr⟩ := Option.isSome_iff_exists.mp hloop
  rw [hpad, Option.bind_some, hr]
  rfl

/-- The admission of samples that fit has a result. -/
lemma feedAdmit_isSome {buf : FeedBuffer} (hs : StreamReady eng True s)
    (hfits : streamLeftPad + (s.frontend.realSamples.length + buf.samples.length) < 2 ^ 31) :
    (feedAdmit eng s buf).isSome = true := by
  unfold feedAdmit
  match buf with
  | .null 0 | .null (_ + 1) | .data [] => rfl
  | .data (x :: xs) =>
    simp only
    split_ifs
    iterate 4 rfl
    exact feedAudio_isSome hs hfits

/-- So has the feed of samples that fit. -/
lemma feedCommon_isSome {buf : FeedBuffer} (hr : OpReady eng True s)
    (hfits : s.Live → streamLeftPad + (s.frontend.realSamples.length + buf.samples.length) < 2 ^ 31) :
    (feedCommon eng s buf).isSome = true := by
  unfold feedCommon
  by_cases hclosed : s.lifecycle.state ≠ .created ∧ s.lifecycle.state ≠ .running
  · rw [if_pos hclosed]
    rfl
  · rw [if_neg hclosed]
    have hlive : s.Live := live_of_open (by
      by_contra hne
      exact hclosed (not_or.mp hne))
    by_cases hbp : s.events.decoderBackpressured = true
    · rw [if_pos hbp]
      have hframe : PumpFrame s (pumpIncremental eng s).1 := (pumpIncremental_steps hr.within).frame
      simp only
      split_ifs with hlimit hok
      · rfl
      · rfl
      · have hready := hr.pump hlive hbp (by rw [not_not.mp hok]; decide)
        refine feedAdmit_isSome (hready.live (hframe.live.mpr hlive)) ?_
        rw [hframe.frontend]
        exact hfits hlive
    · rw [if_neg hbp]
      exact feedAdmit_isSome (hr.live hlive) (hfits hlive)

/-- The frontend part of a finish has a result. -/
lemma finishFrontend_isSome (h : FrontReady eng s) (hpadded : s.frontend.leftPadInjected = true)
    (htotal : s.lifecycle.totalSamplesReceived = s.frontend.realSamples.length)
    (hfits : PaddedFits s.frontend.realSamples.length) :
    (finishFrontend eng s).isSome = true := by
  have hlen := length_paddedSignal hpadded
  rw [PaddedFits, show streamLeftPad = 40960 from rfl] at hfits
  have hfits' : ((paddedSignal s.frontend ++ List.replicate
      (finishRightPad s.frontend.realSamples.length) 0).length : ℤ) < 2 ^ 31 := by
    rw [List.length_append, List.length_replicate, hlen]
    push_cast
    omega
  obtain ⟨fe, hfeed, hready, -⟩ := melFrontendFeed_ready h.mel
    (List.replicate (finishRightPad s.frontend.realSamples.length) 0) (Or.inl hfits')
  obtain ⟨fe', hfinish, -⟩ := melFrontendFinish_complete hready hfits'
  have hleft : ensureLeftPad eng s = some s := by
    unfold ensureLeftPad
    rw [if_pos hpadded]
  unfold finishFrontend
  rw [hleft, Option.bind_some, htotal, melFrontendFeedSilence, hfeed, Option.bind_some, hfinish]
  rfl

/-- Conversely a finish of samples that has a result padded them within the 32-bit range. -/
lemma finishFrontend_fits (h : FrontReady eng s) (hpadded : s.frontend.leftPadInjected = true)
    (htotal : s.lifecycle.totalSamplesReceived = s.frontend.realSamples.length) {out : Option String}
    (hfinish : finishFrontend eng s = some (s', out)) : PaddedFits s.frontend.realSamples.length := by
  have hlen := length_paddedSignal hpadded
  have hleft : ensureLeftPad eng s = some s := by
    unfold ensureLeftPad
    rw [if_pos hpadded]
  unfold finishFrontend at hfinish
  rw [hleft, Option.bind_some, htotal, melFrontendFeedSilence] at hfinish
  obtain ⟨r, hfeed, -⟩ := Option.bind_eq_some_iff.mp hfinish
  have hright := finishRightPad_eq s.frontend.realSamples.length
  have hcount : (List.replicate (finishRightPad s.frontend.realSamples.length) (0 : α)).length =
      finishRightPad s.frontend.realSamples.length := List.length_replicate
  have hfits := melFrontendFeed_fits h.mel (by omega) h.bound (by rw [hcount]; omega)
    (by rw [hcount]; omega) hfeed
  rw [List.length_append, hcount, hlen] at hfits
  exact hfits

/-- So has the finish of a live stream whose samples fit. -/
lemma finishLive_isSome (hs : StreamReady eng True s)
    (hfits : PaddedFits s.frontend.realSamples.length) : (finishLive eng s).isSome = true := by
  unfold finishLive
  simp only
  by_cases hzero : s.lifecycle.totalSamplesReceived = 0
  · rw [if_pos hzero]
    rfl
  · rw [if_neg hzero]
    have hpadded : s.frontend.leftPadInjected = true := by
      by_contra hfalse
      have htotal := hs.total
      rw [hs.front.unpadded (by simpa using hfalse)] at htotal
      exact hzero htotal
    have hsome := finishFrontend_isSome (s := { s with
      lifecycle := { s.lifecycle with state := .finishing }
      events := { s.events with finalizingFlush := true } })
      (hs.front.congr rfl rfl) hpadded hs.total hfits
    obtain ⟨r, hr⟩ := Option.isSome_iff_exists.mp hsome
    rw [hr]
    rfl

/-- So has every finish of a stream whose samples fit. -/
lemma finishInternal_isSome (hr : OpReady eng True s)
    (hfits : s.Live → PaddedFits s.frontend.realSamples.length) :
    (finishInternal eng s).isSome = true := by
  have hopen : (s.lifecycle.state = .created ∨ s.lifecycle.state = .running) →
      (if s.events.decoderBackpressured = true then
        let p := pumpIncremental eng s
        if p.2 = .limitExceeded then some p
        else if p.2 ≠ .ok then
          some (failStream { p.1 with events := { p.1.events with finalizingFlush := true } } p.2,
            p.2)
        else finishLive eng p.1
      else finishLive eng s).isSome = true := by
    intro hopen
    have hlive := live_of_open hopen
    by_cases hbp : s.events.decoderBackpressured = true
    · rw [if_pos hbp]
      have hframe : PumpFrame s (pumpIncremental eng s).1 := (pumpIncremental_steps hr.within).frame
      simp only
      split_ifs with hlimit hok
      · rfl
      · rfl
      · have hready := hr.pump hlive hbp (by rw [not_not.mp hok]; decide)
        refine finishLive_isSome (hready.live (hframe.live.mpr hlive)) ?_
        rw [hframe.frontend]
        exact hfits hlive
    · rw [if_neg hbp]
      exact finishLive_isSome (hr.live hlive) (hfits hlive)
  unfold finishInternal
  cases hstate : s.lifecycle.state with
  | completed | cancelled | failed | finishing => rfl
  | created => exact hopen (Or.inl hstate)
  | running => exact hopen (Or.inr hstate)

/-- A call has a result. -/
theorem streamStep_isSome {op : Op} (hr : OpReady eng True s)
    (hfits : s.Live → TotalFits (s.frontend.realSamples.length + op.sampleCount)) :
    (streamStep eng s op).isSome = true := by
  cases op with
  | feed buf =>
    rw [streamStep, streamFeedPcm16, Option.isSome_map]
    exact feedCommon_isSome hr fun hlive => (hfits hlive).padded.received le_rfl
  | finish =>
    rw [streamStep, Option.isSome_map]
    exact finishInternal_isSome hr fun hlive => (hfits hlive).padded
  | poll => rfl
  | cancel => rfl

/-! ## Samples received -/

/-- A finish behind its backlog drain leaves no live stream. -/
lemma finishLive_ended {status : Status} (h : finishLive eng s = some (s', status)) : ¬ s'.Live := by
  have hdead : ∀ {t : Stream α φ ε γ κ}, t.lifecycle.state = .completed ∨
      t.lifecycle.state = .failed → ¬ t.Live := by
    intro t ht
    unfold Stream.Live
    rcases ht with ht | ht <;> simp [ht]
  cases finishLive_path h with
  | empty => exact hdead (Or.inl rfl)
  | frontendFailed => exact hdead (Or.inr rfl)
  | pumpFailed => exact hdead (Or.inr rfl)
  | completed => exact hdead (Or.inl rfl)

/-- A finish receives nothing. -/
lemma finishInternal_received {status : Status} (hr : OpReady eng True s)
    (h : finishInternal eng s = some (s', status)) (hlive : s'.Live) :
    s.Live ∧ s'.frontend.realSamples = s.frontend.realSamples := by
  have hframe : PumpFrame s (pumpIncremental eng s).1 := (pumpIncremental_steps hr.within).frame
  unfold finishInternal at h
  have hopen : (if s.events.decoderBackpressured = true then
        let p := pumpIncremental eng s
        if p.2 = .limitExceeded then some p
        else if p.2 ≠ .ok then
          some (failStream { p.1 with events := { p.1.events with finalizingFlush := true } } p.2,
            p.2)
        else finishLive eng p.1
      else finishLive eng s) = some (s', status) →
        s.Live ∧ s'.frontend.realSamples = s.frontend.realSamples := by
    intro h
    simp only at h
    split_ifs at h
    · have hs' := congrArg Prod.fst (Option.some.inj h)
      simp only at hs'
      rw [← hs'] at hlive ⊢
      exact ⟨hframe.live.mp hlive, congrArg Frontend.realSamples hframe.frontend⟩
    · have hs' := congrArg Prod.fst (Option.some.inj h)
      simp only at hs'
      rw [← hs'] at hlive
      exact absurd hlive (by simp [Stream.Live, failStream])
    · exact absurd hlive (finishLive_ended h)
    · exact absurd hlive (finishLive_ended h)
  cases hstate : s.lifecycle.state with
  | completed | cancelled =>
    rw [hstate] at h
    obtain ⟨rfl, -⟩ := Prod.mk.inj (Option.some.inj h)
    exact ⟨hlive, rfl⟩
  | failed =>
    rw [hstate] at h
    obtain ⟨rfl, -⟩ := Prod.mk.inj (Option.some.inj h)
    exact ⟨hlive, rfl⟩
  | finishing => exact absurd hstate hr.settled
  | created | running =>
    rw [hstate] at h
    exact hopen h

/-- A call that leaves a live stream received at most what it was offered. -/
lemma streamStep_received {op : Op} {r : Response} (hr : OpReady eng True s)
    (h : streamStep eng s op = some (s', r)) (hlive : s'.Live) :
    s.Live ∧ s'.frontend.realSamples.length ≤ s.frontend.realSamples.length + op.sampleCount := by
  cases op with
  | feed buf =>
    obtain ⟨⟨t, status⟩, hfeed, hr'⟩ := Option.map_eq_some_iff.mp h
    have hs' := congrArg Prod.fst hr'
    simp only at hs'
    split_ifs at hs' with hfail
    · rw [← hs'] at hlive
      exact absurd hlive (by simp [Stream.Live, failStreamNoexcept, failStream])
    · subst hs'
      have hne : status ≠ .backendError := fun h => hfail (Or.inl h)
      by_cases hopen : s.lifecycle.state = .created ∨ s.lifecycle.state = .running
      · have hout := feedCommon_outcome hr hopen (Or.inl trivial) hfeed
        refine ⟨live_of_open hopen, ?_⟩
        rcases hout.accepted hne with ⟨-, -, -, hsamples, -⟩ | ⟨-, hsame, -⟩
        · rw [hsamples, List.length_append, List.length_map]
          exact le_rfl
        · rw [hsame]
          exact Nat.le_add_right _ _
      · have hclosed : feedCommon eng s buf = some (setError s .invalidState
            ("feed not allowed in state " ++ stateName s.lifecycle.state), .invalidState) := by
          unfold feedCommon
          rw [if_pos (not_or.mp hopen)]
        obtain ⟨rfl, rfl⟩ := Prod.mk.inj (Option.some.inj (hclosed.symm.trans hfeed))
        exact ⟨hlive, Nat.le_add_right _ _⟩
  | finish =>
    obtain ⟨⟨t, status⟩, hfinish, ht⟩ := Option.map_eq_some_iff.mp h
    obtain ⟨rfl, -⟩ := Prod.mk.inj ht
    obtain ⟨hs, hsame⟩ := finishInternal_received hr hfinish hlive
    exact ⟨hs, by rw [hsame]; exact Nat.le_add_right _ _⟩
  | poll =>
    have hs' : (streamPollEvent s).1 = s' := congrArg Prod.fst (Option.some.inj h)
    obtain ⟨ev, heq, -⟩ := streamPollEvent_eq s
    rw [← hs', heq] at hlive ⊢
    exact ⟨hlive, le_rfl⟩
  | cancel =>
    obtain ⟨rfl, -⟩ := Prod.mk.inj (Option.some.inj h)
    obtain ⟨es, happ, -⟩ := cancelInternal_appends s
    have hsame : (cancelInternal s).1.frontend = s.frontend := happ.frontend
    refine ⟨?_, by rw [hsame]; exact le_rfl⟩
    unfold cancelInternal at hlive
    cases hstate : s.lifecycle.state <;> simp [Stream.Live, hstate, clearError, setError] at hlive ⊢

/-- A run whose total fits the 32-bit range together with its padding has a result. -/
theorem runSteps_isSome (ops : List Op) (hr : OpReady eng True s)
    (hfits : s.Live → TotalFits (s.frontend.realSamples.length + offeredSamples ops)) :
    (runSteps (streamStep eng) s ops).isSome = true := by
  induction ops generalizing s with
  | nil => rfl
  | cons op ops ih =>
    have hsum : offeredSamples (op :: ops) = op.sampleCount + offeredSamples ops := by
      rw [offeredSamples, offeredSamples, List.map_cons, List.sum_cons]
    have hstep : (streamStep eng s op).isSome = true := streamStep_isSome hr fun hlive => by
      have h := hfits hlive
      unfold TotalFits at h ⊢
      omega
    obtain ⟨⟨t, r⟩, ht⟩ := Option.isSome_iff_exists.mp hstep
    have hready := (streamStep_moves hr (Or.inl trivial) ht).2
    have hrest := ih hready fun hlive => by
      obtain ⟨hs, hle⟩ := streamStep_received hr ht hlive
      have h := hfits hs
      unfold TotalFits at h ⊢
      omega
    obtain ⟨⟨u, os⟩, hu⟩ := Option.isSome_iff_exists.mp hrest
    rw [Option.isSome_iff_exists]
    exact ⟨_, runSteps_cons_eq_some.mpr ⟨t, r, os, ht, hu, rfl⟩⟩

variable (eng) in
/-- A run of a new stream whose total fits the 32-bit range has a result. -/
theorem exists_run (maxEvents : ℕ) (device : Device ε γ κ) (ops : List Op)
    (hfits : TotalFits (offeredSamples ops)) :
    ∃ s os, runSteps (streamStep eng) (Stream.create maxEvents device) ops = some (s, os) := by
  have hsome := runSteps_isSome ops (opReady_create eng True maxEvents device) fun _ => by
    simpa [Stream.create] using hfits
  obtain ⟨⟨s, os⟩, h⟩ := Option.isSome_iff_exists.mp hsome
  exact ⟨s, os, h⟩

end Voxtral
