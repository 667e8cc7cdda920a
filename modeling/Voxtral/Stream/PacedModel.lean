import Voxtral.Stream.AlikeCalls
import Voxtral.Stream.Totality

/-!
# Streams without a frontend

All that the rest of a stream sees of its frontend is how many encoder frames it has emitted, and that
is a function of the number of samples received (`emittedAt`, `finishGroups`).  The paced model moves
the encoder cursor by this function and computes no frame.  Where the values of frames, embeddings and
decoder states carry no information, it answers every run of calls as the stream does
(`pacedRun_eq`), and it can be evaluated on feeds of any size.
-/

namespace Voxtral

variable {α φ ε γ κ : Type*}

/-! ## The model -/

/-- A call, as far as the paced model distinguishes calls: a feed by its sample count. -/
inductive PacedOp
  | feed (isNull : Bool) (count : ℕ)
  | poll
  | finish
  | cancel

/-- The call a model answers for a call on a stream. -/
def Op.paced : Op → PacedOp
  | .feed (.null count) => .feed true count
  | .feed (.data samples) => .feed false samples.length
  | .poll => .poll
  | .finish => .finish
  | .cancel => .cancel

/-- The encoder reached frame `emitted`. -/
def emitUpTo (s : Stream α φ ε γ κ) (emitted : ℕ) : Stream α φ ε γ κ :=
  { s with frontend := { s.frontend with enc := { s.frontend.enc with emitted := emitted } } }

/-- The sizes of the slices a feed of `count` samples is drained in. -/
def sliceSizes (count : ℕ) : List ℕ :=
  (List.range ((count + (audioDrainSlice - 1)) / audioDrainSlice)).map fun k =>
    min audioDrainSlice (count - audioDrainSlice * k)

/-- The slice loop, after `n` samples were received. -/
def pacedSlices (eng : Engine α φ ε γ κ) :
    Stream α φ ε γ κ → Bool → ℕ → List ℕ → Stream α φ ε γ κ × Status
  | s, backpressured, _, [] => (s, if backpressured then .limitExceeded else .ok)
  | s, backpressured, n, k :: rest =>
    let s := emitUpTo s (emittedAt eng.schedule.logical (n + k))
    if backpressured then pacedSlices eng s true (n + k) rest
    else
      let p := pumpIncremental eng s
      if p.2 = .limitExceeded then pacedSlices eng p.1 true (n + k) rest
      else if p.2 ≠ .ok then p
      else pacedSlices eng p.1 false (n + k) rest

/-- The audio path of a feed. -/
def pacedAudio (eng : Engine α φ ε γ κ) (s : Stream α φ ε γ κ) (count : ℕ) :
    Stream α φ ε γ κ × Status :=
  feedEnd s.events.aggressivePartialCoalescing count
    (pacedSlices eng (feedStart s count) false s.lifecycle.totalSamplesReceived (sliceSizes count))

/-- The admission checks of a feed. -/
def pacedAdmit (eng : Engine α φ ε γ κ) (s : Stream α φ ε γ κ) (isNull : Bool) (count : ℕ) :
    Stream α φ ε γ κ × Status :=
  let reject := fun (status : Status) (msg : String) => (setError s status msg, status)
  if count = 0 then
    let s := clearError s
    ({ s with lifecycle := { s.lifecycle with feedCalls := s.lifecycle.feedCalls + 1 } }, .ok)
  else if isNull then reject .invalidArgument "null samples with non-zero count"
  else
    let received := s.lifecycle.totalSamplesReceived
    if maxFeedSamples < count then reject .invalidArgument "feed exceeds per-call sample limit"
    else if uint64Max - received < count then
      reject .invalidArgument "feed would overflow cumulative sample counter"
    else if int64Max < received + count then
      reject .invalidArgument "stream sample position exceeds internal counter range"
    else if s.params.maxTotalSamples < received + count then
      reject .limitExceeded "stream duration exceeds max_total_samples admission limit"
    else pacedAudio eng s count

/-- A feed. -/
def pacedFeed (eng : Engine α φ ε γ κ) (s : Stream α φ ε γ κ) (isNull : Bool) (count : ℕ) :
    Stream α φ ε γ κ × Status :=
  if s.lifecycle.state ≠ .created ∧ s.lifecycle.state ≠ .running then
    (setError s .invalidState ("feed not allowed in state " ++ stateName s.lifecycle.state),
      .invalidState)
  else if s.events.decoderBackpressured then
    let p := pumpIncremental eng s
    if p.2 = .limitExceeded then
      ({ p.1 with lifecycle := { p.1.lifecycle with
        feedCalls := p.1.lifecycle.feedCalls + 1 } }, .limitExceeded)
    else if p.2 ≠ .ok then p
    else pacedAdmit eng p.1 isNull count
  else pacedAdmit eng s isNull count

/-- A finish behind its backlog drain. -/
def pacedFinishLive (eng : Engine α φ ε γ κ) (s : Stream α φ ε γ κ) : Stream α φ ε γ κ × Status :=
  if s.lifecycle.totalSamplesReceived = 0 then (completeStream (emptyEnd s), .ok)
  else
    let p := pumpIncremental eng (tailStart (emitUpTo (flushStart s)
      (4 * finishGroups s.lifecycle.totalSamplesReceived)))
    if p.2 ≠ .ok then finishThrew p.1 p.1.lifecycle.lastError
    else (completeStream (tailEnd p.1), .ok)

/-- A finish. -/
def pacedFinish (eng : Engine α φ ε γ κ) (s : Stream α φ ε γ κ) : Stream α φ ε γ κ × Status :=
  match s.lifecycle.state with
  | .completed => (s, .ok)
  | .cancelled => (s, .ok)
  | .failed => (setError s .invalidState "finish not allowed after failure", .invalidState)
  | .finishing => (s, .busy)
  | .created | .running =>
    if s.events.decoderBackpressured then
      let p := pumpIncremental eng s
      if p.2 = .limitExceeded then p
      else if p.2 ≠ .ok then
        (failStream { p.1 with events := { p.1.events with finalizingFlush := true } } p.2, p.2)
      else pacedFinishLive eng p.1
    else pacedFinishLive eng s

/-- Answer one call. -/
def pacedStep (eng : Engine α φ ε γ κ) (s : Stream α φ ε γ κ) :
    PacedOp → Stream α φ ε γ κ × Response
  | .feed isNull count =>
    let r := pacedFeed eng s isNull count
    let consumed := r.1.lifecycle.totalSamplesReceived - s.lifecycle.totalSamplesReceived
    let t :=
      if r.2 = .backendError ∨ r.2 = .outOfMemory ∨ r.2 = .internalError then
        failStreamNoexcept r.1 r.2 r.1.lifecycle.lastError
      else r.1
    (t, .feed (mapFeedStatus t r.2) consumed)
  | .poll => streamPollEvent s
  | .finish => ((pacedFinish eng s).1, .finish (mapStatus (pacedFinish eng s).2))
  | .cancel => ((cancelInternal s).1, .cancel (mapStatus (cancelInternal s).2))

/-! ## The simulation -/

section Simulation

variable [Subsingleton ε] [Subsingleton γ] [Subsingleton κ] {eng : Engine α φ ε γ κ}
  {s s' t : Stream α φ ε γ κ}

omit [Subsingleton ε] [Subsingleton κ] in
/-- Where embeddings carry no information, all rings hold the same. -/
lemma Alike.at {n : ℕ} (h : Alike eng n s t) (m : ℕ) : Alike eng m s t :=
  { h with embRows := fun _ _ => Subsingleton.elim _ _ }

/-- A change of the frontend that is matched by a move of the cursor. -/
lemma Alike.emitUpTo {n : ℕ} (h : Alike eng n s t) (hruns : ∀ k, eng.submitFails k = false)
    (hparams : s'.params = s.params) (hlifecycle : s'.lifecycle = s.lifecycle)
    (hdecoder : s'.decoder = s.decoder) (hevents : s'.events = s.events) {e : ℕ}
    (hemitted : s'.frontend.enc.emitted = e) : Alike eng n s' (emitUpTo t e) :=
  ⟨h.params.trans hparams.symm, h.lifecycle.trans hlifecycle.symm, h.decoder.trans hdecoder.symm,
    h.events.trans hevents.symm, hemitted.symm, Or.inl hruns, fun _ => Subsingleton.elim _ _,
    fun _ _ => Subsingleton.elim _ _, fun _ _ => Subsingleton.elim _ _⟩

omit [Subsingleton ε] [Subsingleton κ] in
/-- A pump of alike streams. -/
lemma Alike.pump {n : ℕ} (h : Alike eng n s t) :
    (pumpIncremental eng t).2 = (pumpIncremental eng s).2 ∧
      Alike eng n (pumpIncremental eng s).1 (pumpIncremental eng t).1 :=
  ⟨(pumpIncremental_alike (h.at _)).1, (pumpIncremental_alike (h.at _)).2.at n⟩

variable [Zero α]

/-- The slice loop is paced by the sample count. -/
lemma feedSlices_paced (slices : List (List α)) {backpressured : Bool} {status : Status} {n : ℕ}
    (hruns : ∀ k, eng.submitFails k = false) (hw : Working eng True s)
    (hpadded : s.frontend.leftPadInjected = true)
    (hslices : ∀ slice ∈ slices, slice.length ≤ audioDrainSlice) (h : Alike eng n s t)
    (hrun : feedSlices eng s backpressured slices = some (s', status)) :
    let r := pacedSlices eng t backpressured s.frontend.realSamples.length (slices.map List.length)
    r.2 = status ∧ Alike eng n s' r.1 := by
  induction slices generalizing s t backpressured with
  | nil =>
    obtain ⟨rfl, rfl⟩ := Prod.mk.inj (Option.some.inj hrun)
    exact ⟨rfl, h⟩
  | cons slice rest ih =>
    rw [feedSlices] at hrun
    obtain ⟨⟨u, ok⟩, habsorb, hrun⟩ := Option.bind_eq_some_iff.mp hrun
    have hslice := hslices slice List.mem_cons_self
    have hout := absorbSlice_outcome hw.front hpadded hslice habsorb
    obtain rfl := hout.runs hruns
    obtain ⟨hu, hupadded, hdecoder, hevents, hsamples⟩ :=
      hw.absorb hpadded hslice (Or.inl trivial) habsorb
    have hlength : u.frontend.realSamples.length =
        s.frontend.realSamples.length + slice.length := by
      rw [hsamples, List.length_append]
    have hut : Alike eng n u (Voxtral.emitUpTo t (emittedAt eng.schedule.logical
        (s.frontend.realSamples.length + slice.length))) :=
      h.emitUpTo hruns (hu.params.trans hw.params.symm) (hout.lifecycle rfl) hdecoder hevents
        (hlength ▸ hu.emitted)
    obtain ⟨hanswer, hpump⟩ := hut.pump
    simp only [Bool.not_true, Bool.false_eq_true, if_false] at hrun
    simp only [List.map_cons, pacedSlices, hanswer]
    have hrest := fun x hx => hslices x (List.mem_cons_of_mem slice hx)
    rw [← hlength]
    cases backpressured with
    | true => exact ih hu hupadded hrest (hlength ▸ hut) hrun
    | false =>
      obtain ⟨hpout, hworking, -⟩ := hu.pump
      have hframe : PumpFrame u (pumpIncremental eng u).1 := (pumpIncremental_steps hu.within).frame
      have hpw := hworking (hpout.runs hruns)
      have hppadded : (pumpIncremental eng u).1.frontend.leftPadInjected = true := by
        rw [hframe.frontend]
        exact hupadded
      simp only [Bool.false_eq_true, if_false] at hrun ⊢
      rw [hlength]
      have hnext : ∀ b, feedSlices eng (pumpIncremental eng u).1 b rest = some (s', status) → _ :=
        fun b => ih hpw hppadded hrest hpump
      rw [hframe.frontend, hlength] at hnext
      split_ifs at hrun ⊢
      · exact hnext true hrun
      · obtain ⟨rfl, rfl⟩ := Prod.mk.inj (Option.some.inj hrun)
        exact ⟨hanswer, hpump⟩
      · exact hnext false hrun

omit [Subsingleton ε] [Subsingleton γ] [Subsingleton κ] [Zero α] in
/-- The sizes of the slices of a feed. -/
lemma map_length_audioSlices (pcm : List α) :
    (audioSlices pcm).map List.length = sliceSizes pcm.length := by
  rw [audioSlices, sliceSizes, List.map_map]
  refine List.map_congr_left fun k _ => ?_
  rw [Function.comp, List.length_take, List.length_drop]

/-- The audio path of a feed. -/
lemma feedAudio_paced {samples : List ℤ} {status : Status} {n : ℕ}
    (hruns : ∀ k, eng.submitFails k = false) (hs : StreamReady eng True s) (h : Alike eng n s t)
    (hfeed : feedAudio eng s samples = some (s', status)) :
    (pacedAudio eng t samples.length).2 = status ∧
      Alike eng n s' (pacedAudio eng t samples.length).1 := by
  rw [feedAudio_eq] at hfeed
  obtain ⟨u, hpad, hrun⟩ := Option.bind_eq_some_iff.mp hfeed
  obtain ⟨⟨r, st⟩, hloop, hout⟩ := Option.map_eq_some_iff.mp hrun
  have hstarted : FrontReady eng (feedStart s samples.length) := hs.front.congr rfl rfl
  obtain ⟨hpace, hufront, hupadded⟩ := ensureLeftPad_samePace hstarted hpad
  have hupace : SamePace s u := (feedStart_samePace s samples.length).trans hpace
  have hu : Working eng True u := hupace.working hs.toWorking hufront
  -- the model starts its slice loop with the same records
  have hstart : Alike eng n u (feedStart t samples.length) := by
    have hmode := h.map id fun ev => { ev with
      aggressivePartialCoalescing := aggressiveMode ev samples.length }
    obtain ⟨padded, fe, rfl⟩ := ensureLeftPad_eq hpad
    exact ⟨hmode.params, hmode.lifecycle, hmode.decoder, hmode.events, hmode.emitted,
      hmode.submits, hmode.decKv, hmode.encRows, hmode.embRows⟩
  obtain ⟨hanswer, hend⟩ := feedSlices_paced (audioSlices (samples.map eng.sampleOf)) hruns hu
    hupadded (fun slice hslice => length_of_mem_audioSlices hslice) hstart hloop
  rw [map_length_audioSlices, List.length_map, hupace.samples, ← hs.total, ← h.lifecycle]
    at hanswer hend
  have hfinal := feedEnd_alike s.events.aggressivePartialCoalescing samples.length hend st
  rw [hout] at hfinal
  unfold pacedAudio
  rw [h.events]
  refine ⟨?_, ?_⟩
  · rw [feedEnd_status, hanswer]
    exact (feedEnd_status _ _ (r, st)).symm.trans (congrArg Prod.snd hout)
  · rw [← hanswer] at hfinal
    exact hfinal

/-- The admission checks of a feed. -/
lemma feedAdmit_paced {buf : FeedBuffer} {status : Status} {n : ℕ}
    (hruns : ∀ k, eng.submitFails k = false) (hs : StreamReady eng True s) (h : Alike eng n s t)
    (hfeed : feedAdmit eng s buf = some (s', status)) :
    ∀ isNull count, (Op.feed buf).paced = .feed isNull count →
      (pacedAdmit eng t isNull count).2 = status ∧
        Alike eng n s' (pacedAdmit eng t isNull count).1 := by
  have hempty : Alike eng n
      { clearError s with lifecycle := { (clearError s).lifecycle with
        feedCalls := (clearError s).lifecycle.feedCalls + 1 } }
      { clearError t with lifecycle := { (clearError t).lifecycle with
        feedCalls := (clearError t).lifecycle.feedCalls + 1 } } :=
    (clearError_alike h).mapLifecycle fun l => { l with feedCalls := l.feedCalls + 1 }
  intro isNull count hpaced
  unfold feedAdmit at hfeed
  match buf with
  | .null (k + 1) =>
    obtain ⟨rfl, rfl⟩ := PacedOp.feed.inj hpaced
    obtain ⟨rfl, rfl⟩ := Prod.mk.inj (Option.some.inj hfeed)
    exact ⟨rfl, setError_alike h _ _⟩
  | .null 0 =>
    obtain ⟨rfl, rfl⟩ := PacedOp.feed.inj hpaced
    obtain ⟨rfl, rfl⟩ := Prod.mk.inj (Option.some.inj hfeed)
    exact ⟨rfl, hempty⟩
  | .data [] =>
    obtain ⟨rfl, rfl⟩ := PacedOp.feed.inj hpaced
    obtain ⟨rfl, rfl⟩ := Prod.mk.inj (Option.some.inj hfeed)
    exact ⟨rfl, hempty⟩
  | .data (x :: xs) =>
    obtain ⟨rfl, rfl⟩ := PacedOp.feed.inj hpaced
    unfold pacedAdmit
    simp only [List.length_cons, Nat.add_eq_zero_iff, one_ne_zero, and_false, if_false,
      Bool.false_eq_true, h.lifecycle, h.params] at hfeed ⊢
    split_ifs at hfeed ⊢
    iterate 4
      obtain ⟨rfl, rfl⟩ := Prod.mk.inj (Option.some.inj hfeed)
      exact ⟨rfl, setError_alike h _ _⟩
    have haudio := feedAudio_paced hruns hs h hfeed
    exact haudio

/-- A feed. -/
lemma feedCommon_paced {buf : FeedBuffer} {status : Status} {n : ℕ}
    (hruns : ∀ k, eng.submitFails k = false) (hr : OpReady eng True s) (h : Alike eng n s t)
    (hfeed : feedCommon eng s buf = some (s', status)) :
    ∀ isNull count, (Op.feed buf).paced = .feed isNull count →
      (pacedFeed eng t isNull count).2 = status ∧
        Alike eng n s' (pacedFeed eng t isNull count).1 := by
  intro isNull count hpaced
  unfold feedCommon at hfeed
  unfold pacedFeed
  rw [h.lifecycle, h.events]
  obtain ⟨hanswer, hpump⟩ := h.pump
  simp only [hanswer] at hfeed ⊢
  split_ifs at hfeed ⊢ with hstate hbp hlimit hfail
  · obtain ⟨rfl, rfl⟩ := Prod.mk.inj (Option.some.inj hfeed)
    exact ⟨rfl, setError_alike h _ _⟩
  · obtain ⟨rfl, rfl⟩ := Prod.mk.inj (Option.some.inj hfeed)
    exact ⟨rfl, hpump.mapLifecycle fun l => { l with feedCalls := l.feedCalls + 1 }⟩
  · obtain rfl := congrArg Prod.fst (Option.some.inj hfeed)
    obtain rfl := congrArg Prod.snd (Option.some.inj hfeed)
    exact ⟨hanswer, hpump⟩
  · have hlive : s.Live := live_of_open (by tauto)
    have hready := hr.pump hlive hbp (fun hbad => hfail (by rw [hbad]; decide))
    have hframe : PumpFrame s (pumpIncremental eng s).1 := (pumpIncremental_steps hr.within).frame
    exact feedAdmit_paced hruns (hready.live (hframe.live.mpr hlive)) hpump hfeed isNull count hpaced
  · exact feedAdmit_paced hruns (hr.live (live_of_open (by tauto))) h hfeed isNull count hpaced

/-- A finish behind its backlog drain. -/
lemma finishLive_paced {status : Status} {n : ℕ} (hruns : ∀ k, eng.submitFails k = false)
    (hs : StreamReady eng True s) (h : Alike eng n s t)
    (hfinish : finishLive eng s = some (s', status)) :
    (pacedFinishLive eng t).2 = status ∧ Alike eng n s' (pacedFinishLive eng t).1 := by
  have hstart : Alike eng n (flushStart s) (flushStart t) :=
    h.map (fun l => { l with state := .finishing }) fun ev => { ev with finalizingFlush := true }
  -- the flushed frontend is matched by the cursor
  have htail : ∀ {u : Stream α φ ε γ κ} {out : Option String},
      s.lifecycle.totalSamplesReceived ≠ 0 → finishFrontend eng (flushStart s) = some (u, out) →
      out = none ∧ Alike eng n (tailStart u) (tailStart (Voxtral.emitUpTo (flushStart t)
        (4 * finishGroups s.lifecycle.totalSamplesReceived))) := by
    intro u out hzero hfront
    obtain ⟨-, hpadded⟩ := hs.received hzero
    have hready : FrontReady eng (flushStart s) := hs.front.congr rfl rfl
    have hflush := finishFrontend_outcome hready hpadded hs.total hfront
    obtain rfl := hflush.runs hruns
    obtain ⟨hchange, -⟩ := finishFrontend_frontendChange hfront
    have hemitted := (hflush.flushed rfl).emitted
    have hsamples : u.frontend.realSamples = s.frontend.realSamples := hflush.samples
    rw [hsamples, ← hs.total] at hemitted
    exact ⟨rfl, (hstart.emitUpTo hruns hchange.params (hflush.lifecycle rfl) hchange.decoder
      hchange.events hemitted).mapDecoder
        (fun d => { d with tokensBeforeFinish := d.decoderTokensEmitted }) (fun _ => rfl) _ _⟩
  unfold pacedFinishLive
  rw [h.lifecycle]
  cases finishLive_path hfinish with
  | empty hzero =>
    rw [if_pos hzero]
    exact ⟨rfl, completeStream_alike ((hstart.mapDecoder
      (fun d => { d with transcript := [], tokens := [] }) (fun _ => rfl) _ _).mapLifecycle
        fun l => { l with totalSamplesConsumed := 0 })⟩
  | frontendFailed hzero hfront => exact absurd (htail hzero hfront).1 (by simp)
  | pumpFailed hzero hfront hfail =>
    obtain ⟨hanswer, hpump⟩ := (htail hzero hfront).2.pump
    simp only [if_neg hzero, hanswer, if_pos hfail, hpump.lifecycle]
    exact ⟨rfl, finishThrew_alike hpump _⟩
  | completed hzero hfront hok =>
    obtain ⟨hanswer, hpump⟩ := (htail hzero hfront).2.pump
    simp only [if_neg hzero, hanswer, hok, ne_eq, not_true_eq_false, if_false]
    exact ⟨trivial, completeStream_alike ((hpump.mapDecoder
      (fun d => { d with transcript := d.partialText }) (fun _ => rfl) _ _).mapLifecycle
        fun l => { l with
          inferenceRuns := l.inferenceRuns + 1
          totalSamplesConsumed := l.totalSamplesReceived })⟩

/-- A finish. -/
lemma finishInternal_paced {status : Status} {n : ℕ} (hruns : ∀ k, eng.submitFails k = false)
    (hr : OpReady eng True s) (h : Alike eng n s t)
    (hfinish : finishInternal eng s = some (s', status)) :
    (pacedFinish eng t).2 = status ∧ Alike eng n s' (pacedFinish eng t).1 := by
  obtain ⟨hanswer, hpump⟩ := h.pump
  unfold finishInternal at hfinish
  unfold pacedFinish
  rw [h.lifecycle]
  cases hstate : s.lifecycle.state with
  | completed | cancelled | finishing =>
    simp only [hstate] at hfinish
    obtain ⟨rfl, rfl⟩ := Prod.mk.inj (Option.some.inj hfinish)
    exact ⟨rfl, h⟩
  | failed =>
    simp only [hstate] at hfinish
    obtain ⟨rfl, rfl⟩ := Prod.mk.inj (Option.some.inj hfinish)
    exact ⟨rfl, setError_alike h _ _⟩
  | created | running =>
    have hlive : s.Live := live_of_open (by simp [hstate])
    simp only [hstate] at hfinish
    simp only [h.events, hanswer]
    split_ifs at hfinish ⊢ with hbp hlimit hfail
    · obtain rfl := congrArg Prod.fst (Option.some.inj hfinish)
      obtain rfl := congrArg Prod.snd (Option.some.inj hfinish)
      exact ⟨hanswer, hpump⟩
    · obtain ⟨rfl, rfl⟩ := Prod.mk.inj (Option.some.inj hfinish)
      exact ⟨rfl, failStream_alike (hpump.map id fun ev => { ev with finalizingFlush := true }) _⟩
    · have hready := hr.pump hlive hbp (fun hbad => hfail (by rw [hbad]; decide))
      have hframe : PumpFrame s (pumpIncremental eng s).1 := (pumpIncremental_steps hr.within).frame
      exact finishLive_paced hruns (hready.live (hframe.live.mpr hlive)) hpump hfinish
    · exact finishLive_paced hruns (hr.live hlive) h hfinish

/-- Every call is answered by the model. -/
theorem streamStep_paced {op : Op} {r : Response} {n : ℕ} (hruns : ∀ k, eng.submitFails k = false)
    (hr : OpReady eng True s) (h : Alike eng n s t) (hstep : streamStep eng s op = some (s', r)) :
    (pacedStep eng t op.paced).2 = r ∧ Alike eng n s' (pacedStep eng t op.paced).1 := by
  cases op with
  | feed buf =>
    obtain ⟨⟨u, st⟩, hfeed, hout⟩ := Option.map_eq_some_iff.mp hstep
    obtain ⟨isNull, count, hpaced⟩ : ∃ isNull count, (Op.feed buf).paced = .feed isNull count := by
      cases buf <;> exact ⟨_, _, rfl⟩
    obtain ⟨hanswer, hu⟩ := feedCommon_paced hruns hr h hfeed isNull count hpaced
    obtain ⟨rfl, rfl⟩ := Prod.mk.inj hout
    rw [hpaced]
    simp only [pacedStep, hanswer, hu.lifecycle, h.lifecycle]
    split_ifs
    · have hfail := failStreamNoexcept_alike hu st u.lifecycle.lastError
      refine ⟨?_, hfail⟩
      simp only [mapFeedStatus, hfail.lifecycle, hfail.events]
    · refine ⟨?_, hu⟩
      simp only [mapFeedStatus, hu.lifecycle, hu.events]
  | poll =>
    obtain ⟨rfl, rfl⟩ := Prod.mk.inj (Option.some.inj hstep)
    exact streamPollEvent_alike h
  | finish =>
    obtain ⟨⟨u, st⟩, hfinish, hout⟩ := Option.map_eq_some_iff.mp hstep
    obtain ⟨rfl, rfl⟩ := Prod.mk.inj hout
    obtain ⟨hanswer, hu⟩ := finishInternal_paced hruns hr h hfinish
    exact ⟨congrArg (fun st => Response.finish (mapStatus st)) hanswer, hu⟩
  | cancel =>
    obtain ⟨rfl, rfl⟩ := Prod.mk.inj (Option.some.inj hstep)
    obtain ⟨hanswer, hu⟩ := cancelInternal_alike h
    exact ⟨congrArg (fun st => Response.cancel (mapStatus st)) hanswer, hu⟩

omit [Subsingleton ε] [Subsingleton γ] [Subsingleton κ] [Zero α] in
/-- A new stream is alike itself. -/
lemma Alike.create (hruns : ∀ k, eng.submitFails k = false) (maxEvents : ℕ) (device : Device ε γ κ) :
    Alike eng 0 (Stream.create maxEvents device : Stream α φ ε γ κ) (.create maxEvents device) :=
  ⟨rfl, rfl, rfl, rfl, rfl, Or.inl hruns, fun _ => rfl, fun _ _ => rfl, fun _ _ => rfl⟩

/-- A run of the model on a list of calls, from a new stream. -/
def pacedRun (eng : Engine α φ ε γ κ) (maxEvents : ℕ) (device : Device ε γ κ) (ops : List PacedOp) :
    Stream α φ ε γ κ × List Response :=
  runAll (pacedStep eng) (Stream.create maxEvents device) ops

/-- Every run of calls on a new stream is answered as by the model, and ends with the same records. -/
theorem pacedRun_eq (hruns : ∀ k, eng.submitFails k = false) {maxEvents : ℕ} {device : Device ε γ κ}
    {ops : List Op} {os : List Response}
    (hrun : runSteps (streamStep eng) (Stream.create maxEvents device) ops = some (s, os)) :
    (pacedRun eng maxEvents device (ops.map Op.paced)).2 = os ∧
      Alike eng 0 s (pacedRun eng maxEvents device (ops.map Op.paced)).1 := by
  have hstep : ∀ s t op s' r, (OpReady eng True s ∧ Alike eng 0 s t) →
      streamStep eng s op = some (s', r) → (pacedStep eng t op.paced).2 = r ∧
        OpReady eng True s' ∧ Alike eng 0 s' (pacedStep eng t op.paced).1 := by
    rintro s t op s' r ⟨hr, h⟩ hstep
    obtain ⟨hanswer, halike⟩ := streamStep_paced hruns hr h hstep
    exact ⟨hanswer, (streamStep_moves hr (Or.inl trivial) hstep).2, halike⟩
  obtain ⟨hanswers, -, halike⟩ := runSteps_simulation hstep
    ⟨opReady_create eng True maxEvents device, .create hruns maxEvents device⟩ hrun
  exact ⟨hanswers, halike⟩

end Simulation

/-! ## A plain engine -/

/-- An engine whose frames, embeddings and decoder states carry no information, and whose decoder
returns the token of the letter A at every position. -/
def plainEngine (schedule : EncoderSchedule) : Engine ℤ Unit Unit Unit Unit where
  sampleOf := id
  melFrame := fun _ => ()
  encoderFrame := fun _ => ()
  adapterGroup := fun _ => ()
  prefill := fun _ _ => ()
  decoderStep := fun _ _ _ _ => (0, ())
  tokenizer := ⟨[[0x51, 0x51, 0x3d, 0x3d]], 0, []⟩
  schedule := schedule
  finishPhysical := 4
  finishPhysical_mem := defaultSchedule.physical_mem
  submitFails := fun _ => false

/-- The plain engine with a decoder that ends the stream with its first token. -/
def endingEngine : Engine ℤ Unit Unit Unit Unit :=
  { plainEngine defaultSchedule with decoderStep := fun _ _ _ _ => (tokenEos, ()) }

/-- No graph of the plain engine fails. -/
lemma plainEngine_runs (schedule : EncoderSchedule) (n : ℕ) :
    (plainEngine schedule).submitFails n = false := rfl

/-- No graph of the ending engine fails. -/
lemma endingEngine_runs (n : ℕ) : endingEngine.submitFails n = false := rfl

/-- A device no stream has used. -/
def plainDevice : Device Unit Unit Unit where
  encOutRing := fun _ => ⟨0, ()⟩
  audioEmbRing := fun _ => ⟨0, ()⟩
  decKv := ()

/-- A feed of `count` zero samples. -/
def feedZeros (count : ℕ) : Op := .feed (.data (List.replicate count 0))

/-- A feed of zeros, for the pace alone. -/
@[simp] lemma feedZeros_paced (count : ℕ) : (feedZeros count).paced = .feed false count := by
  rw [feedZeros, Op.paced, List.length_replicate]

/-- A poll, for the pace alone. -/
@[simp] lemma poll_paced : Op.poll.paced = .poll := rfl

/-- A finish, for the pace alone. -/
@[simp] lemma finish_paced : Op.finish.paced = .finish := rfl

/-- A feed of zeros offers its count. -/
@[simp] lemma offeredSamples_feedZeros (count : ℕ) (ops : List Op) :
    offeredSamples (feedZeros count :: ops) = count + offeredSamples ops := by
  simp [offeredSamples, feedZeros, Op.sampleCount, FeedBuffer.samples]

/-- A poll offers nothing. -/
@[simp] lemma offeredSamples_poll (ops : List Op) :
    offeredSamples (.poll :: ops) = offeredSamples ops := by
  simp [offeredSamples, Op.sampleCount]

/-- A finish offers nothing. -/
@[simp] lemma offeredSamples_finish (ops : List Op) :
    offeredSamples (.finish :: ops) = offeredSamples ops := by
  simp [offeredSamples, Op.sampleCount]

/-- No calls offer nothing. -/
@[simp] lemma offeredSamples_nil : offeredSamples [] = 0 := rfl

/-- A run of an engine without information, seen through the model. -/
lemma exists_pacedRun {eng : Engine ℤ Unit Unit Unit Unit} (hruns : ∀ n, eng.submitFails n = false)
    (maxEvents : ℕ) (ops : List Op) (hfits : TotalFits (offeredSamples ops)) :
    ∃ s os, runSteps (streamStep eng) (Stream.create maxEvents plainDevice) ops = some (s, os) ∧
      (pacedRun eng maxEvents plainDevice (ops.map Op.paced)).2 = os ∧
      Alike eng 0 s (pacedRun eng maxEvents plainDevice (ops.map Op.paced)).1 := by
  obtain ⟨s, os, hrun⟩ := exists_run eng maxEvents plainDevice ops hfits
  obtain ⟨hresponses, halike⟩ := pacedRun_eq hruns hrun
  exact ⟨s, os, hrun, hresponses, halike⟩

end Voxtral
