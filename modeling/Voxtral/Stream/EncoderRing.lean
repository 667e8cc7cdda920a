import Voxtral.Stream.PacedModel

/-!
# The encoder ring

The encoder writes its output rows into a ring of 256 slots, and has no throttle against the adapter
that reads them.  In a run whose feeds all keep up (`KeepsUp`) every group is computed from its own
rows.  A feed that goes on too long behind a stalled decoder overwrites rows the adapter still has to
read.
-/

namespace Voxtral

variable {α φ ε γ κ : Type*}

/-- The adapter read the four rows of its group. -/
def TraceEntry.RowsInPlace : TraceEntry ε γ → Prop
  | .adapterGroup group rows =>
    rows.map RingRow.pos = List.range' (downsampleFactor * group) downsampleFactor
  | _ => True

/-- A quiet entry reads no row. -/
lemma TraceEntry.IsQuiet.rowsInPlace {e : TraceEntry ε γ} (h : e.IsQuiet) : e.RowsInPlace := by
  cases e with
  | adapterGroup => exact absurd h id
  | _ => trivial

section Steps

variable {eng : Engine α φ ε γ κ} {late : Prop} {s s' : Stream α φ ε γ κ}

/-- The rows of a group that is still in the ring. -/
lemma RingReady.adapterRows (h : RingReady eng s) {group : ℕ}
    (hlo : s.frontend.enc.emitted ≤ downsampleFactor * group + encOutRingCap)
    (hhi : group < s.frontend.enc.emitted / downsampleFactor) :
    adapterRows s.device.encOutRing group =
      (List.range' (downsampleFactor * group) downsampleFactor).map fun e =>
        ⟨e, encoderFrameAt eng s.frontend.enc.melHistory e⟩ := by
  rw [List.range'_eq_map_range, List.map_map]
  refine List.map_congr_left fun j hj => ?_
  have hj' := List.mem_range.mp hj
  simp only [downsampleFactor] at hlo hhi hj' ⊢
  exact h.holds _ (by omega) (by omega)

/-- A group the adapter may commit is still in the ring. -/
lemma RowsInRing.group (h : RowsInRing s) {group : ℕ}
    (hcommitted : s.decoder.adapterGroupsCommitted ≤ group)
    (hcap : group < consumedFloor s + aembRingCap) :
    s.frontend.enc.emitted ≤ downsampleFactor * group + encOutRingCap := by
  rcases h with h | ⟨-, -, h⟩
  · simp only [downsampleFactor]
    omega
  · omega

/-- Quiet entries keep what the history says of the rows read. -/
lemma rowsInPlace_quiet (h : ∀ e ∈ s.trace, e.RowsInPlace) (hquiet : QuietChange s s') :
    ∀ e ∈ s'.trace, e.RowsInPlace := by
  obtain ⟨more, htrace, hmore⟩ := hquiet.trace
  intro e he
  rw [htrace] at he
  exact (List.mem_append.mp he).elim (h e) fun he => (hmore e he).rowsInPlace

/-- Every atomic change of a pump reads the rows of its group. -/
lemma PumpStep.rowsInPlace (hstep : PumpStep eng s s') (hrows : RowsInRing s)
    (hring : RingReady eng s) (h : ∀ e ∈ s.trace, e.RowsInPlace) :
    ∀ e ∈ s'.trace, e.RowsInPlace := by
  have happend : ∀ es, s'.trace = s.trace ++ es → (∀ e ∈ es, TraceEntry.RowsInPlace e) →
      ∀ e ∈ s'.trace, e.RowsInPlace := by
    intro es htrace hes e he
    rw [htrace] at he
    exact (List.mem_append.mp he).elim (h e) (hes e)
  cases hstep with
  | bookkeep => exact h
  | commitGroup group hcommitted hcap havail =>
    refine happend [_] rfl fun e he => ?_
    rw [List.mem_singleton.mp he]
    simp only [TraceEntry.RowsInPlace]
    rw [hring.adapterRows (hrows.group hcommitted hcap) havail, List.map_map]
    exact List.map_id _
  | advanceAdapter => exact h
  | prefill => exact happend [_] rfl fun e he => by rw [List.mem_singleton.mp he]; trivial
  | decoderStep => exact happend [_] rfl fun e he => by rw [List.mem_singleton.mp he]; trivial
  | deliver p =>
    obtain ⟨more, htrace, hmore⟩ := deliverPending_quiet eng s p
    exact happend more htrace fun e he => (hmore e he).rowsInPlace

/-- Every transition of a run that keeps up reads the rows of its groups. -/
lemma Transition.rowsInPlace (hstep : Transition eng False s s') (h : ∀ e ∈ s.trace, e.RowsInPlace) :
    ∀ e ∈ s'.trace, e.RowsInPlace := by
  rcases hstep.pump_or_quiet with ⟨-, -, hrows, hring, hpump⟩ | hquiet
  · exact hpump.rowsInPlace (hrows.resolve_left id) hring h
  · exact rowsInPlace_quiet h hquiet

end Steps

/-! ## Reads of a resumed stream -/

section Resume

variable {eng : Engine α φ ε γ κ} {s s' : Stream α φ ε γ κ}

/-- A pump only appends to the history. -/
lemma PumpSteps.trace_prefix (h : PumpSteps eng s s') : s.trace <+: s'.trace := by
  induction h with
  | refl => exact List.prefix_rfl
  | tail _ hstep ih => exact ih.trans hstep.trace_prefix

/-- The reads of committed groups stay in the history. -/
lemma commitGroups_trace (eng : Engine α φ ε γ κ) (s : Stream α φ ε γ κ) (group n : ℕ) :
    s.trace <+: (commitGroups eng s group n).trace ∧ (0 < n →
      .adapterGroup group (adapterRows s.device.encOutRing group) ∈
        (commitGroups eng s group n).trace) := by
  induction n with
  | zero => exact ⟨List.prefix_rfl, fun h => absurd h (lt_irrefl 0)⟩
  | succ n ih =>
    have hlast : (commitGroups eng s group n).trace <+:
        (commitGroups eng s group (n + 1)).trace := List.prefix_append _ _
    refine ⟨ih.1.trans hlast, fun _ => ?_⟩
    rcases Nat.eq_zero_or_pos n with rfl | hn
    · exact List.mem_append_right _ (List.mem_singleton_self _)
    · exact hlast.subset (ih.2 hn)

/-- The adapter reads the rows of the first group it commits. -/
lemma adapterCommitLoop_trace (hruns : ∀ k, eng.submitFails k = false) (fuel group n : ℕ)
    (s : Stream α φ ε γ κ) :
    s.trace <+: (adapterCommitLoop eng fuel s group n).1.trace ∧ (0 < n → 0 < fuel →
      .adapterGroup group (adapterRows s.device.encOutRing group) ∈
        (adapterCommitLoop eng fuel s group n).1.trace) := by
  induction fuel generalizing s group n with
  | zero => exact ⟨List.prefix_rfl, fun _ h => absurd h (lt_irrefl 0)⟩
  | succ fuel ih =>
    rw [adapterCommitLoop]
    by_cases hzero : n = 0
    · rw [if_pos hzero]
      exact ⟨List.prefix_rfl, fun h => absurd h (by omega)⟩
    · have hran : (submitGraph eng s).2 = true := by simp [submitGraph, hruns]
      simp only [if_neg hzero, hran, Bool.not_true, Bool.false_eq_true, if_false]
      have hrun : 0 < (if 32 ≤ n then 32 else 1) := by split_ifs <;> omega
      set run := if 32 ≤ n then 32 else 1
      obtain ⟨hgrown, hreads⟩ := commitGroups_trace eng (submitGraph eng s).1 group run
      have hrest := (ih (group + run) (n - run) (commitGroups eng (submitGraph eng s).1 group run)).1
      exact ⟨hgrown.trans hrest, fun _ _ => hrest.subset (hreads hrun)⟩

/-- A pump that has groups to commit reads the rows of the next one. -/
lemma pumpIncremental_reads (hruns : ∀ k, eng.submitFails k = false)
    (hmore : s.decoder.adapterGroupsCommitted < committable s) :
    .adapterGroup s.decoder.adapterGroupsCommitted
      (adapterRows s.device.encOutRing s.decoder.adapterGroupsCommitted) ∈
      (pumpIncremental eng s).1.trace := by
  have hadapter : .adapterGroup s.decoder.adapterGroupsCommitted
      (adapterRows s.device.encOutRing s.decoder.adapterGroupsCommitted) ∈
      (pumpAdapter eng s).1.trace := by
    rw [pumpAdapter_eq, if_pos hmore]
    set k := committable s - s.decoder.adapterGroupsCommitted with hk
    have hran := adapterCommitLoop_runs eng s hruns k s.decoder.adapterGroupsCommitted k
    simp only [hran, if_true]
    exact (adapterCommitLoop_trace hruns k s.decoder.adapterGroupsCommitted k s).2 (by omega)
      (by omega)
  unfold pumpIncremental
  simp only
  split_ifs
  · exact hadapter
  · exact (PumpSteps.trace_prefix (pumpPrefill_steps eng _)).subset hadapter
  · exact (PumpSteps.trace_prefix (pumpDecoder_steps _)).subset
      ((PumpSteps.trace_prefix (pumpPrefill_steps eng _)).subset hadapter)

/-- A zero-length feed of a stream under backpressure pumps. -/
lemma streamStep_resume [Zero α] (hruns : ∀ k, eng.submitFails k = false) (hr : OpReady eng True s)
    (hopen : s.lifecycle.state = .created ∨ s.lifecycle.state = .running)
    (hbp : s.events.decoderBackpressured = true) {r : Response}
    (h : streamStep eng s (.feed (.data [])) = some (s', r)) :
    (pumpIncremental eng s).1.trace = s'.trace := by
  obtain ⟨⟨u, st⟩, hfeed, hout⟩ := Option.map_eq_some_iff.mp h
  have hstatus := ((hr.live (live_of_open hopen)).toWorking.pump).1.runs hruns
  have hu : u.trace = (pumpIncremental eng s).1.trace ∧ (st = .ok ∨ st = .limitExceeded) := by
    unfold feedCommon at hfeed
    rw [if_neg fun hne => hopen.elim hne.1 hne.2, if_pos hbp] at hfeed
    simp only at hfeed
    split_ifs at hfeed with hlimit hfail
    · obtain ⟨rfl, rfl⟩ := Prod.mk.inj (Option.some.inj hfeed)
      exact ⟨rfl, Or.inr rfl⟩
    · rcases pumpIncremental_status eng s with hok | hok | hbad
      · exact absurd hok hfail
      · exact absurd hok hlimit
      · exact absurd hbad hstatus
    · obtain ⟨rfl, rfl⟩ := Prod.mk.inj (Option.some.inj hfeed)
      exact ⟨rfl, Or.inl rfl⟩
  obtain ⟨rfl, -⟩ := Prod.mk.inj hout
  rcases hu.2 with rfl | rfl
  · simp [hu.1]
  · simp [hu.1]

/-- A run that stalled with groups left to commit, and is resumed: the adapter reads the next group
from the ring as the run left it. -/
lemma exists_resumedRun (schedule : EncoderSchedule) (maxEvents : ℕ) (ops : List Op)
    (hfits : TotalFits (offeredSamples (ops ++ [feedZeros 0]))) (emitted committed : ℕ)
    (hcursors : let m := (pacedRun (plainEngine schedule) maxEvents plainDevice (ops.map Op.paced)).1
      m.lifecycle.state = .running ∧ m.events.decoderBackpressured = true ∧
        m.frontend.enc.emitted = emitted ∧ m.decoder.adapterGroupsCommitted = committed ∧
        committed < committable m) :
    ∃ t s os, FrontReady (plainEngine schedule) t ∧ t.frontend.enc.emitted = emitted ∧
      runSteps (streamStep (plainEngine schedule)) (Stream.create maxEvents plainDevice)
        (ops ++ [feedZeros 0]) = some (s, os) ∧
      .adapterGroup committed (adapterRows t.device.encOutRing committed) ∈ s.trace := by
  obtain ⟨s, os, hrun⟩ := exists_run (plainEngine schedule) maxEvents plainDevice
    (ops ++ [feedZeros 0]) hfits
  obtain ⟨t, os₁, os₂, hstall, hresume, -⟩ := runSteps_append.mp hrun
  obtain ⟨-, halike⟩ := pacedRun_eq (plainEngine_runs schedule) hstall
  simp only [halike.committable, halike.lifecycle, halike.events, halike.emitted, halike.decoder]
    at hcursors
  obtain ⟨hstate, hbp, hemitted, hcommitted, hmore⟩ := hcursors
  have hr := (runSteps_moves (opReady_create _ True maxEvents plainDevice) (Or.inl trivial) hstall).2
  obtain ⟨r, hstep, -⟩ := runSteps_singleton.mp hresume
  have hreads := pumpIncremental_reads (s := t) (plainEngine_runs schedule)
    (hcommitted ▸ hmore)
  rw [streamStep_resume (plainEngine_runs schedule) hr (Or.inr hstate) hbp hstep, hcommitted] at hreads
  exact ⟨t, s, os, (hr.live (live_of_open (Or.inr hstate))).front, hemitted, hrun, hreads⟩

end Resume

/-! ## Feeds that keep up -/

section Keep

variable {eng : Engine α φ ε γ κ}

/-- A slice more does not overwrite what the adapter still has to read. -/
lemma tolerated_of_le (sch : EncoderSchedule) (n : ℕ) {more : ℕ} (hmore : more ≤ 16000) :
    Tolerated sch.logical n more := by
  have hslice := emittedAt_slice sch (n := n) hmore
  unfold Tolerated
  simp only [encOutRingCap]
  omega

/-- Slices with at most one behind the first do not go on too long. -/
lemma stallsInTime_of_le (slices : List (List α)) (s : Stream α φ ε γ κ)
    (hrest : slices.tail.flatten.length ≤ 16000) : StallsInTime eng s slices := by
  induction slices generalizing s with
  | nil => trivial
  | cons slice rest ih =>
    intro t _
    refine ⟨fun _ => tolerated_of_le eng.schedule _ hrest, fun _ => ih _ (le_trans ?_ hrest)⟩
    cases rest with
    | nil => exact le_rfl
    | cons next rest => simp

/-- A feed of at most two slices keeps up. -/
lemma keepsUp_of_le [Zero α] {buf : FeedBuffer} (s : Stream α φ ε γ κ)
    (hshort : buf.samples.length ≤ 32000) : KeepsUp eng s (.feed buf) := by
  intro _ _ _ t _
  refine stallsInTime_of_le _ t ?_
  have htail : ∀ pcm : List α, pcm.length ≤ 32000 →
      (audioSlices pcm).tail.flatten.length ≤ 16000 := by
    intro pcm hpcm
    have hall := congrArg List.length (flatten_audioSlices pcm)
    cases hslices : audioSlices pcm with
    | nil => exact Nat.zero_le _
    | cons slice rest =>
      have hfirst : slice = pcm.take 16000 := by
        unfold audioSlices at hslices
        cases hcount : (pcm.length + (audioDrainSlice - 1)) / audioDrainSlice with
        | zero =>
          rw [hcount] at hslices
          exact absurd hslices (by simp)
        | succ k =>
          rw [hcount, List.range_succ_eq_map, List.map_cons] at hslices
          simpa using (List.cons.inj hslices).1.symm
      rw [hslices, List.flatten_cons, List.length_append, hfirst, List.length_take] at hall
      simp only [List.tail_cons]
      omega
  exact htail _ (by simpa using hshort)

/-- A feed of at most two seconds of zeros keeps up. -/
lemma keepsUp_feedZeros {schedule : EncoderSchedule} (s : Stream ℤ Unit Unit Unit Unit) {count : ℕ}
    (hshort : count ≤ 32000) : KeepsUp (plainEngine schedule) s (feedZeros count) :=
  keepsUp_of_le s (by simpa [FeedBuffer.samples] using hshort)

end Keep

/-! ## The encoder ring -/

/-- The encoder ring is not overrun in a run whose feeds all keep up: every group of audio embeddings
is computed from the four rows of the group. -/
theorem encoder_ring_never_overrun [Zero α] (eng : Engine α φ ε γ κ) (maxEvents : ℕ)
    (device : Device ε γ κ) (ops : List Op) (s : Stream α φ ε γ κ) (os : List Response)
    (hkeep : RunMeets (streamStep eng) (KeepsUp eng) (Stream.create maxEvents device) ops)
    (hrun : runSteps (streamStep eng) (Stream.create maxEvents device) ops = some (s, os))
    (group : ℕ) (rows : List (RingRow ε)) (hgroup : .adapterGroup group rows ∈ s.trace) :
    rows.map RingRow.pos = [4 * group, 4 * group + 1, 4 * group + 2, 4 * group + 3] := by
  have h : ∀ e ∈ s.trace, e.RowsInPlace := stream_invariant False
    (I := fun s => ∀ e ∈ s.trace, e.RowsInPlace) (fun _ _ hstep _ h => hstep.rowsInPlace h)
    (fun t h => rowsInPlace_quiet h (streamPollEvent_quiet t)) (fun e he => absurd he (by
      simp [Stream.create])) (Or.inr hkeep) hrun
  exact h _ hgroup

/-- In a run of two slices per feed, the rows of group 44 are read where they are. -/
theorem encoder_ring_never_overrun_two_slices : ∃ s os rows,
    runSteps (streamStep (plainEngine defaultSchedule)) (Stream.create 1 plainDevice)
      [feedZeros 32000, .poll, feedZeros 0] = some (s, os) ∧
    .adapterGroup 44 rows ∈ s.trace ∧ rows.map RingRow.pos = [176, 177, 178, 179] := by
  obtain ⟨_, s, os, -, -, hrun, hreads⟩ := exists_resumedRun defaultSchedule 1
    [feedZeros 32000, .poll] (by simp [TotalFits]) 224 44 (by
      simp only [List.map_cons, feedZeros_paced, poll_paced, List.map_nil]
      decide +kernel)
  have hkeep : ∀ n m, n ≤ 32000 → m ≤ 32000 →
      RunMeets (streamStep (plainEngine defaultSchedule)) (KeepsUp (plainEngine defaultSchedule))
        (Stream.create 1 plainDevice) [feedZeros n, .poll, feedZeros m] := by
    intro n m hn hm
    exact ⟨keepsUp_feedZeros _ hn, fun _ _ _ => ⟨trivial, fun _ _ _ =>
      ⟨keepsUp_feedZeros _ hm, fun _ _ _ => trivial⟩⟩⟩
  exact ⟨s, os, _, hrun, hreads, encoder_ring_never_overrun (plainEngine defaultSchedule) 1
    plainDevice _ s os (hkeep 32000 0 (by omega) (by omega)) hrun 44 _ hreads⟩

/-- A feed that goes on behind a stalled decoder overruns the ring: seven seconds of silence fed into a
queue of one event leave the decoder at group 44 and the encoder at frame 476, and the rows of group 44
were overwritten by the frames 432 to 435 when it is resumed. -/
theorem encoder_ring_overrun : ∃ s os rows,
    runSteps (streamStep (plainEngine defaultSchedule)) (Stream.create 1 plainDevice)
      [feedZeros 112000, .poll, feedZeros 0] = some (s, os) ∧
    .adapterGroup 44 rows ∈ s.trace ∧ rows.map RingRow.pos = [432, 433, 434, 435] := by
  obtain ⟨t, s, os, hfront, hemitted, hrun, hreads⟩ := exists_resumedRun defaultSchedule 1
    [feedZeros 112000, .poll] (by simp [TotalFits]) 476 44 (by
      simp only [List.map_cons, feedZeros_paced, poll_paced, List.map_nil]
      decide +kernel)
  refine ⟨s, os, _, hrun, hreads, ?_⟩
  -- the slots of group 44 hold the rows of group 108
  have hholds := hfront.tracks.holds
  rw [hemitted] at hholds
  have hrow : ∀ p, 176 ≤ p → p < 180 →
      (t.device.encOutRing.read encOutRingCap p).pos = p + 256 := by
    intro p hlo hhi
    have hslot : t.device.encOutRing.read encOutRingCap p =
        t.device.encOutRing.read encOutRingCap (p + 256) :=
      congrArg t.device.encOutRing (Nat.add_mod_right p encOutRingCap).symm
    rw [hslot, hholds (p + 256) (by simp only [encOutRingCap]; omega) (by omega)]
  rw [adapterRows, List.map_map]
  change [(t.device.encOutRing.read encOutRingCap 176).pos,
    (t.device.encOutRing.read encOutRingCap 177).pos,
    (t.device.encOutRing.read encOutRingCap 178).pos,
    (t.device.encOutRing.read encOutRingCap 179).pos] = _
  rw [hrow 176 (by omega) (by omega), hrow 177 (by omega) (by omega),
    hrow 178 (by omega) (by omega), hrow 179 (by omega) (by omega)]

end Voxtral
