import Voxtral.Stream.PacedModel

/-!
# The audio-embedding ring

The adapter writes the embedding of a group into one of 256 slots, the decoder reads the embedding of
a position back.  The throttle of the adapter keeps every group from the decoder position on in its
slot, at every moment of every run; so each read finds the group of its position.
-/

namespace Voxtral

variable {α φ ε γ κ : Type*}

/-- A read of the ring found the groups it was made for. -/
def TraceEntry.ReadsOwnGroups : TraceEntry ε γ → Prop
  | .prefill rows => rows.map RingRow.pos = List.range (promptLength - 1)
  | .decoderStep _ position row _ => row.pos = position
  | _ => True

/-- A quiet entry reads no group. -/
lemma TraceEntry.IsQuiet.readsOwnGroups {e : TraceEntry ε γ} (h : e.IsQuiet) :
    e.ReadsOwnGroups := by
  cases e with
  | prefill | decoderStep => exact absurd h id
  | _ => trivial

/-- The groups the decoder still has to read are in the ring, and it never read another one. -/
structure EmbeddingSafe (s : Stream α φ ε γ κ) : Prop where
  within_cap : s.decoder.adapterGroupsCommitted ≤ consumedFloor s + aembRingCap
  resident : s.device.audioEmbRing.Resident aembRingCap (consumedFloor s)
    s.decoder.adapterGroupsCommitted
  reads : ∀ e ∈ s.trace, e.ReadsOwnGroups

section Steps

variable {eng : Engine α φ ε γ κ} {late : Prop} {s s' : Stream α φ ε γ κ}

/-- Reads recorded after safe ones are safe if they are themselves. -/
lemma reads_append {trace more : List (TraceEntry ε γ)}
    (h : ∀ e ∈ trace, TraceEntry.ReadsOwnGroups e)
    (hmore : ∀ e ∈ more, TraceEntry.ReadsOwnGroups e) :
    ∀ e ∈ trace ++ more, TraceEntry.ReadsOwnGroups e := by
  intro e he
  rcases List.mem_append.mp he with he | he
  · exact h e he
  · exact hmore e he

/-- A stream whose ring, committed groups and consumed positions are the same, after more reads. -/
lemma EmbeddingSafe.of_same (h : EmbeddingSafe s)
    (hring : s'.device.audioEmbRing = s.device.audioEmbRing)
    (hfloor : consumedFloor s' = consumedFloor s)
    (hcommitted : s'.decoder.adapterGroupsCommitted = s.decoder.adapterGroupsCommitted)
    (hreads : ∃ more, s'.trace = s.trace ++ more ∧ ∀ e ∈ more, TraceEntry.ReadsOwnGroups e) :
    EmbeddingSafe s' := by
  obtain ⟨more, htrace, hmore⟩ := hreads
  refine ⟨?_, ?_, ?_⟩
  · rw [hcommitted, hfloor]
    exact h.within_cap
  · rw [hring, hcommitted, hfloor]
    exact h.resident
  · rw [htrace]
    exact reads_append h.reads hmore

/-- A group written ahead of the committed ones takes the slot of one that was consumed. -/
lemma EmbeddingSafe.commitGroup (h : EmbeddingSafe s) {group : ℕ}
    (hcommitted : s.decoder.adapterGroupsCommitted ≤ group)
    (hcap : group < consumedFloor s + aembRingCap) : EmbeddingSafe (commitGroup eng s group) := by
  refine ⟨h.within_cap, ?_, reads_append h.reads (by simp [TraceEntry.ReadsOwnGroups])⟩
  intro p hlo hhi
  have hnear : s.device.audioEmbRing.read aembRingCap p =
      (Voxtral.commitGroup eng s group).device.audioEmbRing.read aembRingCap p :=
    (HistoryRing.read_write_of_near _ _ (hhi.trans_le hcommitted) (hcap.trans_le (by
      exact Nat.add_le_add_right hlo _))).symm
  rw [← hnear]
  exact h.resident p hlo hhi

/-- The groups just written become the committed ones. -/
lemma EmbeddingSafe.advanceAdapter (h : EmbeddingSafe s) {committed : ℕ}
    (hcap : committed ≤ consumedFloor s + aembRingCap)
    (hrows : ∀ g, s.decoder.adapterGroupsCommitted ≤ g → g < committed →
      (s.device.audioEmbRing.read aembRingCap g).pos = g) :
    EmbeddingSafe (advanceAdapter s committed) := by
  refine ⟨hcap, fun p hlo hhi => ?_, h.reads⟩
  by_cases hold : p < s.decoder.adapterGroupsCommitted
  · exact h.resident p hlo hold
  · exact hrows p (not_lt.mp hold) hhi

/-- The prefill reads the groups of the prompt. -/
lemma EmbeddingSafe.prefill (h : EmbeddingSafe s)
    (hfresh : s.decoder.decoderPrefillDone = false)
    (hready : promptLength - 1 ≤ s.decoder.adapterGroupsCommitted) :
    EmbeddingSafe (prefillDecoder eng s) := by
  have hzero : consumedFloor s = 0 := by
    unfold consumedFloor
    rw [hfresh]
    rfl
  have hcap := h.within_cap
  have hresident := h.resident
  rw [hzero] at hcap hresident
  refine ⟨hcap.trans (Nat.add_le_add_right (Nat.zero_le _) _),
    hresident.mono (Nat.zero_le _) le_rfl, reads_append h.reads ?_⟩
  intro e he
  rw [List.mem_singleton.mp he]
  refine List.ext_getElem (by simp [prefillRows]) fun i hi hi' => ?_
  have hlt : i < promptLength - 1 := by simpa [prefillRows] using hi
  simp only [prefillRows, List.map_map, List.getElem_map, List.getElem_range, Function.comp_apply]
  exact hresident i (Nat.zero_le _) (hlt.trans_le hready)

/-- A decoder step reads the group of its position. -/
lemma EmbeddingSafe.decoderStep (h : EmbeddingSafe s)
    (hprefill : s.decoder.decoderPrefillDone = true)
    (hposition : s.decoder.decoderPosition < s.decoder.adapterGroupsCommitted) :
    EmbeddingSafe (stepDecoder eng s) := by
  have hfloor : consumedFloor s = s.decoder.decoderPosition := by
    unfold consumedFloor
    rw [hprefill]
    rfl
  refine h.of_same rfl rfl rfl ⟨[_], rfl, fun e he => ?_⟩
  rw [List.mem_singleton.mp he]
  exact h.resident _ hfloor.le hposition

/-- A delivery moves the decoder position up. -/
lemma EmbeddingSafe.deliver (h : EmbeddingSafe s) {p : PendingToken}
    (hprefill : s.decoder.decoderPrefillDone = true) : EmbeddingSafe (deliverPending eng s p) := by
  have hdec := deliverPending_decoder eng s p
  have hcommitted : (deliverPending eng s p).decoder.adapterGroupsCommitted =
      s.decoder.adapterGroupsCommitted := by
    rw [hdec, decoderAfter]
    split_ifs <;> rfl
  have hfloor : consumedFloor s ≤ consumedFloor (deliverPending eng s p) := by
    unfold consumedFloor
    rw [hdec, decoderAfter]
    split_ifs with heos <;> simp [hprefill, appendTokenToPartial] at *
  have hring : (deliverPending eng s p).device.audioEmbRing = s.device.audioEmbRing := by
    rw [deliverPending_device]
  obtain ⟨more, htrace, hmore⟩ := deliverPending_quiet eng s p
  refine ⟨?_, ?_, ?_⟩
  · rw [hcommitted]
    exact h.within_cap.trans (Nat.add_le_add_right hfloor _)
  · rw [hring, hcommitted]
    exact h.resident.mono hfloor le_rfl
  · rw [htrace]
    exact reads_append h.reads fun e he => (hmore e he).readsOwnGroups

/-- Every atomic change of a pump keeps the ring safe. -/
lemma PumpStep.embeddingSafe (hstep : PumpStep eng s s') (h : EmbeddingSafe s) :
    EmbeddingSafe s' := by
  cases hstep with
  | bookkeep => exact h.of_same rfl rfl rfl ⟨[], (List.append_nil _).symm, by simp⟩
  | commitGroup group hcommitted hcap _ => exact h.commitGroup hcommitted hcap
  | advanceAdapter committed _ hcap _ hrows =>
    exact h.advanceAdapter hcap fun g hlo hhi => by rw [hrows g hlo hhi]
  | prefill hfresh hready => exact h.prefill hfresh hready
  | decoderStep hprefill _ hmay => exact h.decoderStep hprefill hmay.1
  | deliver p hprefill _ _ => exact h.deliver hprefill

/-- Quiet changes keep the ring safe. -/
lemma EmbeddingSafe.quiet (h : EmbeddingSafe s) (hchange : QuietChange s s') : EmbeddingSafe s' := by
  obtain ⟨more, htrace, hmore⟩ := hchange.trace
  refine h.of_same hchange.audioEmbRing hchange.consumedFloor ?_
    ⟨more, htrace, fun e he => (hmore e he).readsOwnGroups⟩
  rw [hchange.decoder]

/-- Every transition keeps the ring safe. -/
lemma Transition.embeddingSafe (hstep : Transition eng late s s') (h : EmbeddingSafe s) :
    EmbeddingSafe s' := by
  rcases hstep.pump_or_quiet with ⟨-, -, -, -, hpump⟩ | hquiet
  · exact hpump.embeddingSafe h
  · exact h.quiet hquiet

end Steps

/-- A new stream has committed and read nothing. -/
lemma embeddingSafe_create (maxEvents : ℕ) (device : Device ε γ κ) :
    EmbeddingSafe (Stream.create maxEvents device : Stream α φ ε γ κ) where
  within_cap := Nat.zero_le _
  resident := fun p _ hp => absurd hp (Nat.not_lt_zero p)
  reads := by simp [Stream.create]

/-- The audio-embedding ring is never overrun.  At every moment `t` of a run, also within a call, at
most 256 groups are committed from the first position on that the decoder has not consumed, and each
of them is in its slot; every slot the prefill or a decoder step read held the group it was read
for. -/
theorem audio_embedding_ring_safe [Zero α] (eng : Engine α φ ε γ κ) (maxEvents : ℕ)
    (device : Device ε γ κ) (ops : List Op) (s : Stream α φ ε γ κ) (os : List Response)
    (hrun : runSteps (streamStep eng) (Stream.create maxEvents device) ops = some (s, os)) :
    Moves eng True (Stream.create maxEvents device) s ∧
      (∀ t, Moves eng True (Stream.create maxEvents device) t → Moves eng True t s →
        t.decoder.adapterGroupsCommitted ≤ consumedFloor t + aembRingCap ∧
        t.device.audioEmbRing.Resident aembRingCap (consumedFloor t)
          t.decoder.adapterGroupsCommitted) ∧
      (∀ rows, .prefill rows ∈ s.trace → rows.map RingRow.pos = List.range (promptLength - 1)) ∧
      ∀ prevToken position row result, .decoderStep prevToken position row result ∈ s.trace →
        row.pos = position := by
  have hready : OpReady eng True (Stream.create maxEvents device) :=
    opReady_create eng True maxEvents device
  have hsafe : ∀ t, Moves eng True (Stream.create maxEvents device) t → EmbeddingSafe t := fun t =>
    Moves.invariant (fun _ _ hstep _ h => hstep.embeddingSafe h) (fun t h => h.quiet (streamPollEvent_quiet t))
      hready.within
      (embeddingSafe_create maxEvents device)
  obtain ⟨hmoves, -⟩ := runSteps_moves hready (Or.inl trivial) hrun
  have h := hsafe s hmoves
  refine ⟨hmoves, fun t ht _ => ⟨(hsafe t ht).within_cap, (hsafe t ht).resident⟩,
    fun _ hmem => h.reads _ hmem, fun _ _ _ _ hmem => h.reads _ hmem⟩

/-- A finished second of audio: every step of its 24 positions reads its group. -/
theorem audio_embedding_ring_safe_second : ∃ s os,
    runSteps (streamStep (plainEngine defaultSchedule)) (Stream.create 64 plainDevice)
      [feedZeros 16000, .finish] = some (s, os) ∧ s.decoder.decoderPosition = 62 ∧
    ∀ prevToken position row result, .decoderStep prevToken position row result ∈ s.trace →
      row.pos = position := by
  obtain ⟨s, os, hrun, -, halike⟩ := exists_pacedRun (plainEngine_runs defaultSchedule) 64
    [feedZeros 16000, .finish] (by simp [TotalFits])
  simp only [List.map_cons, feedZeros_paced, finish_paced, List.map_nil] at halike
  have hmodel : (pacedRun (plainEngine defaultSchedule) 64 plainDevice
      [.feed false 16000, .finish]).1.decoder.decoderPosition = 62 := by
    decide +kernel
  rw [halike.decoder] at hmodel
  exact ⟨s, os, hrun, hmodel, (audio_embedding_ring_safe (plainEngine defaultSchedule) 64
    plainDevice _ s os hrun).2.2.2⟩

end Voxtral
