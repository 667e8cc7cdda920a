import Voxtral.Mel.Incremental
import Voxtral.Lib.Runs

/-!
# Addressing the Mel history

The frontend stores the computed frames from `mel_base_frame` on; discarding drops stored frames and
moves the base.  Next to a frontend we run one that gets the same audio, is never asked to discard and
so stores every frame since the last reset at its own index.  The addressed frames agree with it as
long as `set_retain_history(false)` never finds stored frames behind a moved base: that call drops
the stored frames and leaves the base where it was.

## Main statements

* `Addressed`: the frames of a frontend are those of the retaining frontend from its base on.
* `melStep_addressed`: one call keeps it.
* `melHistory_addressed`: so does every run in which the history mode is changed harmlessly.
-/

namespace Voxtral

variable {α φ : Type*}

/-- The frontend with another history. -/
def MelFrontend.withHistory (fe : MelFrontend α φ) (frames : List φ) (base : ℕ) (retain : Bool) :
    MelFrontend α φ :=
  { fe with melFrames := frames, melBaseFrame := base, retainHistory := retain }

/-- The calls that decide which frames there are; the other two decide which are stored. -/
def MelCall.bringsFrames : MelCall α → Bool
  | .discardBefore _ => false
  | .setRetainHistory _ => false
  | _ => true

/-- `full` computed the frames `rows` behind what `fe` had. -/
structure Computed (fe full : MelFrontend α φ) (rows : List φ) : Prop where
  frames : full.melFrames = fe.melFrames ++ rows
  next : full.nextFrame = fe.nextFrame + rows.length
  base : full.melBaseFrame = fe.melBaseFrame

/-- `full` stores every frame since the last reset; `fe` stores them from its base on, and is the same
in everything else. -/
structure Addressed (full fe : MelFrontend α φ) : Prop where
  same : fe = full.withHistory fe.melFrames fe.melBaseFrame fe.retainHistory
  complete : full.melFrames.length = full.nextFrame
  base_le : fe.melBaseFrame ≤ full.nextFrame
  frames : fe.melFrames = full.melFrames.drop fe.melBaseFrame

/-- The history mode is not switched off while frames are stored behind a moved base. -/
def KeepsAddress (fe : MelFrontend α φ) (c : MelCall α) : Prop :=
  c = .setRetainHistory false → fe.melBaseFrame = 0 ∨ fe.melFrames = []

/-! ## The loops -/

section Loops

variable {kernel : List α → φ} {fe fe' : MelFrontend α φ} {base : ℕ} {retain : Bool}

/-- A frontend that computed nothing. -/
lemma Computed.refl (fe : MelFrontend α φ) : Computed fe fe [] :=
  ⟨(List.append_nil _).symm, rfl, rfl⟩

/-- The rows computed behind one stored row; `during` and `atFinish` are the new counters. -/
lemma Computed.store {full : MelFrontend α φ} {row : φ} {rows : List φ} {idx : List ℤ}
    {during atFinish : ℕ}
    (h : Computed { storeFrame fe row idx with
      nextFrame := fe.nextFrame + 1
      framesDuringFeed := during
      framesAtFinish := atFinish } full rows) : Computed fe full (row :: rows) := by
  constructor
  · rw [h.frames, storeFrame, List.append_assoc, List.singleton_append]
  · rw [h.next, List.length_cons]
    exact Nat.add_right_comm _ _ _
  · exact h.base

/-- The history has no influence on the frames a feed computes. -/
lemma emitStableLoop_withHistory (fuel : ℕ) (fe : MelFrontend α φ) (frames : List φ)
    (h : emitStableLoop kernel fuel (fe.withHistory frames base retain) = some fe') :
    ∃ full rows, emitStableLoop kernel fuel fe = some full ∧ Computed fe full rows ∧
      fe' = full.withHistory (frames ++ rows) base retain := by
  induction fuel generalizing fe frames with
  | zero =>
    refine ⟨fe, [], rfl, Computed.refl fe, ?_⟩
    rw [List.append_nil]
    exact (Option.some.inj h).symm
  | succ fuel ih =>
    rw [emitStableLoop] at h ⊢
    change (if frameHiIndex fe.nextFrame ≤ (fe.totalReceived : ℤ) - 1 then
      (fillWindow fe fe.nextFrame (narrow32 fe.totalReceived)).bind _ else _) = _ at h
    split_ifs at h ⊢ with hstable
    · obtain ⟨filled, hfill, hrest⟩ := Option.bind_eq_some_iff.mp h
      obtain ⟨full, rows, hfull, hcomputed, hfe'⟩ := ih
        { storeFrame fe (kernel filled.2) filled.1 with
          nextFrame := fe.nextFrame + 1
          framesDuringFeed := fe.framesDuringFeed + 1 } (frames ++ [kernel filled.2]) hrest
      refine ⟨full, kernel filled.2 :: rows, ?_, Computed.store hcomputed, ?_⟩
      · rw [hfill]
        exact hfull
      · rw [hfe', List.append_assoc, List.singleton_append]
    · refine ⟨fe, [], rfl, Computed.refl fe, ?_⟩
      rw [List.append_nil]
      exact (Option.some.inj h).symm

/-- Nor on the frames the finish computes. -/
lemma finishLoop_withHistory (nTotal fuel : ℕ) (fe : MelFrontend α φ) (frames : List φ)
    (h : finishLoop kernel nTotal fuel (fe.withHistory frames base retain) = some fe') :
    ∃ full rows, finishLoop kernel nTotal fuel fe = some full ∧ Computed fe full rows ∧
      fe' = full.withHistory (frames ++ rows) base retain := by
  induction fuel generalizing fe frames with
  | zero =>
    refine ⟨fe, [], rfl, Computed.refl fe, ?_⟩
    rw [List.append_nil]
    exact (Option.some.inj h).symm
  | succ fuel ih =>
    rw [finishLoop] at h ⊢
    change (if fe.nextFrame < nTotal then
      (fillWindow fe fe.nextFrame (narrow32 fe.totalReceived)).bind _ else _) = _ at h
    split_ifs at h ⊢ with hmore
    · obtain ⟨filled, hfill, hrest⟩ := Option.bind_eq_some_iff.mp h
      obtain ⟨full, rows, hfull, hcomputed, hfe'⟩ := ih
        { storeFrame fe (kernel filled.2) filled.1 with
          nextFrame := fe.nextFrame + 1
          framesAtFinish := fe.framesAtFinish + 1 } (frames ++ [kernel filled.2]) hrest
      refine ⟨full, kernel filled.2 :: rows, ?_, Computed.store hcomputed, ?_⟩
      · rw [hfill]
        exact hfull
      · rw [hfe', List.append_assoc, List.singleton_append]
    · refine ⟨fe, [], rfl, Computed.refl fe, ?_⟩
      rw [List.append_nil]
      exact (Option.some.inj h).symm

/-- Compaction does not depend on the history. -/
lemma compact_withHistory (fe : MelFrontend α φ) (frames : List φ) (base : ℕ) (retain : Bool) :
    compact (fe.withHistory frames base retain) = (compact fe).withHistory frames base retain := by
  unfold compact MelFrontend.withHistory
  dsimp only
  split_ifs <;> rfl

/-- Compaction leaves the history. -/
lemma compact_melFrames (fe : MelFrontend α φ) : (compact fe).melFrames = fe.melFrames := by
  simp only [compact]
  split_ifs <;> rfl

end Loops

/-! ## Calls -/

section Calls

variable {kernel : List α → φ} {full fe : MelFrontend α φ}

/-- Computed frames are stored by both. -/
lemma Addressed.computed {full' fe' : MelFrontend α φ} (h : Addressed full fe) {rows : List φ}
    (hcomputed : Computed full full' rows)
    (hfe' : fe' = full'.withHistory (fe.melFrames ++ rows) fe.melBaseFrame fe.retainHistory) :
    Addressed full' fe' where
  same := by rw [hfe']; rfl
  complete := by rw [hcomputed.frames, hcomputed.next, List.length_append, h.complete]
  base_le := by
    rw [hfe', hcomputed.next]
    exact Nat.le_add_right_of_le h.base_le
  frames := by
    rw [hfe', hcomputed.frames]
    change fe.melFrames ++ rows = (full.melFrames ++ rows).drop fe.melBaseFrame
    rw [List.drop_append_of_le_length (by rw [h.complete]; exact h.base_le), ← h.frames]

/-- The history has no influence on the frames a feed computes. -/
lemma melFrontendFeed_withHistory {frames : List φ} {base : ℕ} {retain : Bool} {pcm : List α}
    {r : Bool × MelFrontend α φ}
    (h : melFrontendFeed kernel (fe.withHistory frames base retain) pcm = some r) :
    ∃ full rows, melFrontendFeed kernel fe pcm = some (r.1, full) ∧ Computed fe full rows ∧
      r.2 = full.withHistory (frames ++ rows) base retain := by
  unfold melFrontendFeed at h ⊢
  rw [show (fe.withHistory frames base retain).finalized = fe.finalized from rfl] at h
  split_ifs at h ⊢ with hdone hempty
  · rw [← Option.some.inj h]
    exact ⟨fe, [], rfl, Computed.refl fe, by rw [List.append_nil]⟩
  · rw [← Option.some.inj h]
    exact ⟨fe, [], rfl, Computed.refl fe, by rw [List.append_nil]⟩
  · obtain ⟨emitted, hemit, hr⟩ := Option.map_eq_some_iff.mp h
    obtain ⟨full, rows, hfull, hcomputed, hemitted⟩ := emitStableLoop_withHistory _
      { fe with pcm := fe.pcm ++ pcm, totalReceived := fe.totalReceived + pcm.length } _ hemit
    refine ⟨compact full, rows, ?_, ?_, ?_⟩
    · rw [show emitStableFrames kernel { fe with
        pcm := fe.pcm ++ pcm, totalReceived := fe.totalReceived + pcm.length } = some full
        from hfull, ← hr]
      rfl
    · constructor
      · rw [compact_melFrames, hcomputed.frames]
      · rw [compact_nextFrame, hcomputed.next]
      · rw [compact_melBaseFrame, hcomputed.base]
    · rw [← hr, hemitted, compact_withHistory]
      rfl

/-- A feed keeps the frames at their addresses. -/
lemma Addressed.feed (h : Addressed full fe) {pcm : List α} {r : Bool × MelFrontend α φ}
    (hfeed : melFrontendFeed kernel fe pcm = some r) :
    ∃ full', melFrontendFeed kernel full pcm = some (r.1, full') ∧ Addressed full' r.2 := by
  rw [h.same] at hfeed
  obtain ⟨full', rows, hfull, hcomputed, hr⟩ := melFrontendFeed_withHistory hfeed
  exact ⟨full', hfull, h.computed hcomputed hr⟩

/-- So does the finish. -/
lemma Addressed.finish (h : Addressed full fe) {fe' : MelFrontend α φ}
    (hfinish : melFrontendFinish kernel fe = some fe') :
    ∃ full', melFrontendFinish kernel full = some full' ∧ Addressed full' fe' := by
  have hfinal : fe.finalized = full.finalized := by rw [h.same]; rfl
  unfold melFrontendFinish at hfinish ⊢
  rw [hfinal] at hfinish
  split_ifs at hfinish ⊢ with hdone
  · rw [← Option.some.inj hfinish]
    exact ⟨full, rfl, h⟩
  · obtain ⟨emitted, hemit, hr⟩ := Option.map_eq_some_iff.mp hfinish
    rw [h.same] at hemit
    obtain ⟨full₁, rows, hfull, hcomputed, hemitted⟩ := finishLoop_withHistory _ _
      { full with finalized := true } _ hemit
    refine ⟨{ full₁ with pcm := [], pcmBase := full₁.totalReceived }, ?_, ?_⟩
    · change (finishLoop kernel (full.totalReceived / hopLength)
        (full.totalReceived / hopLength - full.nextFrame) { full with finalized := true }).map _ = _
      rw [show finishLoop kernel (full.totalReceived / hopLength)
        (full.totalReceived / hopLength - full.nextFrame) { full with finalized := true } =
          some full₁ from hfull]
      rfl
    · rw [← hr, hemitted]
      exact h.computed ⟨hcomputed.frames, hcomputed.next, hcomputed.base⟩ rfl

/-- Discarding moves the base over the frames it drops. -/
lemma Addressed.discardBefore (h : Addressed full fe) (frame : ℤ) :
    Addressed full (melFrontendDiscardBefore fe frame) := by
  have hlen : fe.melFrames.length = full.nextFrame - fe.melBaseFrame := by
    rw [h.frames, List.length_drop, h.complete]
  have hbase := h.base_le
  unfold melFrontendDiscardBefore
  dsimp only
  split_ifs with hretain hbefore hnone
  · exact h
  · exact h
  · exact h
  · constructor
    · rw [h.same]
      rfl
    · exact h.complete
    · change (min frame (fe.melBaseFrame + fe.melFrames.length : ℤ)).toNat ≤ full.nextFrame
      omega
    · change fe.melFrames.drop _ = full.melFrames.drop _
      have hto : fe.melBaseFrame +
          (min frame (fe.melBaseFrame + fe.melFrames.length : ℤ) - fe.melBaseFrame).toNat =
            (min frame (fe.melBaseFrame + fe.melFrames.length : ℤ)).toNat := by omega
      rw [← hto, ← List.drop_drop, ← h.frames]

/-- Changing the history mode keeps the addresses when nothing is dropped. -/
lemma Addressed.setRetainHistory (h : Addressed full fe) {retain : Bool}
    (hkeep : KeepsAddress fe (.setRetainHistory retain)) :
    Addressed full (melFrontendSetRetainHistory fe retain) := by
  unfold melFrontendSetRetainHistory
  dsimp only
  split_ifs with hdrop
  · have hnone : fe.melFrames = [] := by
      rcases hkeep (by rw [hdrop.1]) with hzero | hnone
      · omega
      · exact hnone
    refine ⟨?_, h.complete, h.base_le, ?_⟩
    · rw [h.same]
      rfl
    · change [] = full.melFrames.drop fe.melBaseFrame
      rw [← h.frames, hnone]
  · refine ⟨?_, h.complete, h.base_le, h.frames⟩
    rw [h.same]
    rfl

/-- After a reset there is nothing to address. -/
lemma Addressed.reset (full fe : MelFrontend α φ) :
    Addressed (melFrontendReset full) (melFrontendReset fe) :=
  ⟨rfl, rfl, le_rfl, rfl⟩

/-- One call keeps the addresses, unless it drops frames the base does not move over; the calls that
bring no frames leave the retaining frontend alone. -/
lemma melStep_addressed [Zero α] (h : Addressed full fe) {c : MelCall α} (hkeep : KeepsAddress fe c)
    {fe' : MelFrontend α φ} {o : Bool} (hstep : melStep kernel fe c = some (fe', o)) :
    if c.bringsFrames then
      ∃ full', melStep kernel full c = some (full', o) ∧ Addressed full' fe'
    else Addressed full fe' := by
  cases c with
  | feed pcm =>
    obtain ⟨r, hfeed, hr⟩ := Option.map_eq_some_iff.mp hstep
    obtain ⟨full', hfull, hnext⟩ := h.feed hfeed
    obtain ⟨rfl, rfl⟩ := Prod.mk.inj hr
    refine ⟨full', ?_, hnext⟩
    rw [melStep, hfull]
    rfl
  | feedSilence n =>
    obtain ⟨r, hfeed, hr⟩ := Option.map_eq_some_iff.mp hstep
    obtain ⟨full', hfull, hnext⟩ := h.feed hfeed
    obtain ⟨rfl, rfl⟩ := Prod.mk.inj hr
    refine ⟨full', ?_, hnext⟩
    rw [melStep, melFrontendFeedSilence, hfull]
    rfl
  | finish =>
    obtain ⟨fe₁, hfinish, hr⟩ := Option.map_eq_some_iff.mp hstep
    obtain ⟨full', hfull, hnext⟩ := h.finish hfinish
    obtain ⟨rfl, rfl⟩ := Prod.mk.inj hr
    refine ⟨full', ?_, hnext⟩
    rw [melStep, hfull]
    rfl
  | discardBefore frame =>
    obtain ⟨rfl, -⟩ := Prod.mk.inj (Option.some.inj hstep)
    exact h.discardBefore frame
  | setRetainHistory retain =>
    obtain ⟨rfl, -⟩ := Prod.mk.inj (Option.some.inj hstep)
    exact h.setRetainHistory hkeep
  | reset =>
    obtain ⟨rfl, rfl⟩ := Prod.mk.inj (Option.some.inj hstep)
    exact ⟨melFrontendReset full, rfl, Addressed.reset full fe⟩

/-- A frame that is handed out is the frame asked for. -/
lemma Addressed.frameData (h : Addressed full fe) {frame : ℤ} {rows : List φ}
    (hdata : melFrontendFrameData fe frame = some rows) :
    0 ≤ frame ∧ frame < fe.nextFrame ∧ rows = full.melFrames.drop frame.toNat := by
  unfold melFrontendFrameData at hdata
  dsimp only at hdata
  split_ifs at hdata with hout hrel
  refine ⟨by omega, by omega, ?_⟩
  rw [← Option.some.inj hdata, h.frames, List.drop_drop]
  congr 1
  omega

/-- The stored frames end at the next frame. -/
lemma Addressed.base_add_length (h : Addressed full fe) :
    fe.melBaseFrame + fe.melFrames.length = fe.nextFrame := by
  have hnext : fe.nextFrame = full.nextFrame := by rw [h.same]; rfl
  have hbase := h.base_le
  rw [h.frames, List.length_drop, h.complete, hnext]
  omega

/-- Switching the history mode off while frames are stored behind a moved base breaks the count at
once. -/
lemma Addressed.count_iff (h : Addressed full fe) [Zero α] {c : MelCall α} {fe' : MelFrontend α φ}
    {o : Bool} (hstep : melStep kernel fe c = some (fe', o)) :
    fe'.melBaseFrame + fe'.melFrames.length = fe'.nextFrame ↔ KeepsAddress fe c := by
  constructor
  · rintro hcount rfl
    obtain ⟨rfl, -⟩ := Prod.mk.inj (Option.some.inj hstep)
    by_contra hbad
    obtain ⟨hbase, hstored⟩ := not_or.mp hbad
    have hlen : 0 < fe.melFrames.length := List.length_pos_iff.mpr hstored
    have hbefore := h.base_add_length
    unfold melFrontendSetRetainHistory at hcount
    rw [if_pos ⟨rfl, Nat.pos_of_ne_zero hbase⟩] at hcount
    change fe.melBaseFrame + 0 = fe.nextFrame at hcount
    omega
  · intro hkeep
    have hnext := melStep_addressed h hkeep hstep
    split_ifs at hnext
    · obtain ⟨full', -, haddr⟩ := hnext
      exact haddr.base_add_length
    · exact hnext.base_add_length

end Calls

/-! ## Runs -/

/-- **History addressing** in every run that never switches the history mode off while frames are
stored behind a moved base; the first call that does breaks it.  The frames handed out are those of
the frontend that got the same audio and stores all of its frames. -/
theorem melHistory_addressed [Zero α] (kernel : List α → φ) (calls : List (MelCall α))
    (hkeep : RunMeets (melStep kernel) KeepsAddress {} calls) {fe : MelFrontend α φ}
    {os : List Bool} (hrun : runSteps (melStep kernel) {} calls = some (fe, os)) :
    fe.melBaseFrame + fe.melFrames.length = fe.nextFrame ∧
      (∃ full fullOs,
        runSteps (melStep kernel) {} (calls.filter MelCall.bringsFrames) = some (full, fullOs) ∧
        full.nextFrame = fe.nextFrame ∧ full.melFrames.length = full.nextFrame ∧
        ∀ (frame : ℤ) (rows : List φ), melFrontendFrameData fe frame = some rows →
          0 ≤ frame ∧ frame < fe.nextFrame ∧ rows = full.melFrames.drop frame.toNat) ∧
      ∀ c fe' o, melStep kernel fe c = some (fe', o) →
        (fe'.melBaseFrame + fe'.melFrames.length = fe'.nextFrame ↔ KeepsAddress fe c) := by
  have hrel : ∃ full fullOs,
      runSteps (melStep kernel) {} (calls.filter MelCall.bringsFrames) = some (full, fullOs) ∧
        Addressed full fe := by
    refine runSteps_induction_of_meets (P := fun fe calls _ => ∃ full fullOs,
      runSteps (melStep kernel) {} (calls.filter MelCall.bringsFrames) = some (full, fullOs) ∧
        Addressed full fe) ?_ ⟨{}, [], rfl, rfl, rfl, le_rfl, rfl⟩ hkeep hrun
    rintro fe calls os c fe' o ⟨full, fullOs, hfull, haddr⟩ hc hstep
    have hnext := melStep_addressed haddr hc hstep
    rw [List.filter_append, List.filter_singleton]
    split_ifs at hnext with hbrings
    · obtain ⟨full', hfull', haddr'⟩ := hnext
      refine ⟨full', fullOs ++ [o], ?_, haddr'⟩
      rw [hbrings, cond_true]
      exact runSteps_append.mpr
        ⟨full, fullOs, [o], hfull, runSteps_singleton.mpr ⟨o, hfull', rfl⟩, rfl⟩
    · refine ⟨full, fullOs, ?_, hnext⟩
      rw [Bool.eq_false_iff.mpr hbrings, cond_false, List.append_nil]
      exact hfull
  obtain ⟨full, fullOs, hfull, haddr⟩ := hrel
  refine ⟨haddr.base_add_length, ⟨full, fullOs, hfull, by rw [haddr.same]; rfl, haddr.complete, ?_⟩,
    ?_⟩
  · intro frame rows hdata
    exact haddr.frameData hdata
  · intro c fe' o hstep
    exact haddr.count_iff hstep

/-! ## A reused frontend -/

/-- A bounded frontend that computed two frames and gave up the first. -/
lemma melStep_discarded (kernel : List ℕ → ℕ) :
    ∃ fe, runSteps (melStep kernel) {}
        [.setRetainHistory false, .feed (List.range 361), .discardBefore 1] =
          some (fe, [true, true, true]) ∧
      MelReady kernel (List.range 361) fe ∧ fe.melBaseFrame = 1 := by
  have hinit : MelReady kernel ([] : List ℕ) ({ retainHistory := false } : MelFrontend ℕ ℕ) :=
    melReady_init false
  obtain ⟨fe, hfeed, hready, hbase, hretain⟩ := melFrontendFeed_ready hinit (List.range 361)
    (Or.inl (by rw [List.nil_append, List.length_range]; norm_num))
  rw [List.nil_append] at hready
  have hnext : fe.nextFrame = 2 := by
    rw [hready.next, List.length_range]
    rfl
  have hlen : fe.melFrames.length = 2 := by
    rw [hready.frames, hbase, hnext]
    rfl
  refine ⟨melFrontendDiscardBefore fe 1, ?_, hready.discardBefore 1, ?_⟩
  · refine runSteps_cons_eq_some.mpr ⟨{ retainHistory := false }, true, _, rfl, ?_, rfl⟩
    refine runSteps_cons_eq_some.mpr ⟨fe, true, _, ?_, rfl, rfl⟩
    rw [melStep, hfeed]
    rfl
  · unfold melFrontendDiscardBefore
    rw [if_neg (by rw [hretain]; decide), if_neg (by rw [hbase]; decide)]
    dsimp only
    rw [hbase, hlen]
    rfl

/-- The base moved, and nothing is misaddressed. -/
theorem melHistory_addressed_discarded :
    ∃ (fe full : MelFrontend ℕ ℕ) (fullOs : List Bool),
      runSteps (melStep fun w : List ℕ => w.headD 0) {} [.feed (List.range 361)] =
        some (full, fullOs) ∧
      fe.melBaseFrame = 1 ∧ fe.melBaseFrame + fe.melFrames.length = fe.nextFrame ∧
      ∀ (frame : ℤ) (rows : List ℕ), melFrontendFrameData fe frame = some rows →
        0 ≤ frame ∧ frame < fe.nextFrame ∧ rows = full.melFrames.drop frame.toNat := by
  obtain ⟨fe, hrun, -, hbase⟩ := melStep_discarded fun w => w.headD 0
  have hkeep : RunMeets (melStep fun w : List ℕ => w.headD 0) KeepsAddress {}
      [.setRetainHistory false, .feed (List.range 361), .discardBefore 1] :=
    ⟨fun _ => Or.inl rfl, fun _ _ _ => ⟨nofun, fun _ _ _ => ⟨nofun, fun _ _ _ => trivial⟩⟩⟩
  obtain ⟨hcount, ⟨full, fullOs, hfull, -, -, hdata⟩, -⟩ := melHistory_addressed _ _ hkeep hrun
  exact ⟨fe, full, fullOs, hfull, hbase, hcount, hdata⟩

/-- The frontend is switched to the bounded mode once more and gets another frame. -/
def reusedHistory : List (MelCall ℕ) :=
  [.setRetainHistory false, .feed (List.range 361), .discardBefore 1] ++
    [.setRetainHistory false, .feed (List.range' 361 160)]

/-- What the same audio gives when everything is stored. -/
lemma reusedHistory_full :
    ∃ full, runSteps (melStep fun w : List ℕ => w.headD 0) {}
        (reusedHistory.filter MelCall.bringsFrames) = some (full, [true, true]) ∧
      full.melFrames = [200, 40, 120] := by
  have hinit : MelReady (fun w : List ℕ => w.headD 0) [] {} := melReady_init true
  obtain ⟨full₁, hfeed₁, hready₁, hbase₁, -⟩ := melFrontendFeed_ready hinit (List.range 361)
    (Or.inl (by rw [List.nil_append, List.length_range]; norm_num))
  rw [List.nil_append] at hready₁
  obtain ⟨full₂, hfeed₂, hready₂, hbase₂, -⟩ := melFrontendFeed_ready hready₁ (List.range' 361 160)
    (Or.inl (by rw [List.length_append, List.length_range, List.length_range']; norm_num))
  have hnext : full₂.nextFrame = 3 := by
    rw [hready₂.next, List.length_append, List.length_range, List.length_range']
    rfl
  refine ⟨full₂, ?_, ?_⟩
  · have hfilter : reusedHistory.filter MelCall.bringsFrames =
        [.feed (List.range 361), .feed (List.range' 361 160)] := by
      simp only [reusedHistory, List.cons_append, List.nil_append, List.filter,
        MelCall.bringsFrames]
    rw [hfilter]
    refine runSteps_cons_eq_some.mpr ⟨full₁, true, [true], ?_, ?_, rfl⟩
    · rw [melStep, hfeed₁]
      rfl
    · refine runSteps_singleton.mpr ⟨true, ?_, rfl⟩
      rw [melStep, hfeed₂]
      rfl
  · rw [hready₂.frames, hbase₂, hbase₁, hnext]
    decide +kernel

/-- The second call that switches the history mode off drops frame 1 and leaves the base at it; then
frame 2 is handed out as frame 1. -/
theorem melHistory_misaddressed :
    ∃ fe os full fullOs,
      runSteps (melStep fun w : List ℕ => w.headD 0) {} reusedHistory = some (fe, os) ∧
      runSteps (melStep fun w : List ℕ => w.headD 0) {}
        (reusedHistory.filter MelCall.bringsFrames) = some (full, fullOs) ∧
      fe.melBaseFrame + fe.melFrames.length ≠ fe.nextFrame ∧
      melFrontendFrameData fe 1 = some [120] ∧ full.melFrames.drop 1 = [40, 120] := by
  obtain ⟨fe₁, hrun₁, hready₁, hbase₁⟩ := melStep_discarded fun w => w.headD 0
  obtain ⟨fe₂, hfeed₂, hready₂, hbase₂, -⟩ := melFrontendFeed_ready hready₁ (List.range' 361 160)
    (Or.inl (by rw [List.length_append, List.length_range, List.length_range']; norm_num))
  have hnext₁ : fe₁.nextFrame = 2 := by
    rw [hready₁.next, List.length_range]
    rfl
  have hnext₂ : fe₂.nextFrame = 3 := by
    rw [hready₂.next, List.length_append, List.length_range, List.length_range']
    rfl
  -- the frontend that dropped its frames computes what the other one does
  have hdropped : melFrontendSetRetainHistory fe₁ false = fe₁.withHistory [] 1 false := by
    unfold melFrontendSetRetainHistory
    rw [if_pos ⟨rfl, by rw [hbase₁]; decide⟩, MelFrontend.withHistory, hbase₁]
  have hsame : fe₁ = (fe₁.withHistory [] 1 false).withHistory fe₁.melFrames 1 fe₁.retainHistory := by
    rw [← hbase₁]
    rfl
  rw [hsame] at hfeed₂
  obtain ⟨fe₃, rows, hfeed₃, hcomputed, hfe₂⟩ := melFrontendFeed_withHistory hfeed₂
  have hrows : fe₂.melFrames = fe₁.melFrames ++ rows := by
    rw [show fe₂ = _ from hfe₂]
    rfl
  have hvalues₁ : fe₁.melFrames = [40] := by
    rw [hready₁.frames, hbase₁, hnext₁]
    decide +kernel
  have hvalues₂ : fe₂.melFrames = [40, 120] := by
    rw [hready₂.frames, hbase₂, hbase₁, hnext₂]
    decide +kernel
  rw [hvalues₁, hvalues₂] at hrows
  have hlast : rows = [120] := (List.cons.inj hrows).2.symm
  have hstored : fe₃.melFrames = [120] := by
    rw [hcomputed.frames, hlast]
    rfl
  have hbase₃ : fe₃.melBaseFrame = 1 := by
    rw [hcomputed.base]
    rfl
  have hnext₃ : fe₃.nextFrame = 3 := by
    rw [← hnext₂, show fe₂ = _ from hfe₂]
    rfl
  obtain ⟨full, hfull, hframes⟩ := reusedHistory_full
  refine ⟨fe₃, [true, true, true] ++ [true, true], full, _, ?_, hfull, ?_, ?_, ?_⟩
  · refine runSteps_append.mpr ⟨fe₁, _, [true, true], hrun₁, ?_, rfl⟩
    refine runSteps_cons_eq_some.mpr ⟨fe₁.withHistory [] 1 false, true, [true], ?_, ?_, rfl⟩
    · rw [melStep, hdropped]
    · refine runSteps_singleton.mpr ⟨true, ?_, rfl⟩
      rw [melStep, hfeed₃]
      rfl
  · rw [hbase₃, hstored, hnext₃]
    decide
  · unfold melFrontendFrameData
    rw [hbase₃, hstored, hnext₃]
    decide
  · rw [hframes]
    rfl

end Voxtral
