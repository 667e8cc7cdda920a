import Voxtral.Encoder.KvPlan
import Voxtral.Lib.RingSlots
import Voxtral.Lib.Runs

/-!
# Plans over a run of batches

The plans of contiguous batches, each at most the headroom of the ring beside a whole window.  A plan
reads the slots of the causal window of its batch, writes those of its new frames, and moves the retained
range of `window` frames up to the new head.
-/

namespace Voxtral

/-! ## Segments -/

/-- The slots of a segment. -/
def EncKvSeg.slots (seg : EncKvSeg) : List ℕ := List.range' seg.slot seg.len

section Segments

variable {q n capacity : ℕ}

/-- The segments of a range enumerate its slots in the order of the positions. -/
lemma encKvRingSegments_slots (hcap : 0 < capacity) (hn : n ≤ capacity) :
    (encKvRingSegments q n capacity).flatMap EncKvSeg.slots = ringSlots capacity q n := by
  have hlt := Nat.mod_lt q hcap
  unfold encKvRingSegments
  dsimp only
  by_cases hzero : n = 0
  · rw [if_pos hzero, hzero]
    rfl
  rw [if_neg hzero]
  by_cases hroom : n ≤ capacity - q % capacity
  · rw [min_eq_left hroom, if_pos le_rfl, ringSlots_of_room (by omega)]
    simp [EncKvSeg.slots]
  · rw [min_eq_right (by omega), if_neg hroom, ringSlots_of_wrapped hcap (by omega) hn]
    simp [EncKvSeg.slots]

/-- There are two segments when the range crosses the end of the ring. -/
lemma encKvRingSegments_wraps (hcap : 0 < capacity) :
    1 < (encKvRingSegments q n capacity).length ↔ ∃ m, q < m * capacity ∧ m * capacity < q + n := by
  rw [crosses_iff hcap]
  unfold encKvRingSegments
  dsimp only
  by_cases hzero : n = 0
  · simp [hzero]
  rw [if_neg hzero]
  by_cases hroom : n ≤ capacity - q % capacity
  · rw [min_eq_left hroom, if_pos le_rfl]
    simp only [List.length_singleton, lt_self_iff_false, false_iff]
    omega
  · rw [min_eq_right (by omega), if_neg hroom]
    simp only [List.length_cons, List.length_nil, Nat.lt_add_one, true_iff]
    omega

end Segments

/-! ## One batch -/

/-- The plan of the batch `[q, q + n)` reads its window, and writes its frames beside it. -/
structure BatchPlanned (capacity window q n : ℕ) (plan : EncKvPlan) : Prop where
  bounds : plan.winStart = q - (window - 1) ∧ plan.winEnd = q + n ∧ plan.winLen = plan.winEnd - plan.winStart
  read : plan.readSeg.flatMap EncKvSeg.slots = ringSlots capacity plan.winStart plan.winLen
  distinct : (plan.readSeg.flatMap EncKvSeg.slots).Nodup
  write : plan.writeSeg.flatMap EncKvSeg.slots = ringSlots capacity q n
  /-- No frame of the window is overwritten. -/
  kept : ∀ f, plan.winStart ≤ f → f < q → f % capacity ∉ plan.writeSeg.flatMap EncKvSeg.slots
  readWraps : plan.readWraps = true ↔
    ∃ m, plan.winStart < m * capacity ∧ m * capacity < plan.winEnd
  writeWraps : plan.writeWraps = true ↔ ∃ m, q < m * capacity ∧ m * capacity < q + n

section Batch

variable {capacity window q n : ℕ}

/-- A batch that fits the ring next to a window has a plan, which retires the frames behind the window of
the new head. -/
lemma encKvPlan_planned (hwindow : 1 ≤ window) (hn : 1 ≤ n) (hroom : n + window ≤ capacity) :
    ∃ plan, encKvPlan q n capacity window = some plan ∧ BatchPlanned capacity window q n plan ∧
      plan.evicted = (q + n - window) - (q - window) := by
  have hcap : 0 < capacity := by omega
  have hlen : q + n - (q - (window - 1)) ≤ capacity := by omega
  unfold encKvPlan
  rw [if_neg (by omega), if_neg (by omega)]
  refine ⟨_, rfl, ?_, rfl⟩
  have hread := encKvRingSegments_slots (q := q - (window - 1)) hcap hlen
  have hwrite := encKvRingSegments_slots (q := q) (n := n) hcap (by omega)
  refine ⟨⟨rfl, rfl, rfl⟩, hread, ?_, hwrite, ?_, ?_, ?_⟩
  · change ((encKvRingSegments _ _ _).flatMap EncKvSeg.slots).Nodup
    rw [hread]
    exact ringSlots_nodup hlen
  · intro f hlo hlt
    change f % capacity ∉ (encKvRingSegments q n capacity).flatMap EncKvSeg.slots
    rw [hwrite]
    change q - (window - 1) ≤ f at hlo
    exact not_mem_ringSlots hlt (by omega)
  · have hend : q - (window - 1) + (q + n - (q - (window - 1))) = q + n := by omega
    have hwraps := encKvRingSegments_wraps (q := q - (window - 1))
      (n := q + n - (q - (window - 1))) hcap
    rw [hend] at hwraps
    exact decide_eq_true_iff.trans hwraps
  · exact decide_eq_true_iff.trans (encKvRingSegments_wraps hcap)

end Batch

/-! ## Runs -/

/-- Plan the next batch, and move the head behind it. -/
def planBatch (capacity window head n : ℕ) : Option (ℕ × EncKvPlan) :=
  (encKvPlan head n capacity window).map fun plan => (head + n, plan)

/-- A run of batches from any head. -/
lemma planBatch_run {capacity window : ℕ} (hwindow : 1 ≤ window) {batches : List ℕ}
    (hfits : ∀ n ∈ batches, 1 ≤ n ∧ n + window ≤ capacity) (head : ℕ) :
    ∃ plans, runSteps (planBatch capacity window) head batches = some (head + batches.sum, plans) ∧
      (∀ k n, batches[k]? = some n → ∃ plan, plans[k]? = some plan ∧
        BatchPlanned capacity window (head + (batches.take k).sum) n plan) ∧
      (plans.map EncKvPlan.evicted).sum = (head + batches.sum - window) - (head - window) := by
  induction batches generalizing head with
  | nil => exact ⟨[], rfl, fun k n h => by simp at h, by simp⟩
  | cons n batches ih =>
    obtain ⟨hn, hroom⟩ := hfits n (List.mem_cons_self ..)
    obtain ⟨plan, hplan, hplanned, hevicted⟩ := encKvPlan_planned (q := head) hwindow hn hroom
    obtain ⟨plans, hrun, hall, hsum⟩ :=
      ih (fun m hm => hfits m (List.mem_cons_of_mem _ hm)) (head + n)
    refine ⟨plan :: plans, ?_, ?_, ?_⟩
    · have hstep : planBatch capacity window head n = some (head + n, plan) := by
        rw [planBatch, hplan]
        rfl
      rw [List.sum_cons, ← Nat.add_assoc]
      exact runSteps_cons_eq_some.mpr ⟨_, _, _, hstep, hrun, rfl⟩
    · intro k m hm
      cases k with
      | zero =>
        obtain rfl := Option.some.inj hm
        exact ⟨plan, rfl, hplanned⟩
      | succ k =>
        obtain ⟨plan', hplan', hplanned'⟩ := hall k m hm
        refine ⟨plan', hplan', ?_⟩
        rw [List.take_succ_cons, List.sum_cons, ← Nat.add_assoc]
        exact hplanned'
    · rw [List.map_cons, List.sum_cons, hsum, hevicted, List.sum_cons]
      omega

/-- Every run of contiguous batches from the start of a stream is planned, each batch exactly, and the
frames the plans retire are all but the last `window` ones. -/
theorem enc_kv_plan_runs {capacity window : ℕ} (hwindow : 1 ≤ window) {batches : List ℕ}
    (hfits : ∀ n ∈ batches, 1 ≤ n ∧ (n : ℤ) ≤ (capacity : ℤ) - window) :
    ∃ plans, runSteps (planBatch capacity window) 0 batches = some (batches.sum, plans) ∧
      (∀ k n, batches[k]? = some n → ∃ plan, plans[k]? = some plan ∧
        BatchPlanned capacity window (batches.take k).sum n plan) ∧
      (plans.map EncKvPlan.evicted).sum = batches.sum - min batches.sum window := by
  have hroom : ∀ n ∈ batches, 1 ≤ n ∧ n + window ≤ capacity := by
    intro n hn
    obtain ⟨hpos, hle⟩ := hfits n hn
    exact ⟨hpos, by omega⟩
  obtain ⟨plans, hrun, hall, hsum⟩ := planBatch_run hwindow hroom 0
  simp only [Nat.zero_add] at hrun hall hsum
  exact ⟨plans, hrun, hall, by omega⟩

/-- Four batches in a ring of seven frames with a window of three. -/
theorem enc_kv_plan_runs_small :
    ∃ plans, runSteps (planBatch 7 3) 0 [4, 2, 4, 1] = some (11, plans) ∧
      (∀ k n, [4, 2, 4, 1][k]? = some n → ∃ plan, plans[k]? = some plan ∧
        BatchPlanned 7 3 ([4, 2, 4, 1].take k).sum n plan) ∧
      (plans.map EncKvPlan.evicted).sum = 8 :=
  enc_kv_plan_runs (by decide) (by decide)

end Voxtral
