import Voxtral.Decoder.StepGraph
import Voxtral.Encoder.KvPlanRuns
import Voxtral.Lib.Narrowing

/-!
# Appends to the decoder ring

The plan and the commit of an append on the integers of their declared types: positions and the capacity
are 64 bits wide, slots and lengths 32, so the capacity is narrowed where it addresses slots.  Below
`2 ^ 31` the narrowing is exact (`rawKvPlan_raw`), and every sequence of appends keeps the ring record in
step with the positions it retains.
-/

namespace Voxtral

/-! ## The declared types -/

/-- `voxtral_decoder_kv_ring`. -/
structure RawKvRing where
  capacity : ℤ
  used : ℤ := 0
  oldestAbsolutePosition : ℤ := 0
  nextAbsolutePosition : ℤ := 0
  wraps : ℤ := 0
  evictions : ℤ := 0
  deriving DecidableEq

/-- `voxtral_decoder_kv_seg`. -/
structure RawKvSeg where
  slot : ℤ
  len : ℤ
  deriving DecidableEq

/-- `voxtral_decoder_kv_plan_t`. -/
structure RawKvPlan where
  absoluteStart : ℤ
  nNew : ℤ
  writeSeg : List RawKvSeg
  readSeg : List RawKvSeg
  usedAfter : ℤ
  oldestAfter : ℤ
  nextAfter : ℤ
  evicted : ℤ
  wrapped : Bool
  deriving DecidableEq

/-- `decoder_kv_segments`; `len` and `capacity` have 32 bits. -/
def rawKvSegments (absoluteStart len capacity : ℤ) : List RawKvSeg :=
  if len ≤ 0 then []
  else
    let slot := narrow32 (absoluteStart.tmod capacity)
    let first := min len (narrow32 (capacity - slot))
    if first = len then [⟨slot, first⟩] else [⟨slot, first⟩, ⟨0, narrow32 (len - first)⟩]

/-- `voxtral_decoder_kv_plan`. -/
def rawKvPlan (ring : RawKvRing) (absoluteStart nNew : ℤ) : Option RawKvPlan :=
  if ring.capacity ≤ 0 ∨ ring.used < 0 ∨ ring.capacity < ring.used ∨
      ring.oldestAbsolutePosition < 0 ∨ ring.nextAbsolutePosition < 0 ∨
      ring.oldestAbsolutePosition + ring.used ≠ ring.nextAbsolutePosition ∨
      absoluteStart ≠ ring.nextAbsolutePosition ∨ nNew ≤ 0 ∨ ring.capacity < nNew then none
  else
    let nextAfter := absoluteStart + nNew
    let usedAfter := min ring.capacity (ring.used + nNew)
    let oldestAfter := nextAfter - usedAfter
    let previousCycle :=
      if absoluteStart = 0 then 0 else (absoluteStart - 1).tdiv ring.capacity
    some
      { absoluteStart, nNew
        writeSeg := rawKvSegments absoluteStart nNew (narrow32 ring.capacity)
        readSeg := rawKvSegments oldestAfter (narrow32 usedAfter) (narrow32 ring.capacity)
        usedAfter, oldestAfter, nextAfter
        evicted := max 0 (ring.used + nNew - ring.capacity)
        wrapped := previousCycle < (nextAfter - 1).tdiv ring.capacity }

/-- `decoder_kv_commit_plan`. -/
def RawKvRing.commitPlan (ring : RawKvRing) (plan : RawKvPlan) : RawKvRing :=
  { ring with
    used := plan.usedAfter
    oldestAbsolutePosition := plan.oldestAfter
    nextAbsolutePosition := plan.nextAfter
    evictions := ring.evictions + plan.evicted
    wraps := if plan.wrapped then ring.wraps + 1 else ring.wraps }

/-- Append `nNew` positions from `absoluteStart` on: a plan, and its commit if there is one. -/
def appendKv (ring : RawKvRing) (call : ℤ × ℤ) : RawKvRing × Option RawKvPlan :=
  match rawKvPlan ring call.1 call.2 with
  | none => (ring, none)
  | some plan => (ring.commitPlan plan, some plan)

/-! ## Capacities of 31 bits -/

/-- The ring record on natural numbers. -/
def DecoderKvRing.raw (ring : DecoderKvRing) : RawKvRing :=
  ⟨ring.capacity, ring.used, ring.oldestAbsolutePosition, ring.nextAbsolutePosition, ring.wraps,
    ring.evictions⟩

/-- A segment on natural numbers. -/
def rawSeg (seg : DecoderKvSeg) : RawKvSeg := ⟨seg.slot, seg.len⟩

/-- The plan on natural numbers. -/
def DecoderKvPlan.raw (plan : DecoderKvPlan) : RawKvPlan where
  absoluteStart := plan.absoluteStart
  nNew := plan.nNew
  writeSeg := plan.writeSeg.map rawSeg
  readSeg := plan.readSeg.map rawSeg
  usedAfter := plan.usedAfter
  oldestAfter := plan.oldestAfter
  nextAfter := plan.nextAfter
  evicted := plan.evicted
  wrapped := plan.wrapped

section Narrow

variable {len capacity : ℕ} {ring : DecoderKvRing}

/-- No slot and no length of such a ring is narrowed. -/
lemma rawKvSegments_raw (start : ℕ) (hcap : 0 < capacity) (h32 : capacity < 2 ^ 31) (hlen : len ≤ capacity) :
    rawKvSegments start len capacity = (decoderKvSegments start len capacity).map rawSeg := by
  have hlt := Nat.mod_lt start hcap
  have hslot : narrow32 ((start : ℤ).tmod capacity) = ((start % capacity : ℕ) : ℤ) := by
    rw [Int.tmod_eq_emod_of_nonneg (Int.natCast_nonneg start), ← Int.natCast_mod]
    exact narrow32_of_fits (by omega) (by omega)
  have hroom : narrow32 ((capacity : ℤ) - (start % capacity : ℕ)) =
      ((capacity - start % capacity : ℕ) : ℤ) := by
    rw [narrow32_of_fits (by omega) (by omega)]
    omega
  unfold rawKvSegments decoderKvSegments
  dsimp only
  rw [hslot, hroom]
  by_cases hzero : len = 0
  · rw [if_pos (by omega), if_pos hzero]
    rfl
  rw [if_neg (by omega), if_neg hzero]
  by_cases hfits : len ≤ capacity - start % capacity
  · rw [min_eq_left (by omega), min_eq_left hfits, if_pos rfl, if_pos rfl]
    rfl
  · have hlast : (len : ℤ) - ((capacity - start % capacity : ℕ) : ℤ) =
        ((len - (capacity - start % capacity) : ℕ) : ℤ) := by omega
    rw [min_eq_right (by omega), min_eq_right (by omega), if_neg (by omega), if_neg (by omega),
      narrow32_of_fits (by omega) (by omega), hlast]
    rfl

/-- The guards of the two plans. -/
lemma rawGuard_iff (ring : DecoderKvRing) (start n : ℤ) :
    (ring.raw.capacity ≤ 0 ∨ ring.raw.used < 0 ∨ ring.raw.capacity < ring.raw.used ∨
      ring.raw.oldestAbsolutePosition < 0 ∨ ring.raw.nextAbsolutePosition < 0 ∨
      ring.raw.oldestAbsolutePosition + ring.raw.used ≠ ring.raw.nextAbsolutePosition ∨
      start ≠ ring.raw.nextAbsolutePosition ∨ n ≤ 0 ∨ ring.raw.capacity < n) ↔
    (start < 0 ∨ n < 0 ∨ ring.capacity = 0 ∨ ring.capacity < ring.used ∨
      ring.oldestAbsolutePosition + ring.used ≠ ring.nextAbsolutePosition ∨
      start.toNat ≠ ring.nextAbsolutePosition ∨ n.toNat = 0 ∨ ring.capacity < n.toNat) := by
  simp only [DecoderKvRing.raw]
  omega

/-- The plan on natural numbers is the plan of the declared types. -/
lemma rawKvPlan_raw (h32 : ring.capacity < 2 ^ 31) (start n : ℤ) :
    rawKvPlan ring.raw start n =
      if start < 0 ∨ n < 0 then none
      else (decoderKvPlan ring start.toNat n.toNat).map DecoderKvPlan.raw := by
  have hguard := rawGuard_iff ring start n
  by_cases hneg : start < 0 ∨ n < 0
  · rw [if_pos hneg]
    exact if_pos (hguard.mpr (by omega))
  rw [if_neg hneg]
  obtain ⟨start, rfl⟩ := Int.eq_ofNat_of_zero_le (show 0 ≤ start by omega)
  obtain ⟨n, rfl⟩ := Int.eq_ofNat_of_zero_le (show 0 ≤ n by omega)
  rw [Int.toNat_natCast, Int.toNat_natCast] at *
  unfold decoderKvPlan
  by_cases hrefused : ring.capacity = 0 ∨ ring.capacity < ring.used ∨
      ring.oldestAbsolutePosition + ring.used ≠ ring.nextAbsolutePosition ∨
      start ≠ ring.nextAbsolutePosition ∨ n = 0 ∨ ring.capacity < n
  · rw [if_pos hrefused]
    exact if_pos (hguard.mpr (.inr (.inr hrefused)))
  rw [if_neg hrefused]
  have hadmitted := mt hguard.mp (by omega)
  rw [rawKvPlan, if_neg hadmitted, Option.map_some, Option.some.injEq]
  clear hguard hadmitted hneg
  have hcap : narrow32 (ring.capacity : ℤ) = ring.capacity :=
    narrow32_of_fits (by omega) (by omega)
  have hused : min (ring.capacity : ℤ) (ring.used + n) = (min ring.capacity (ring.used + n) : ℕ) := by
    omega
  have hnarrow : narrow32 ((min ring.capacity (ring.used + n) : ℕ) : ℤ) =
      (min ring.capacity (ring.used + n) : ℕ) := narrow32_of_fits (by omega) (by omega)
  have holdest : (start : ℤ) + n - (min ring.capacity (ring.used + n) : ℕ) =
      (start + n - min ring.capacity (ring.used + n) : ℕ) := by omega
  have hwrite := rawKvSegments_raw start (show 0 < ring.capacity by omega) h32
    (show n ≤ ring.capacity by omega)
  have hread := rawKvSegments_raw (start + n - min ring.capacity (ring.used + n))
    (show 0 < ring.capacity by omega) h32
    (show min ring.capacity (ring.used + n) ≤ ring.capacity by omega)
  simp only [DecoderKvRing.raw, DecoderKvPlan.raw, hcap, hused, hnarrow, holdest, hwrite, hread,
    RawKvPlan.mk.injEq, true_and]
  refine ⟨by omega, by omega, ?_⟩
  have hcycle : ∀ m : ℕ, 0 < m → ((m : ℤ) - 1).tdiv ring.capacity =
      (((m - 1) / ring.capacity : ℕ) : ℤ) := by
    intro m hm
    rw [show (m : ℤ) - 1 = ((m - 1 : ℕ) : ℤ) by omega, ← Int.ofNat_tdiv]
  have hlast := hcycle (start + n) (by omega)
  rw [Nat.cast_add] at hlast
  refine decide_eq_decide.mpr ?_
  change (if (start : ℤ) = 0 then 0 else ((start : ℤ) - 1).tdiv ring.capacity) <
    ((start : ℤ) + n - 1).tdiv ring.capacity ↔ _
  rw [hlast]
  by_cases hzero : start = 0
  · rw [if_pos (by omega), if_pos hzero]
    omega
  · rw [if_neg (by omega), if_neg hzero, hcycle start (by omega), Nat.cast_lt]

end Narrow

/-! ## The record of a run -/

/-- The slots of a segment. -/
def RawKvSeg.slots (seg : RawKvSeg) : List ℤ := (List.range seg.len.toNat).map fun i : ℕ => seg.slot + i

/-- The record after appends of `total` positions. -/
structure KvAccounted (cap total : ℕ) (ring : DecoderKvRing) : Prop where
  capacity : ring.capacity = cap
  next : ring.nextAbsolutePosition = total
  used : ring.used = min total cap
  oldest : ring.oldestAbsolutePosition + ring.used = total
  evictions : ring.evictions + ring.used = total
  wraps : ring.wraps = (total - 1) / cap

section Record

variable {capacity next n : ℕ} {ring : DecoderKvRing}

/-- A segment covers the same slots in 32-bit arithmetic. -/
lemma rawSeg_slots (seg : DecoderKvSeg) :
    (rawSeg seg).slots = (EncKvSeg.slots seg).map fun s : ℕ => (s : ℤ) := by
  unfold RawKvSeg.slots EncKvSeg.slots rawSeg
  rw [List.range'_eq_map_range, List.map_map, Int.toNat_natCast]
  apply List.map_congr_left
  intro i _
  exact (Nat.cast_add _ _).symm

/-- The segments of a range, on the declared types, enumerate its slots. -/
lemma decoderKvSegments_slots (hcap : 0 < capacity) (start : ℕ) (hn : n ≤ capacity) :
    ((decoderKvSegments start n capacity).map rawSeg).flatMap RawKvSeg.slots =
      (ringSlots capacity start n).map fun s : ℕ => (s : ℤ) := by
  rw [← encKvRingSegments_slots hcap hn, decoderKvSegments_eq, List.flatMap_map, List.map_flatMap]
  exact List.flatMap_congr fun seg _ => rawSeg_slots seg

/-- An append of at most one capacity enters at most one new cycle. -/
lemma cycle_step (hn : 0 < n) (hcap : n ≤ capacity) :
    (if decide ((if next = 0 then 0 else (next - 1) / capacity) < (next + n - 1) / capacity) = true
      then (next - 1) / capacity + 1 else (next - 1) / capacity) = (next + n - 1) / capacity := by
  have hpos : 0 < capacity := hn.trans_le hcap
  have hprevious : (if next = 0 then 0 else (next - 1) / capacity) = (next - 1) / capacity := by
    split_ifs with hzero
    · rw [hzero, Nat.zero_sub, Nat.zero_div]
    · rfl
  have hmono : (next - 1) / capacity ≤ (next + n - 1) / capacity :=
    Nat.div_le_div_right (by omega)
  have hstep : (next + n - 1) / capacity ≤ (next - 1) / capacity + 1 := by
    rw [← Nat.add_div_right _ hpos]
    exact Nat.div_le_div_right (by omega)
  rw [hprevious]
  split_ifs with hnew
  · rw [decide_eq_true_eq] at hnew
    omega
  · rw [decide_eq_true_eq] at hnew
    omega

/-- The next append has a plan, whose commit accounts for it. -/
lemma KvAccounted.append (h : KvAccounted capacity next ring) (hn : 0 < n) (hcap : n ≤ capacity) :
    ∃ plan, decoderKvPlan ring next n = some plan ∧
      KvAccounted capacity (next + n) (ring.commitPlan plan) ∧
      plan.nextAfter = next + n ∧ plan.usedAfter = min (next + n) capacity ∧
      plan.oldestAfter + plan.usedAfter = next + n ∧
      plan.writeSeg = decoderKvSegments next n capacity ∧
      plan.readSeg = decoderKvSegments plan.oldestAfter plan.usedAfter capacity := by
  have hcapacity := h.capacity
  have hnext := h.next
  have hused := h.used
  have holdest := h.oldest
  have hevictions := h.evictions
  have hwraps := h.wraps
  unfold decoderKvPlan
  rw [if_neg (by omega)]
  refine ⟨_, rfl, ?_, rfl, ?_, ?_, ?_, ?_⟩
  · refine ⟨hcapacity, rfl, ?_, ?_, ?_, ?_⟩
    · change min ring.capacity (ring.used + n) = _
      omega
    · change next + n - min ring.capacity (ring.used + n) + min ring.capacity (ring.used + n) = _
      omega
    · change ring.evictions + (ring.used + n - ring.capacity) + min ring.capacity (ring.used + n) = _
      omega
    · change (if decide ((if next = 0 then 0 else (next - 1) / ring.capacity) <
        (next + n - 1) / ring.capacity) = true then ring.wraps + 1 else ring.wraps) = _
      rw [hcapacity, hwraps]
      exact cycle_step hn hcap
  · change min ring.capacity (ring.used + n) = _
    omega
  · change next + n - min ring.capacity (ring.used + n) + min ring.capacity (ring.used + n) = _
    omega
  · rw [hcapacity]
  · rw [hcapacity]

end Record

/-! ## Runs of appends -/

/-- The ring before the first append. -/
def emptyKvRing (capacity : ℤ) : RawKvRing := { capacity := capacity }

/-- What an append of `n` positions from `start` on does to a ring: a plan that reads the retained
positions and writes the new ones beside them, or nothing at all. -/
def AppendAnswered (ring : RawKvRing) (start n : ℤ) (result : RawKvRing × Option RawKvPlan) : Prop :=
  if start = ring.nextAbsolutePosition ∧ 1 ≤ n ∧ n ≤ ring.capacity then
    ∃ plan, result.2 = some plan ∧
      result.1.nextAbsolutePosition = start + n ∧
      plan.readSeg.flatMap RawKvSeg.slots =
        (List.range result.1.used.toNat).map (fun i : ℕ =>
          (result.1.oldestAbsolutePosition + i).tmod ring.capacity) ∧
      plan.writeSeg.flatMap RawKvSeg.slots =
        (List.range n.toNat).map (fun i : ℕ => (start + i).tmod ring.capacity) ∧
      ∀ p, result.1.oldestAbsolutePosition ≤ p → p < start →
        p.tmod ring.capacity ∉ plan.writeSeg.flatMap RawKvSeg.slots
  else result = (ring, none)

/-- The counters of a ring account for the positions appended to it. -/
structure RingAccounted (cap : ℤ) (ring : RawKvRing) : Prop where
  capacity : ring.capacity = cap
  next : 0 ≤ ring.nextAbsolutePosition
  oldest : ring.oldestAbsolutePosition + ring.used = ring.nextAbsolutePosition
  used : ring.used = min ring.nextAbsolutePosition cap
  evictions : ring.evictions = ring.nextAbsolutePosition - ring.used
  wraps : ring.wraps =
    if ring.nextAbsolutePosition = 0 then 0 else (ring.nextAbsolutePosition - 1) / cap

section Runs

variable {capacity : ℕ}

/-- The rows of consecutive positions. -/
lemma ringSlots_cast (start n : ℕ) :
    (ringSlots capacity start n).map (fun s : ℕ => (s : ℤ)) =
      (List.range n).map fun i : ℕ => ((start : ℤ) + i).tmod capacity := by
  unfold ringSlots
  rw [List.range'_eq_map_range, List.map_map, List.map_map]
  refine List.map_congr_left fun i _ => ?_
  change (((start + i) % capacity : ℕ) : ℤ) = _
  rw [← Nat.cast_add, Int.tmod_eq_emod_of_nonneg (Int.natCast_nonneg _), Int.natCast_mod]

/-- The accounting of a ring, in 32-bit arithmetic. -/
lemma KvAccounted.raw {total : ℕ} {ring : DecoderKvRing} (h : KvAccounted capacity total ring) :
    RingAccounted capacity ring.raw := by
  have hcapacity := h.capacity
  have hnext := h.next
  have hused := h.used
  have holdest := h.oldest
  have hevictions := h.evictions
  have hwraps := h.wraps
  refine ⟨?_, ?_, ?_, ?_, ?_, ?_⟩
  · exact congrArg _ hcapacity
  · exact Int.natCast_nonneg _
  · simp only [DecoderKvRing.raw]
    omega
  · simp only [DecoderKvRing.raw]
    omega
  · simp only [DecoderKvRing.raw]
    omega
  · have hnextRaw : ring.raw.nextAbsolutePosition = total := congrArg _ hnext
    have hwrapsRaw : ring.raw.wraps = ((total - 1 : ℕ) : ℤ) / capacity := by
      rw [← Int.natCast_div]
      exact congrArg _ hwraps
    rw [hwrapsRaw, hnextRaw]
    by_cases hzero : total = 0
    · rw [if_pos (by omega), hzero, Nat.zero_sub, Nat.cast_zero, Int.zero_ediv]
    · rw [if_neg (by omega), Nat.cast_sub (by omega), Nat.cast_one]

/-- Committing a plan on natural numbers. -/
lemma raw_commitPlan (ring : DecoderKvRing) (plan : DecoderKvPlan) :
    ring.raw.commitPlan plan.raw = (ring.commitPlan plan).raw := by
  simp only [RawKvRing.commitPlan, DecoderKvRing.commitPlan, DecoderKvRing.raw, DecoderKvPlan.raw,
    Nat.cast_add, Nat.cast_ite, Nat.cast_one]
  rfl

/-- One append to an accounted ring. -/
lemma KvAccounted.answered {total : ℕ} {ring : DecoderKvRing} (h : KvAccounted capacity total ring)
    (h32 : capacity < 2 ^ 31) (start n : ℤ) :
    AppendAnswered ring.raw start n (appendKv ring.raw (start, n)) ∧
      ∃ total' ring', (appendKv ring.raw (start, n)).1 = DecoderKvRing.raw ring' ∧
        KvAccounted capacity total' ring' := by
  have hcapacity := h.capacity
  have hnext := h.next
  have hplan := rawKvPlan_raw (show ring.capacity < 2 ^ 31 by omega) start n
  have hraw : ring.raw.nextAbsolutePosition = total ∧ ring.raw.capacity = capacity := by
    rw [← hnext, ← hcapacity]
    exact ⟨rfl, rfl⟩
  unfold AppendAnswered
  rw [hraw.1, hraw.2]
  by_cases hgood : start = total ∧ 1 ≤ n ∧ n ≤ capacity
  · obtain ⟨rfl, hn, hle⟩ := hgood
    obtain ⟨n, rfl⟩ := Int.eq_ofNat_of_zero_le (show 0 ≤ n by omega)
    obtain ⟨plan, hsome, hafter, hnextAfter, husedAfter, holdestAfter, hwrite, hread⟩ :=
      h.append (n := n) (by omega) (by omega)
    rw [if_neg (by omega), Int.toNat_natCast, Int.toNat_natCast, hsome, Option.map_some] at hplan
    have happend : appendKv ring.raw (total, n) = (ring.raw.commitPlan plan.raw, some plan.raw) := by
      rw [appendKv, hplan]
    have hwriteSlots : plan.raw.writeSeg.flatMap RawKvSeg.slots =
        (ringSlots capacity total n).map fun s : ℕ => (s : ℤ) := by
      change (plan.writeSeg.map rawSeg).flatMap RawKvSeg.slots = _
      rw [hwrite]
      exact decoderKvSegments_slots (by omega) total (by omega)
    have hreadSlots : plan.raw.readSeg.flatMap RawKvSeg.slots =
        (ringSlots capacity plan.oldestAfter plan.usedAfter).map fun s : ℕ => (s : ℤ) := by
      change (plan.readSeg.map rawSeg).flatMap RawKvSeg.slots = _
      rw [hread]
      exact decoderKvSegments_slots (by omega) plan.oldestAfter (by omega)
    rw [if_pos ⟨rfl, hn, hle⟩, happend, raw_commitPlan]
    refine ⟨⟨plan.raw, rfl, ?_, ?_, ?_, ?_⟩, total + n, ring.commitPlan plan, rfl, hafter⟩
    · change (plan.nextAfter : ℤ) = total + n
      omega
    · rw [hreadSlots]
      exact ringSlots_cast plan.oldestAfter plan.usedAfter
    · rw [hwriteSlots]
      exact ringSlots_cast total n
    · intro p hlo hlt
      change (plan.oldestAfter : ℤ) ≤ p at hlo
      obtain ⟨p, rfl⟩ := Int.eq_ofNat_of_zero_le (show 0 ≤ p by omega)
      rw [hwriteSlots, Int.tmod_eq_emod_of_nonneg (Int.natCast_nonneg p), ← Int.natCast_mod,
        List.mem_map]
      rintro ⟨s, hs, heq⟩
      obtain rfl := Int.ofNat.inj heq
      exact not_mem_ringSlots (by omega) (by omega) hs
  · have hnone : rawKvPlan ring.raw start n = none := by
      rw [hplan]
      by_cases hneg : start < 0 ∨ n < 0
      · rw [if_pos hneg]
      · rw [if_neg hneg, decoderKvPlan, if_pos (by omega)]
        rfl
    have happend : appendKv ring.raw (start, n) = (ring.raw, none) := by
      rw [appendKv, hnone]
    rw [if_neg hgood, happend]
    exact ⟨rfl, total, ring, rfl, h⟩

/-- After every sequence of appends, contiguous or not, the counters account for the positions appended,
and the next append is planned exactly or leaves the ring as it is. -/
theorem decoder_kv_ring_runs {capacity : ℤ} (hpos : 1 ≤ capacity) (h32 : capacity < 2 ^ 31)
    (calls : List (ℤ × ℤ)) :
    RingAccounted capacity (runAll appendKv (emptyKvRing capacity) calls).1 ∧
      ∀ start n, AppendAnswered (runAll appendKv (emptyKvRing capacity) calls).1 start n
        (appendKv (runAll appendKv (emptyKvRing capacity) calls).1 (start, n)) := by
  obtain ⟨cap, rfl⟩ := Int.eq_ofNat_of_zero_le (show 0 ≤ capacity by omega)
  have hrun : ∃ total ring, (runAll appendKv (emptyKvRing cap) calls).1 = DecoderKvRing.raw ring ∧
      KvAccounted cap total ring := by
    have hstart : ∃ total ring, emptyKvRing cap = DecoderKvRing.raw ring ∧ KvAccounted cap total ring :=
      ⟨0, ⟨cap, 0, 0, 0, 0, 0⟩, rfl, rfl, rfl, by simp, rfl, rfl, by simp⟩
    generalize emptyKvRing cap = start at hstart
    induction calls generalizing start with
    | nil => exact hstart
    | cons call calls ih =>
      obtain ⟨total, ring, rfl, hring⟩ := hstart
      exact ih _ (hring.answered (by omega) call.1 call.2).2
  obtain ⟨total, ring, hring, haccounted⟩ := hrun
  rw [hring]
  exact ⟨haccounted.raw, fun start n => (haccounted.answered (by omega) start n).1⟩

/-- Appends to a ring of eight slots, one of them refused. -/
theorem decoder_kv_ring_runs_small :
    RingAccounted 8 (runAll appendKv (emptyKvRing 8) [(0, 6), (7, 1), (6, 4)]).1 ∧
      ∀ start n, AppendAnswered (runAll appendKv (emptyKvRing 8) [(0, 6), (7, 1), (6, 4)]).1 start n
        (appendKv (runAll appendKv (emptyKvRing 8) [(0, 6), (7, 1), (6, 4)]).1 (start, n)) :=
  decoder_kv_ring_runs (by decide) (by decide) _

/-- A capacity of `2 ^ 32 + 1` addresses slots as if it was one: both positions of the first append go to
slot zero. -/
theorem decoder_kv_ring_wide_capacity :
    ¬ ∀ capacity : ℤ, 1 ≤ capacity → ∀ calls : List (ℤ × ℤ),
      RingAccounted capacity (runAll appendKv (emptyKvRing capacity) calls).1 ∧
        ∀ start n, AppendAnswered (runAll appendKv (emptyKvRing capacity) calls).1 start n
          (appendKv (runAll appendKv (emptyKvRing capacity) calls).1 (start, n)) := by
  intro h
  have hanswered := (h (2 ^ 32 + 1) (by decide) []).2 0 2
  unfold AppendAnswered at hanswered
  rw [if_pos (by decide)] at hanswered
  obtain ⟨plan, hplan, -, -, hwrite, -⟩ := hanswered
  have hslots : (appendKv (emptyKvRing (2 ^ 32 + 1)) (0, 2)).2.map
      (fun plan => plan.writeSeg.flatMap RawKvSeg.slots) = some [0, 0] := by decide +kernel
  have hexpected : (List.range (2 : ℤ).toNat).map (fun i : ℕ => ((0 : ℤ) + i).tmod (2 ^ 32 + 1)) =
      [0, 1] := by decide +kernel
  rw [show (appendKv (emptyKvRing (2 ^ 32 + 1)) (0, 2)).2 = some plan from hplan, Option.map_some,
    Option.some.injEq] at hslots
  have hwrong : ([0, 0] : List ℤ) = [0, 1] := hslots.symm.trans (hwrite.trans hexpected)
  exact absurd hwrong (by decide)

end Runs

end Voxtral
