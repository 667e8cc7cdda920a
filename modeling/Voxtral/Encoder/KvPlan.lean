import Voxtral.Constants
import Voxtral.Lib.HistoryRing

/-!
# The plan of an encoder batch

`voxtral_enc_kv_plan` maps a batch of new encoder frames to the causal window its queries attend to, to
the segments of the K/V ring that are read and written, and to the Mel frames its convolutions read.
The columns of the new frames are copied into the ring segment by segment, which is the same as writing
frame after frame (`writeKvColumns_eq`).
-/

namespace Voxtral

variable {χ : Type*}

/-- `voxtral_enc_kv_mask_allows`. -/
def encKvMaskAllows (kvAbs qAbs window : ℤ) : Bool := kvAbs ≤ qAbs ∧ qAbs - (window - 1) ≤ kvAbs

/-- `voxtral_enc_kv_seg`: consecutive slots of the K/V ring. -/
structure EncKvSeg where
  slot : ℕ
  len : ℕ
  deriving DecidableEq, Repr

/-- `enc_kv_ring_segments`. -/
def encKvRingSegments (absStart len capacity : ℕ) : List EncKvSeg :=
  if len = 0 then []
  else
    let slot0 := absStart % capacity
    let first := min len (capacity - slot0)
    if len ≤ first then [⟨slot0, first⟩] else [⟨slot0, first⟩, ⟨0, len - first⟩]

/-- `voxtral_enc_kv_plan_t`. -/
structure EncKvPlan where
  qStart : ℕ
  nNew : ℕ
  winStart : ℕ
  winEnd : ℕ
  winLen : ℕ
  readSeg : List EncKvSeg
  readWraps : Bool
  writeSeg : List EncKvSeg
  writeWraps : Bool
  convMelStart : ℕ
  convMelEnd : ℕ
  convSliceStart : ℕ
  evicted : ℕ

/-- `voxtral_enc_kv_plan` of `nNew` frames from `qStart` on; no plan if they do not fit the ring next to
a whole window. -/
def encKvPlan (qStart nNew capacity window : ℕ) : Option EncKvPlan :=
  if nNew = 0 ∨ capacity = 0 ∨ window = 0 then none
  else if (capacity : ℤ) - window < nNew then none
  else
    let winStart := qStart - (window - 1)
    let winEnd := qStart + nNew
    let readSeg := encKvRingSegments winStart (winEnd - winStart) capacity
    let writeSeg := encKvRingSegments qStart nNew capacity
    let convMelStart := 2 * (qStart - 2)
    some
      { qStart, nNew, winStart, winEnd
        winLen := winEnd - winStart
        readSeg
        readWraps := 1 < readSeg.length
        writeSeg
        writeWraps := 1 < writeSeg.length
        convMelStart
        convMelEnd := 2 * (qStart + nNew)
        convSliceStart := qStart - convMelStart / 2
        evicted := (winEnd - window) - (qStart - window) }

/-! ## Copying columns -/

/-- `ggml_cpy` of the columns `[source, source + len)` of the new keys and values to the ring slots
`[slot, slot + len)`. -/
def copyColumns (ring : HistoryRing χ) (store : ℕ → RingRow χ) (slot source : ℕ) :
    ℕ → HistoryRing χ
  | 0 => ring
  | len + 1 =>
    Function.update (copyColumns ring store slot source len) (slot + len) (store (source + len))

/-- Write the new columns, the first of them being column `source`, into the segments of a plan. -/
def writeKvColumns (ring : HistoryRing χ) (store : ℕ → RingRow χ) :
    ℕ → List EncKvSeg → HistoryRing χ
  | _, [] => ring
  | source, seg :: segs =>
    writeKvColumns (copyColumns ring store seg.slot source seg.len) store (source + seg.len) segs

/-- A segment is copied like a range of positions that does not wrap. -/
lemma copyColumns_eq (ring : HistoryRing χ) {store : ℕ → RingRow χ} {kv : ℕ → χ}
    {cap q slot source n : ℕ} (hslot : ∀ i < n, (q + i) % cap = slot + i)
    (hstore : ∀ i < n, store (source + i) = ⟨q + i, kv (q + i)⟩) :
    copyColumns ring store slot source n = ring.writeRange cap kv q n := by
  induction n with
  | zero => rfl
  | succ n ih =>
    rw [copyColumns, ih (fun i hi => hslot i (by omega)) (fun i hi => hstore i (by omega)),
      hstore n (Nat.lt_succ_self n), ← hslot n (Nat.lt_succ_self n)]
    rfl

/-- Up to the end of the ring positions use one slot after the other. -/
lemma add_mod_of_room {cap q i : ℕ} (h : q % cap + i < cap) : (q + i) % cap = q % cap + i := by
  rw [Nat.add_mod, Nat.mod_eq_of_lt (show i < cap by omega), Nat.mod_eq_of_lt h]

/-- Behind the end of the ring they start over. -/
lemma add_mod_of_wrapped {cap q i : ℕ} (hcap : 0 < cap) (hi : i < cap) :
    (q + (cap - q % cap) + i) % cap = i := by
  have hdiv := Nat.div_add_mod q cap
  have hlt := Nat.mod_lt q hcap
  have hround : q + (cap - q % cap) = cap * (q / cap + 1) := by
    rw [Nat.mul_add, Nat.mul_one]
    omega
  rw [hround, Nat.mul_add_mod, Nat.mod_eq_of_lt hi]

/-- Writing the columns of the frames `[q, q + n)` segment by segment writes frame after frame. -/
lemma writeKvColumns_eq (ring : HistoryRing χ) {store : ℕ → RingRow χ} {kv : ℕ → χ}
    {cap q source n : ℕ} (hcap : 0 < cap) (hn : n ≤ cap)
    (hstore : ∀ i < n, store (source + i) = ⟨q + i, kv (q + i)⟩) :
    writeKvColumns ring store source (encKvRingSegments q n cap) = ring.writeRange cap kv q n := by
  have hlt := Nat.mod_lt q hcap
  unfold encKvRingSegments
  dsimp only
  by_cases hzero : n = 0
  · rw [if_pos hzero, hzero]
    rfl
  rw [if_neg hzero]
  by_cases hroom : n ≤ cap - q % cap
  · rw [min_eq_left hroom, if_pos le_rfl]
    change copyColumns ring store (q % cap) source n = _
    exact copyColumns_eq ring (fun i hi => add_mod_of_room (by omega)) hstore
  · have hmin : min n (cap - q % cap) = cap - q % cap := min_eq_right (by omega)
    generalize hfirst : cap - q % cap = first at *
    have hhead : copyColumns ring store (q % cap) source first = ring.writeRange cap kv q first :=
      copyColumns_eq ring (fun i hi => add_mod_of_room (by omega)) fun i hi => hstore i (by omega)
    have htail : ∀ ring' : HistoryRing χ, copyColumns ring' store 0 (source + first) (n - first) =
        ring'.writeRange cap kv (q + first) (n - first) := by
      intro ring'
      refine copyColumns_eq ring' (fun i hi => ?_) fun i hi => ?_
      · rw [← hfirst, add_mod_of_wrapped hcap (by omega), Nat.zero_add]
      · rw [Nat.add_assoc, hstore _ (by omega), Nat.add_assoc]
    rw [hmin, if_neg hroom]
    change copyColumns (copyColumns ring store (q % cap) source first) store 0 (source + first)
      (n - first) = _
    rw [hhead, htail, HistoryRing.writeRange_add, Nat.add_sub_cancel' (by omega)]

end Voxtral
