import Voxtral.Mel.Frontend
import Voxtral.Lib.Mirror
import Mathlib.Data.List.GetD

/-!
# Window fills in exact arithmetic

`exactWindow sig f` is the window of Mel frame `f` of the signal `sig` as exact integer arithmetic
with reflection at both ends gives it.  As long as the narrowed values fit, `fillWindow` resolves
exactly these indices; once the received total no longer fits into 32 bits it reads index `0`, which
a compacted buffer does not hold.
-/

namespace Voxtral

variable {α φ β ι : Type*}

/-- An `Option`-valued map that succeeds everywhere on a list succeeds on the list. -/
lemma mapM_eq_some_map {f : ι → Option β} {g : ι → β} {l : List ι}
    (h : ∀ x ∈ l, f x = some (g x)) : l.mapM f = some (l.map g) := by
  induction l with
  | nil => rfl
  | cons a l ih =>
    rw [List.mapM_cons, h a List.mem_cons_self, ih fun x hx => h x (List.mem_cons_of_mem a hx)]
    rfl

/-- An `Option`-valued map that fails at the head of a list fails on the list. -/
lemma mapM_eq_none_of_head {f : ι → Option β} {a : ι} {l : List ι} (h : f a = none) :
    (a :: l).mapM f = none := by
  rw [List.mapM_cons, h]
  rfl

/-! ## The reflection loop -/

/-- Iterations the reflection loop still needs from `idx`: a negative index is first negated. -/
def reflectSteps (idx : ℤ) : ℕ := if idx < 0 then idx.natAbs + 2 else idx.natAbs + 1

/-- The loop ends at the mirrored index: every iteration keeps the mirrored index and needs fewer
iterations than the one before.  The intermediate `2 * len` may leave the 32-bit range; the
difference it is part of does not. -/
lemma reflectLoop_eq_mirror {n : ℕ} (hn : 1 < n) (hn31 : (n : ℤ) < 2 ^ 31) {fuel : ℕ} {idx : ℤ}
    (hlo : -2 ^ 31 < idx) (hhi : idx < 2 ^ 31) (hfuel : reflectSteps idx ≤ fuel) :
    reflectLoop fuel idx n = some (mirror n idx) := by
  induction fuel generalizing idx with
  | zero =>
    unfold reflectSteps at hfuel
    split_ifs at hfuel <;> omega
  | succ fuel ih =>
    rw [reflectLoop]
    split_ifs with hneg hbig
    · have hfits : narrow32 (-idx) = -idx := narrow32_of_fits (by omega) (by omega)
      rw [hfits, ih (by omega) (by omega), mirror_neg]
      unfold reflectSteps at hfuel ⊢
      split_ifs at hfuel ⊢ <;> omega
    · have hfits : narrow32 (2 * n - 2 - idx) = 2 * n - 2 - idx :=
        narrow32_of_fits (by omega) (by omega)
      rw [hfits, ih (by omega) (by omega), mirror_reflect_right]
      unfold reflectSteps at hfuel ⊢
      split_ifs at hfuel ⊢ <;> omega
    · rw [mirror_of_mem (by omega) (by omega)]

/-- `voxtral_reflect_index` is the mirrored index. -/
lemma voxtralReflectIndex_eq_mirror {n : ℕ} (hn31 : (n : ℤ) < 2 ^ 31) {idx : ℤ}
    (hlo : -2 ^ 31 < idx) (hhi : idx < 2 ^ 31) :
    voxtralReflectIndex idx n = some (mirror n idx) := by
  unfold voxtralReflectIndex
  split_ifs with h1
  · rw [mirror, if_pos (by omega)]
  · refine reflectLoop_eq_mirror (by omega) hn31 hlo hhi ?_
    unfold reflectSteps
    split_ifs <;> omega

/-- **`voxtral_reflect_index` terminates and reflects.**  Any number of iterations from `|idx| + 2` on
is enough; the result lies in the signal and is the reflection of `idx` with period `2 * (len - 1)`,
however many periods `idx` is away. -/
theorem voxtralReflectIndex_reflects {idx len : ℤ} (hlen : 1 ≤ len) (hlen31 : 2 * len < 2 ^ 31)
    (hidx : |idx| < 2 ^ 31) :
    ∃ r, voxtralReflectIndex idx len = some r ∧ 0 ≤ r ∧ r < len ∧ (len = 1 → r = 0) ∧
      (1 < len →
        (∀ fuel, idx.natAbs + 2 ≤ fuel → reflectLoop fuel idx len = some r) ∧
        r = (if idx % (2 * (len - 1)) < len then idx % (2 * (len - 1))
          else 2 * (len - 1) - idx % (2 * (len - 1))) ∧
        (2 * (len - 1) ∣ idx - r ∨ 2 * (len - 1) ∣ idx + r)) := by
  obtain ⟨n, rfl⟩ : ∃ n : ℕ, len = n := ⟨len.toNat, by omega⟩
  obtain ⟨hlo, hhi⟩ := abs_lt.mp hidx
  obtain ⟨hmem0, hmem⟩ := mirror_mem (show 0 < n by omega) idx
  refine ⟨mirror n idx, voxtralReflectIndex_eq_mirror (by omega) hlo hhi, hmem0, hmem, ?_, ?_⟩
  · intro hone
    rw [mirror, if_pos (by omega)]
  · intro hmany
    refine ⟨?_, ?_, dvd_sub_or_add_mirror (by omega) idx⟩
    · intro fuel hfuel
      apply reflectLoop_eq_mirror (by omega) (by omega) hlo hhi
      unfold reflectSteps
      split_ifs <;> omega
    · rw [mirror, if_neg (by omega)]

/-- A signal of three samples under the 200-sample padding: fifty periods to the left. -/
theorem voxtralReflectIndex_reflects_short :
    ∃ r, voxtralReflectIndex (-199) 3 = some r ∧ 0 ≤ r ∧ r < 3 ∧ ((3 : ℤ) = 1 → r = 0) ∧
      ((1 : ℤ) < 3 →
        (∀ fuel, (-199 : ℤ).natAbs + 2 ≤ fuel → reflectLoop fuel (-199) 3 = some r) ∧
        r = (if (-199 : ℤ) % (2 * (3 - 1)) < 3 then (-199) % (2 * (3 - 1))
          else 2 * (3 - 1) - (-199) % (2 * (3 - 1))) ∧
        ((2 * (3 - 1) : ℤ) ∣ -199 - r ∨ (2 * (3 - 1) : ℤ) ∣ -199 + r)) :=
  voxtralReflectIndex_reflects (by norm_num) (by norm_num) (by norm_num)

/-! ## Resolved indices -/

/-- The absolute sample index window position `i` of frame `f` denotes in a signal of length `n`. -/
def exactIndex (n f i : ℕ) : ℤ := mirror n (160 * f + i - 200)

/-- The 400 sample indices of the window of frame `f`. -/
def exactIndices (n f : ℕ) : List ℤ := (List.range windowSize).map (exactIndex n f)

/-- The window of frame `f` of the signal `sig` in exact integer arithmetic. -/
def exactWindow [Zero α] (sig : List α) (f : ℕ) : List α :=
  (exactIndices sig.length f).map fun i => sig.getD i.toNat 0

/-- Below the 32-bit range the narrowed index is the exact one. -/
lemma windowIndex_eq_exactIndex {n f i : ℕ} (hn31 : (n : ℤ) < 2 ^ 31)
    (hf : 160 * (f : ℤ) + 199 < 2 ^ 31) (hi : i < 400) :
    windowIndex f n i = some (exactIndex n f i) := by
  have hstart : narrow32 ((f : ℤ) * 160) = 160 * f := by
    rw [narrow32_of_fits (by omega) (by omega), mul_comm]
  have hsrc : narrow32 (160 * (f : ℤ) + i - 200) = 160 * f + i - 200 :=
    narrow32_of_fits (by omega) (by omega)
  simp only [windowIndex, hopLength, melPad, windowSize, Nat.reduceDiv, Nat.cast_ofNat, hstart,
    hsrc]
  split_ifs with hmem
  · rw [exactIndex, mirror_of_mem hmem.1 hmem.2]
  · rw [voxtralReflectIndex_eq_mirror hn31 (by omega) (by omega), exactIndex]

/-- A frame that starts one hop before the end of the signal reads nothing before its direct
window: reflection at the right end lands behind the window's start. -/
lemma lo_le_exactIndex {n f i : ℕ} (hi : i < 400) (hf : 160 * f + 160 ≤ n) :
    ((160 * f - 200 : ℕ) : ℤ) ≤ exactIndex n f i := by
  unfold exactIndex
  have hmem := mirror_mem (show 0 < n by omega) (160 * f + i - 200)
  rcases le_or_gt f 1 with hf1 | hf1
  · omega
  · rcases lt_or_ge (160 * (f : ℤ) + i - 200) n with hlt | hge
    · rw [mirror_of_mem (by omega) hlt]
      omega
    · rw [← mirror_reflect_right, mirror_of_mem (by omega) (by omega)]
      omega

/-- A window that lies within the received samples resolves the same indices at every later
length. -/
lemma exactIndex_of_stable {n f i : ℕ} (hi : i < 400) (hf : 160 * f + 200 ≤ n) (hn : 201 ≤ n) :
    exactIndex n f i = (160 * (f : ℤ) + i - 200).natAbs := by
  unfold exactIndex
  rcases lt_or_ge (160 * (f : ℤ) + i - 200) 0 with hneg | hpos
  · rw [← mirror_neg, mirror_of_mem (by omega) (by omega)]
    omega
  · rw [mirror_of_mem hpos (by omega)]
    omega

/-- Samples behind its last one do not change a frame. -/
lemma exactIndices_congr {n m f : ℕ} (hf : 160 * f + 200 ≤ n) (hn : 201 ≤ n) (hnm : n ≤ m) :
    exactIndices n f = exactIndices m f := by
  apply List.map_congr_left
  intro i hi
  have hi400 : i < 400 := List.mem_range.mp hi
  rw [exactIndex_of_stable hi400 hf hn, exactIndex_of_stable hi400 (by omega) (by omega)]

/-- More samples do not change a window that was complete. -/
lemma exactWindow_append [Zero α] (sig more : List α) {f : ℕ} (hf : 160 * f + 200 ≤ sig.length)
    (hn : 201 ≤ sig.length) : exactWindow (sig ++ more) f = exactWindow sig f := by
  unfold exactWindow
  rw [← exactIndices_congr hf hn (by simp)]
  apply List.map_congr_left
  intro j hj
  obtain ⟨i, hi, rfl⟩ := List.mem_map.mp hj
  have hlt := (mirror_mem (show 0 < sig.length by omega) (160 * (f : ℤ) + i - 200)).2
  have hlt' : (exactIndex sig.length f i).toNat < sig.length := by
    unfold exactIndex
    omega
  rw [List.getD_append _ _ _ _ hlt']

/-! ## Window fills -/

/-- The rolling buffer holds the samples of `sig` from `pcmBase` on. -/
lemma readPcm_of_resident [Zero α] {fe : MelFrontend α φ} {sig : List α}
    (hpcm : fe.pcm = sig.drop fe.pcmBase) {j : ℤ} (hlo : (fe.pcmBase : ℤ) ≤ j)
    (hhi : j < sig.length) : readPcm fe j = some (sig.getD j.toNat 0) := by
  have hneg : ¬ j - fe.pcmBase < 0 := by omega
  have hidx : fe.pcmBase + (j - fe.pcmBase).toNat = j.toNat := by omega
  rw [readPcm, if_neg hneg, hpcm, List.getElem?_drop, hidx,
    List.getElem?_eq_getElem (by omega), List.getD_eq_getElem _ _ (by omega)]

/-- A window fill inside the 32-bit range reads only resident samples, and reads the exact ones. -/
lemma fillWindow_eq_exact [Zero α] {fe : MelFrontend α φ} {sig : List α} {f : ℕ}
    (hpcm : fe.pcm = sig.drop fe.pcmBase) (hn31 : (sig.length : ℤ) < 2 ^ 31)
    (hf : 160 * f + 160 ≤ sig.length) (hbase : fe.pcmBase ≤ 160 * f - 200) :
    fillWindow fe f (narrow32 sig.length) =
      some (exactIndices sig.length f, exactWindow sig f) := by
  have hlen : narrow32 (sig.length : ℤ) = (sig.length : ℤ) :=
    narrow32_of_fits (by omega) (by omega)
  have hidx : (List.range windowSize).mapM (windowIndex f (narrow32 sig.length)) =
      some (exactIndices sig.length f) := by
    apply mapM_eq_some_map
    intro i hi
    rw [hlen]
    exact windowIndex_eq_exactIndex (by omega) (by omega) (List.mem_range.mp hi)
  have hread : (exactIndices sig.length f).mapM (readPcm fe) = some (exactWindow sig f) := by
    apply mapM_eq_some_map
    intro j hj
    obtain ⟨i, hi, rfl⟩ := List.mem_map.mp hj
    have hlo := lo_le_exactIndex (List.mem_range.mp hi) hf
    have hhi := (mirror_mem (show 0 < sig.length by omega) (160 * (f : ℤ) + i - 200)).2
    refine readPcm_of_resident hpcm ?_ hhi
    omega
  rw [fillWindow, hidx, Option.bind_some, hread, Option.bind_some]

/-- A received total past the signed 32-bit range narrows to a negative length; every window index
is then `0`, which a compacted buffer does not hold. -/
lemma fillWindow_eq_none {fe : MelFrontend α φ} {f n : ℕ} (hlo : 2 ^ 31 ≤ n) (hhi : n < 2 ^ 32)
    (hbase : 0 < fe.pcmBase) : fillWindow fe f (narrow32 n) = none := by
  have hneg : narrow32 (n : ℤ) < 0 := by
    rw [narrow32_of_overflow (by omega) (by omega)]
    omega
  have hidx : (List.range windowSize).mapM (windowIndex f (narrow32 n)) =
      some ((List.range windowSize).map fun _ => 0) := by
    apply mapM_eq_some_map
    intro i _
    have hout : ∀ src : ℤ, ¬ (0 ≤ src ∧ src < narrow32 n) := fun src h => by omega
    rw [windowIndex, if_neg (hout _), voxtralReflectIndex, if_pos (by omega)]
  have hread : readPcm fe 0 = none := by
    rw [readPcm, if_pos (by omega)]
  have hwindow : List.mapM (readPcm fe) ((List.range windowSize).map fun _ => (0 : ℤ)) = none := by
    rw [show windowSize = 399 + 1 from rfl, List.range_succ_eq_map, List.map_cons]
    exact mapM_eq_none_of_head hread
  rw [fillWindow, hidx, Option.bind_some, hwindow, Option.bind_none]

end Voxtral
