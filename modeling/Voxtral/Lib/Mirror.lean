import Mathlib.Data.Int.Basic
import Mathlib.Tactic.Linarith
import Mathlib.Tactic.Ring

/-!
# Mirror reflection of an index

A signal of length `n` extended by reflection at both ends (without repeating the end samples) is
periodic with period `2 * (n - 1)` and even.  `mirror n s` is the index in `[0, n)` that position
`s` of the extension repeats.  A reflection loop only ever replaces `s` by `-s` or by
`2 * (n - 1) - s`, and both leave `mirror` unchanged; that is the invariant its correctness rests on.
-/

namespace Voxtral

/-- The index in `[0, n)` that position `s` of the reflected extension of a length-`n` signal
repeats (`0` for a signal of at most one sample). -/
def mirror (n : ℕ) (s : ℤ) : ℤ :=
  if n ≤ 1 then 0
  else if s % (2 * (n - 1)) < n then s % (2 * (n - 1)) else 2 * (n - 1) - s % (2 * (n - 1))

/-- Inside the signal the reflection is the identity. -/
lemma mirror_of_mem {n : ℕ} {s : ℤ} (h0 : 0 ≤ s) (hn : s < n) : mirror n s = s := by
  unfold mirror
  by_cases h1 : n ≤ 1
  · rw [if_pos h1]
    omega
  · have hmod : s % (2 * ((n : ℤ) - 1)) = s := Int.emod_eq_of_lt h0 (by omega)
    rw [if_neg h1, hmod, if_pos hn]

/-- The reflection lands inside a nonempty signal. -/
lemma mirror_mem {n : ℕ} (hn : 0 < n) (s : ℤ) : 0 ≤ mirror n s ∧ mirror n s < n := by
  unfold mirror
  split_ifs with h1 h2
  · omega
  · exact ⟨Int.emod_nonneg _ (by omega), h2⟩
  · have hlt : s % (2 * ((n : ℤ) - 1)) < 2 * ((n : ℤ) - 1) := Int.emod_lt_of_pos _ (by omega)
    omega

/-- The reflected extension is even. -/
lemma mirror_neg (n : ℕ) (s : ℤ) : mirror n (-s) = mirror n s := by
  unfold mirror
  by_cases h1 : n ≤ 1
  · simp [h1]
  · simp only [h1, if_false]
    have hpos : 0 < 2 * ((n : ℤ) - 1) := by omega
    have hlt : s % (2 * ((n : ℤ) - 1)) < 2 * ((n : ℤ) - 1) := Int.emod_lt_of_pos _ hpos
    have h0 : 0 ≤ s % (2 * ((n : ℤ) - 1)) := Int.emod_nonneg _ (by omega)
    -- the remainder of `-s` is `0` or the complement of the remainder of `s`
    rcases eq_or_ne (s % (2 * ((n : ℤ) - 1))) 0 with hz | hz
    · have hneg : (-s) % (2 * ((n : ℤ) - 1)) = 0 :=
        Int.emod_eq_zero_of_dvd (Int.dvd_neg.mpr (Int.dvd_of_emod_eq_zero hz))
      rw [hz, hneg]
    · have hneg : (-s) % (2 * ((n : ℤ) - 1)) = 2 * ((n : ℤ) - 1) - s % (2 * ((n : ℤ) - 1)) := by
        have hmod : (-s) % (2 * ((n : ℤ) - 1)) =
            (2 * ((n : ℤ) - 1) - s % (2 * ((n : ℤ) - 1))) % (2 * ((n : ℤ) - 1)) := by
          rw [Int.sub_emod, Int.emod_self, Int.emod_emod_of_dvd _ dvd_rfl]
          rw [← Int.zero_sub, Int.sub_emod, Int.zero_emod]
        rw [hmod]
        exact Int.emod_eq_of_lt (by omega) (by omega)
      rw [hneg]
      split_ifs <;> omega

/-- Reflecting at the last sample does not change the repeated index. -/
lemma mirror_reflect_right (n : ℕ) (s : ℤ) :
    mirror n (2 * n - 2 - s) = mirror n s := by
  rw [← mirror_neg n s]
  have hmod : (2 * (n : ℤ) - 2 - s) % (2 * ((n : ℤ) - 1)) = (-s) % (2 * ((n : ℤ) - 1)) := by
    have hsplit : 2 * (n : ℤ) - 2 - s = -s + 2 * ((n : ℤ) - 1) := by ring
    rw [hsplit, Int.add_emod_right]
  unfold mirror
  rw [hmod]

/-- The repeated index is the position itself or its negative, up to whole periods. -/
lemma dvd_sub_or_add_mirror {n : ℕ} (hn : 1 < n) (s : ℤ) :
    2 * ((n : ℤ) - 1) ∣ s - mirror n s ∨ 2 * ((n : ℤ) - 1) ∣ s + mirror n s := by
  have hdvd : 2 * ((n : ℤ) - 1) ∣ s - s % (2 * ((n : ℤ) - 1)) := Int.dvd_self_sub_emod
  unfold mirror
  rw [if_neg (by omega)]
  split_ifs with hmem
  · left
    exact hdvd
  · right
    have hsum : s + (2 * ((n : ℤ) - 1) - s % (2 * ((n : ℤ) - 1))) =
        (s - s % (2 * ((n : ℤ) - 1))) + 2 * ((n : ℤ) - 1) := by ring
    rw [hsum]
    exact Int.dvd_add hdvd (Int.dvd_refl _)

end Voxtral
