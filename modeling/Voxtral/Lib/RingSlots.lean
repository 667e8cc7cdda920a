import Mathlib.Data.List.Nodup
import Voxtral.Lib.HistoryRing

/-!
# The slots of a range of positions

A ring of `cap` slots keeps position `p` in slot `p % cap`.  A range of at most `cap` positions uses its
slots once each; it reaches the end of the ring at most once, and the slots are two runs then.
-/

namespace Voxtral

/-- The slots of the positions `[q, q + n)`, in their order. -/
def ringSlots (cap q n : ℕ) : List ℕ := (List.range' q n).map (· % cap)

variable {cap q n s : ℕ}

/-- As many slots as positions. -/
@[simp] lemma ringSlots_length : (ringSlots cap q n).length = n := by simp [ringSlots]

/-- The slot of each position. -/
lemma ringSlots_getElem? {i : ℕ} (hi : i < n) : (ringSlots cap q n)[i]? = some ((q + i) % cap) := by
  simp [ringSlots, List.getElem?_range' hi]

/-- A slot is used if a position of the range falls into it. -/
lemma mem_ringSlots : s ∈ ringSlots cap q n ↔ ∃ p, q ≤ p ∧ p < q + n ∧ p % cap = s := by
  unfold ringSlots
  rw [List.mem_map]
  constructor
  · rintro ⟨p, hp, rfl⟩
    rw [List.mem_range'_1] at hp
    exact ⟨p, hp.1, hp.2, rfl⟩
  · rintro ⟨p, hlo, hhi, rfl⟩
    exact ⟨p, List.mem_range'_1.mpr ⟨hlo, hhi⟩, rfl⟩

/-- Positions less than a capacity apart have different slots. -/
lemma ringSlots_nodup (hn : n ≤ cap) : (ringSlots cap q n).Nodup := by
  unfold ringSlots
  apply List.Nodup.map_on _ (List.nodup_range' 1)
  intro p hp r hr hslot
  rw [List.mem_range'_1] at hp hr
  by_contra hne
  rcases Nat.lt_or_gt_of_ne hne with hlt | hlt
  · exact HistoryRing.mod_ne_of_near hlt (by omega) hslot
  · exact HistoryRing.mod_ne_of_near hlt (by omega) hslot.symm

/-- A position up to a capacity in front of a range has none of its slots. -/
lemma not_mem_ringSlots {p : ℕ} (hp : p < q) (hnear : q + n ≤ p + cap) : p % cap ∉ ringSlots cap q n := by
  rw [mem_ringSlots]
  rintro ⟨r, hlo, hhi, hslot⟩
  exact HistoryRing.mod_ne_of_near (hp.trans_le hlo) (by omega) hslot.symm

/-- Up to the end of the ring the slots follow each other. -/
lemma ringSlots_of_room (hroom : q % cap + n ≤ cap) : ringSlots cap q n = List.range' (q % cap) n := by
  apply List.ext_getElem?
  intro i
  by_cases hi : i < n
  · have hmod : (q + i) % cap = q % cap + i := by
      rw [Nat.add_mod, Nat.mod_eq_of_lt (show i < cap by omega), Nat.mod_eq_of_lt (by omega)]
    rw [ringSlots_getElem? hi, List.getElem?_range' hi, hmod, Nat.one_mul]
  · rw [List.getElem?_eq_none (by simpa using hi), List.getElem?_eq_none (by simpa using hi)]

/-- Ranges that follow each other. -/
lemma ringSlots_add (m : ℕ) :
    ringSlots cap q (n + m) = ringSlots cap q n ++ ringSlots cap (q + n) m := by
  unfold ringSlots
  rw [← List.map_append, ← List.range'_append_1]

/-- Behind the end of the ring the slots start over. -/
lemma ringSlots_of_wrapped (hcap : 0 < cap) (hwrap : cap ≤ q % cap + n) (hn : n ≤ cap) :
    ringSlots cap q n =
      List.range' (q % cap) (cap - q % cap) ++ List.range' 0 (n - (cap - q % cap)) := by
  have hlt := Nat.mod_lt q hcap
  have hround : (q + (cap - q % cap)) % cap = 0 := by
    have hdiv := Nat.div_add_mod q cap
    have hq : q + (cap - q % cap) = cap * (q / cap + 1) := by
      rw [Nat.mul_add, Nat.mul_one]
      omega
    rw [hq, Nat.mul_mod_right]
  have hsplit : n = (cap - q % cap) + (n - (cap - q % cap)) := by omega
  conv_lhs => rw [hsplit]
  rw [ringSlots_add, ringSlots_of_room (by omega), ringSlots_of_room (by omega), hround]

/-- A range crosses the end of the ring in its interior when it is longer than what is left of it. -/
lemma crosses_iff (hcap : 0 < cap) : (∃ m, q < m * cap ∧ m * cap < q + n) ↔ cap - q % cap < n := by
  have hlt := Nat.mod_lt q hcap
  have hdiv := Nat.div_add_mod q cap
  have hnext : (q / cap + 1) * cap = q + (cap - q % cap) := by
    rw [Nat.add_mul, Nat.one_mul, Nat.mul_comm]
    omega
  constructor
  · rintro ⟨m, hlo, hhi⟩
    have hm : q / cap + 1 ≤ m := by
      have hquot : q / cap < m := (Nat.div_lt_iff_lt_mul hcap).mpr hlo
      omega
    have hle := Nat.mul_le_mul_right cap hm
    omega
  · intro hn
    exact ⟨q / cap + 1, by omega, by omega⟩

end Voxtral
