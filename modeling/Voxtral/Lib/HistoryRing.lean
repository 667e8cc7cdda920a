import Mathlib.Logic.Function.Basic
import Mathlib.Data.Int.ModEq
import Mathlib.Tactic.Linarith

/-!
# Rings that remember positions

A producer writes the values of consecutive absolute positions `0, 1, 2, …` into `cap` slots,
position `p` into slot `p % cap`, and a consumer reads a position back from its slot.  Nothing in the
ring says which position a slot holds; the consumer is right as long as it lags by at most `cap`.
A `HistoryRing` records in every slot the position last written there next to its value, so that
"the slot still holds position `p`" can be stated.  The content of slots never written is arbitrary.
-/

namespace Voxtral

/-- A slot of a ring: the absolute position last written there and the value written. -/
structure RingRow (β : Type*) where
  /-- The absolute position the row was written for. -/
  pos : ℕ
  /-- The stored value. -/
  value : β

/-- The content of a ring, slot by slot. -/
abbrev HistoryRing (β : Type*) := ℕ → RingRow β

namespace HistoryRing

variable {β : Type*}

/-- The row found in the slot of position `p`. -/
def read (r : HistoryRing β) (cap p : ℕ) : RingRow β := r (p % cap)

/-- Write the value of position `p` into its slot. -/
def write (r : HistoryRing β) (cap p : ℕ) (v : β) : HistoryRing β :=
  Function.update r (p % cap) ⟨p, v⟩

/-- Every position in `[lo, hi)` is resident with the value `val` assigns to it. -/
def Holds (r : HistoryRing β) (cap : ℕ) (val : ℕ → β) (lo hi : ℕ) : Prop :=
  ∀ p, lo ≤ p → p < hi → r.read cap p = ⟨p, val p⟩

/-- Every position in `[lo, hi)` is resident, whatever its value. -/
def Resident (r : HistoryRing β) (cap lo hi : ℕ) : Prop :=
  ∀ p, lo ≤ p → p < hi → (r.read cap p).pos = p

/-- Residency of a range is residency of any part of it. -/
lemma Holds.mono {r : HistoryRing β} {cap : ℕ} {val : ℕ → β} {lo hi lo' hi' : ℕ}
    (h : r.Holds cap val lo hi) (hlo : lo ≤ lo') (hhi : hi' ≤ hi) : r.Holds cap val lo' hi' :=
  fun p hp hp' => h p (hlo.trans hp) (hp'.trans_le hhi)

/-- Part of a resident range is resident. -/
lemma Resident.mono {r : HistoryRing β} {cap lo hi lo' hi' : ℕ}
    (h : r.Resident cap lo hi) (hlo : lo ≤ lo') (hhi : hi' ≤ hi) : r.Resident cap lo' hi' :=
  fun p hp hp' => h p (hlo.trans hp) (hp'.trans_le hhi)

/-- Values may be renamed on the range that is resident. -/
lemma Holds.congr {r : HistoryRing β} {cap : ℕ} {val val' : ℕ → β} {lo hi : ℕ}
    (h : r.Holds cap val lo hi) (hval : ∀ p, lo ≤ p → p < hi → val p = val' p) :
    r.Holds cap val' lo hi := by
  intro p hlo hhi
  rw [h p hlo hhi, hval p hlo hhi]

/-- Two positions of one slot differ by at least the capacity. -/
lemma mod_ne_of_near {cap p q : ℕ} (hpq : p < q) (hq : q < p + cap) : p % cap ≠ q % cap := by
  intro heq
  have hdvd : cap ∣ q - p := (Nat.modEq_iff_dvd' hpq.le).mp heq
  exact absurd (Nat.le_of_dvd (by omega) hdvd) (by omega)

/-- Reading the position just written. -/
lemma read_write_self (r : HistoryRing β) (cap p : ℕ) (v : β) :
    (r.write cap p v).read cap p = ⟨p, v⟩ := by
  simp [read, write]

/-- A write leaves every position less than one capacity behind it in place. -/
lemma read_write_of_near (r : HistoryRing β) {cap p q : ℕ} (v : β) (hpq : p < q)
    (hq : q < p + cap) : (r.write cap q v).read cap p = r.read cap p := by
  simp [read, write, Function.update_of_ne (mod_ne_of_near hpq hq)]

/-- Writing the next position keeps the range that lags by less than one capacity. -/
lemma Holds.write {r : HistoryRing β} {cap : ℕ} {val : ℕ → β} {lo hi : ℕ}
    (h : r.Holds cap val lo hi) {lo' : ℕ} (hlo : lo ≤ lo') (hcap : hi < lo' + cap) :
    (r.write cap hi (val hi)).Holds cap val lo' (hi + 1) := by
  intro p hp hp'
  rcases Nat.lt_succ_iff_lt_or_eq.mp hp' with hlt | rfl
  · rw [read_write_of_near r _ hlt (by omega)]
    exact h p (hlo.trans hp) hlt
  · exact read_write_self r cap p _

/-- Write the values of the positions `[q, q + n)` one after the other. -/
def writeRange (r : HistoryRing β) (cap : ℕ) (val : ℕ → β) (q : ℕ) : ℕ → HistoryRing β
  | 0 => r
  | n + 1 => (writeRange r cap val q n).write cap (q + n) (val (q + n))

/-- Positions written one after the other extend the range the ring holds. -/
lemma Holds.writeRange {r : HistoryRing β} {cap : ℕ} {val : ℕ → β} {q : ℕ}
    (h : r.Holds cap val (q - cap) q) (n : ℕ) :
    (r.writeRange cap val q n).Holds cap val (q + n - cap) (q + n) := by
  induction n with
  | zero => exact h
  | succ n ih => exact ih.write (by omega) (by omega)

/-- Writing two ranges one after the other. -/
lemma writeRange_add (r : HistoryRing β) (cap : ℕ) (val : ℕ → β) (q n m : ℕ) :
    (r.writeRange cap val q n).writeRange cap val (q + n) m = r.writeRange cap val q (n + m) := by
  induction m with
  | zero => rfl
  | succ m ih =>
    rw [writeRange, ih, ← Nat.add_assoc, writeRange, Nat.add_assoc]

/-- Two rings hold the same values in the slots of the positions below `n`. -/
def AgreeBelow (r r' : HistoryRing β) (cap n : ℕ) : Prop :=
  ∀ p < n, (r'.read cap p).value = (r.read cap p).value

/-- Rings that agree below a bound agree below every smaller one. -/
lemma AgreeBelow.mono {r r' : HistoryRing β} {cap n m : ℕ} (h : r.AgreeBelow r' cap n)
    (hle : m ≤ n) : r.AgreeBelow r' cap m :=
  fun p hp => h p (hp.trans_le hle)

/-- Writing the same next value keeps the agreement. -/
lemma AgreeBelow.write {r r' : HistoryRing β} {cap n : ℕ} (h : r.AgreeBelow r' cap n) (v : β) :
    (r.write cap n v).AgreeBelow (r'.write cap n v) cap (n + 1) := by
  intro p hp
  by_cases hslot : p % cap = n % cap
  · simp [read, HistoryRing.write, hslot]
  · have hlt : p < n := by
      rcases Nat.lt_succ_iff_lt_or_eq.mp hp with hlt | rfl
      · exact hlt
      · exact absurd rfl hslot
    simpa [read, HistoryRing.write, Function.update_of_ne hslot] using h p hlt

end HistoryRing

end Voxtral
