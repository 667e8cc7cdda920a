import Mathlib.Data.List.Basic
import Mathlib.Logic.Function.Basic
import Mathlib.Tactic.Ring
import Mathlib.Tactic.Linarith

/-!
# Flat buffers written by loops

A flat buffer is a function from addresses to values.  A loop that stores one value per iteration is
`writeEach`: the iterations in order, the address and the value of each.  `moveRange` is an
overlapping block move.  `closeGaps` moves the rows of a row-major matrix together after the first
column was dropped, one row after the other; a row is only overwritten after it was moved.
-/

namespace Voxtral

variable {ι β : Type*}

/-- The loop over `l` that stores `val i` at address `key i`. -/
def writeEach (l : List ι) (key : ι → ℕ) (val : ι → β) (buf : ℕ → β) : ℕ → β :=
  l.foldl (fun buf i => Function.update buf (key i) (val i)) buf

/-- An address no iteration stores to is unchanged. -/
lemma writeEach_of_not_mem {l : List ι} {key : ι → ℕ} (val : ι → β) (buf : ℕ → β) {k : ℕ}
    (hk : ∀ i ∈ l, key i ≠ k) : writeEach l key val buf k = buf k := by
  induction l generalizing buf with
  | nil => rfl
  | cons a l ih =>
    have hrest := ih (Function.update buf (key a) (val a)) fun i hi => hk i (List.mem_cons_of_mem a hi)
    have hhead : k ≠ key a := (hk a List.mem_cons_self).symm
    rw [Function.update_of_ne hhead] at hrest
    exact hrest

/-- After the loop an address holds the value of an iteration that stored there, when all iterations
that store there agree on it. -/
lemma writeEach_of_mem {l : List ι} {key : ι → ℕ} {val : ι → β} (buf : ℕ → β) {i : ι} (hi : i ∈ l)
    (hagree : ∀ j ∈ l, key j = key i → val j = val i) :
    writeEach l key val buf (key i) = val i := by
  induction l generalizing buf i with
  | nil => simp at hi
  | cons a l ih =>
    by_cases hlater : ∃ j ∈ l, key j = key i
    · obtain ⟨j, hj, hkey⟩ := hlater
      have hval := hagree j (List.mem_cons_of_mem a hj) hkey
      rw [← hkey, ← hval]
      refine ih _ hj fun k hk hkk => ?_
      rw [hval]
      exact hagree k (List.mem_cons_of_mem a hk) (hkk.trans hkey)
    · -- no later iteration stores at this address, so `i` itself is the head
      push Not at hlater
      obtain rfl | hi' := List.mem_cons.mp hi
      · have hrest := writeEach_of_not_mem val (Function.update buf (key i) (val i)) hlater
        rw [Function.update_self] at hrest
        exact hrest
      · exact absurd rfl (hlater i hi')

/-- The entries of a matrix with rows of length `n` have different addresses. -/
lemma matrixKey_inj {n m m' f f' : ℕ} (hf : f < n) (hf' : f' < n) (hkey : m * n + f = m' * n + f') :
    f = f' ∧ m = m' := by
  have hmod : f = f' := by
    have h := congrArg (· % n) hkey
    simpa [Nat.mul_add_mod', Nat.mod_eq_of_lt hf, Nat.mod_eq_of_lt hf'] using h
  subst hmod
  exact ⟨rfl, Nat.eq_of_mul_eq_mul_right (by omega) (Nat.add_right_cancel hkey)⟩

/-- `memmove`: copy `len` values from address `src` to address `dst`. -/
def moveRange (dst src len : ℕ) (buf : ℕ → β) : ℕ → β := fun k =>
  if dst ≤ k ∧ k < dst + len then buf (src + (k - dst)) else buf k

/-- Drop the first column of a row-major matrix of `rows` rows of length `n`, row by row. -/
def closeGaps (rows n : ℕ) (buf : ℕ → β) : ℕ → β :=
  (List.range rows).foldl (fun buf m => moveRange (m * (n - 1)) (m * n + 1) (n - 1) buf) buf

/-- Behind the rows already moved nothing has changed. -/
lemma closeGaps_above (rows n : ℕ) (buf : ℕ → β) {k : ℕ} (hk : rows * (n - 1) ≤ k) :
    closeGaps rows n buf k = buf k := by
  induction rows with
  | zero => rfl
  | succ rows ih =>
    have hsucc : (rows + 1) * (n - 1) = rows * (n - 1) + (n - 1) := by ring
    have hlast : closeGaps (rows + 1) n buf =
        moveRange (rows * (n - 1)) (rows * n + 1) (n - 1) (closeGaps rows n buf) := by
      simp [closeGaps, List.range_succ]
    rw [hlast, moveRange, if_neg (by omega), ih (by omega)]

/-- Every row ends up without its first entry. -/
lemma closeGaps_entry {rows n : ℕ} (buf : ℕ → β) {m j : ℕ} (hm : m < rows) (hj : j < n - 1) :
    closeGaps rows n buf (m * (n - 1) + j) = buf (m * n + 1 + j) := by
  induction rows with
  | zero => omega
  | succ rows ih =>
    have hlast : closeGaps (rows + 1) n buf =
        moveRange (rows * (n - 1)) (rows * n + 1) (n - 1) (closeGaps rows n buf) := by
      simp [closeGaps, List.range_succ]
    rw [hlast, moveRange]
    rcases Nat.lt_succ_iff_lt_or_eq.mp hm with hlt | rfl
    · have hrow : (m + 1) * (n - 1) ≤ rows * (n - 1) := Nat.mul_le_mul_right _ hlt
      have hsucc : (m + 1) * (n - 1) = m * (n - 1) + (n - 1) := by ring
      rw [if_neg (by omega)]
      exact ih hlt
    · have hsrc : m * (n - 1) ≤ m * n := Nat.mul_le_mul_left _ (Nat.sub_le n 1)
      rw [if_pos (by omega), Nat.add_sub_cancel_left]
      exact closeGaps_above m n buf (by omega)

end Voxtral
