import Mathlib.Data.List.Perm.Basic
import Mathlib.Data.List.Nodup
import Mathlib.Order.Monotone.Basic

/-!
# Writes into a buffer

A buffer is a list of cells, a write names one cell and its new value.  Several writers that share no cell
may be interleaved in any way: what the buffer holds afterwards depends on the set of writes only.  The last
section cuts a range of indices into consecutive runs, which is how the writers share the work.
-/

namespace Voxtral

variable {α : Type*}

/-- Performs writes `(cell, value)` one after the other. -/
def applyWrites (buf : List α) (ws : List (ℕ × α)) : List α :=
  ws.foldl (fun b w => b.set w.1 w.2) buf

/-- The writes that put `xs` at the cells `[base, base + xs.length)`. -/
def runWrites (base : ℕ) (xs : List α) : List (ℕ × α) :=
  (List.range' base xs.length).zip xs

/-- No writes change nothing. -/
@[simp] lemma applyWrites_nil (buf : List α) : applyWrites buf [] = buf := rfl

/-- The first write comes first. -/
@[simp] lemma applyWrites_cons (buf : List α) (w : ℕ × α) (ws : List (ℕ × α)) :
    applyWrites buf (w :: ws) = applyWrites (buf.set w.1 w.2) ws := rfl

/-- Writes keep the length. -/
@[simp] lemma applyWrites_length (buf : List α) (ws : List (ℕ × α)) :
    (applyWrites buf ws).length = buf.length := by
  induction ws generalizing buf with
  | nil => rfl
  | cons w ws ih => rw [applyWrites_cons, ih, List.length_set]

/-- Writes to pairwise different cells may be performed in any order. -/
lemma applyWrites_perm {ws vs : List (ℕ × α)} (hperm : ws.Perm vs) (hcells : (ws.map Prod.fst).Nodup)
    (buf : List α) : applyWrites buf ws = applyWrites buf vs := by
  apply hperm.foldl_eq'
  intro x hx y hy b
  by_cases hcell : x.1 = y.1
  · have hxy : x = y := List.inj_on_of_nodup_map hcells hx hy hcell
    rw [hxy]
  · exact List.set_comm x.2 y.2 hcell

/-- A run of no values. -/
@[simp] lemma runWrites_nil (base : ℕ) : runWrites base ([] : List α) = [] := by simp [runWrites]

/-- A run of values starts at its base. -/
lemma runWrites_cons (base : ℕ) (x : α) (xs : List α) :
    runWrites base (x :: xs) = (base, x) :: runWrites (base + 1) xs := by
  simp [runWrites, List.range'_succ]

/-- Runs that follow each other. -/
lemma runWrites_append (base : ℕ) (xs ys : List α) :
    runWrites base (xs ++ ys) = runWrites base xs ++ runWrites (base + xs.length) ys := by
  induction xs generalizing base with
  | nil => simp
  | cons x xs ih =>
    rw [List.cons_append, runWrites_cons, runWrites_cons, ih, List.cons_append, List.length_cons]
    congr 3
    omega

/-- A run writes consecutive cells. -/
lemma runWrites_cells (base : ℕ) (xs : List α) :
    (runWrites base xs).map Prod.fst = List.range' base xs.length := by
  unfold runWrites
  rw [List.map_fst_zip]
  simp

/-- A run replaces the cells it covers. -/
lemma applyWrites_runWrites (base : ℕ) (xs buf : List α) (hroom : base + xs.length ≤ buf.length) :
    applyWrites buf (runWrites base xs) = buf.take base ++ xs ++ buf.drop (base + xs.length) := by
  induction xs generalizing base buf with
  | nil => simp
  | cons x xs ih =>
    rw [List.length_cons] at hroom
    have hcell : base < buf.length := by omega
    rw [runWrites_cons, applyWrites_cons, ih (base + 1) _ (by rw [List.length_set]; omega)]
    have htake : (buf.set base x).take (base + 1) = buf.take base ++ [x] := by
      rw [List.take_succ_eq_append_getElem (by rwa [List.length_set]), List.getElem_set_self,
        List.take_set_of_le (le_refl base)]
    have hdrop : (buf.set base x).drop (base + 1 + xs.length) = buf.drop (base + (x :: xs).length) := by
      rw [List.drop_set_of_lt (by omega), List.length_cons]
      congr 1
      omega
    rw [htake, hdrop]
    simp

/-- Writes that are those of a run at the start of the buffer, in any order, leave the run there. -/
theorem take_applyWrites_of_perm {ws : List (ℕ × α)} {xs : List α} (hperm : ws.Perm (runWrites 0 xs))
    (buf : List α) (hroom : xs.length ≤ buf.length) : (applyWrites buf ws).take xs.length = xs := by
  have hcells : (ws.map Prod.fst).Nodup := by
    rw [(hperm.map Prod.fst).nodup_iff, runWrites_cells]
    exact List.nodup_range' 1
  rw [applyWrites_perm hperm hcells, applyWrites_runWrites 0 xs buf (by omega)]
  simp

/-! ### Sharing a range -/

/-- What is done run by run between consecutive cuts is what is done from the first cut to the last. -/
lemma flatMap_cuts {part : ℕ → ℕ → List α} {n : ℕ} (hnone : ∀ a, part a a = [])
    (hnext : ∀ a b c, a ≤ b → b ≤ c → c ≤ n → part a b ++ part b c = part a c) {cut : ℕ → ℕ}
    (hcut : Monotone cut) {t : ℕ} (hend : cut t ≤ n) :
    (List.range t).flatMap (fun i => part (cut i) (cut (i + 1))) = part (cut 0) (cut t) := by
  induction t with
  | zero => exact (hnone _).symm
  | succ t ih =>
    have h0 : cut 0 ≤ cut t := hcut (Nat.zero_le t)
    have h1 : cut t ≤ cut (t + 1) := hcut (Nat.le_succ t)
    rw [List.range_succ, List.flatMap_append, ih (h1.trans hend), List.flatMap_singleton,
      hnext _ _ _ h0 h1 hend]

/-- The cuts of an even split of `n` by integer division. -/
lemma monotone_evenCut (n t : ℕ) : Monotone (fun i => n * i / t) :=
  fun _ _ hij => Nat.div_le_div_right (Nat.mul_le_mul_left n hij)

/-- Consecutive pieces of one size are the bytes they cover. -/
lemma flatMap_pieces (xs : List α) (size a n : ℕ) :
    (List.range' a n).flatMap (fun i => (xs.drop (i * size)).take size) =
      (xs.drop (a * size)).take (n * size) := by
  induction n generalizing a with
  | zero => simp
  | succ n ih =>
    rw [List.range'_succ, List.flatMap_cons, ih, Nat.add_mul n 1, Nat.one_mul, Nat.add_comm (n * size),
      List.take_add, List.drop_drop, Nat.add_mul a 1, Nat.one_mul]

end Voxtral
