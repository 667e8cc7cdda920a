import Mathlib.Data.Int.Basic
import Mathlib.Tactic.Linarith

/-!
# Two's complement narrowing

A 32-bit signed register keeps an integer modulo `2 ^ 32`, represented in `[-2 ^ 31, 2 ^ 31)`.
`narrow32` is that representative.  Sums, differences and products of narrowed values followed by
a narrowing are the narrowing of the exact result, so an expression evaluated in 32-bit registers is
modelled by narrowing its exact value once.  Sizes are 64-bit unsigned: `sizeAdd` and `sizeSub` are exact
as long as they stay in range.  Audio comes as little-endian 16-bit samples.
-/

namespace Voxtral

/-- The value a 32-bit signed register holds after the integer `x` was stored in it. -/
def narrow32 (x : ℤ) : ℤ := x.bmod (2 ^ 32)

/-- An integer in the signed 32-bit range is stored unchanged. -/
lemma narrow32_of_fits {x : ℤ} (hlo : -2 ^ 31 ≤ x) (hhi : x < 2 ^ 31) : narrow32 x = x := by
  unfold narrow32
  apply Int.bmod_eq_of_le <;> norm_num <;> omega

/-- The first `2 ^ 31` integers past the signed range come out negative. -/
lemma narrow32_of_overflow {x : ℤ} (hlo : 2 ^ 31 ≤ x) (hhi : x < 2 ^ 32) :
    narrow32 x = x - 2 ^ 32 := by
  have hfits : narrow32 (x - 2 ^ 32) = x - 2 ^ 32 :=
    narrow32_of_fits (by omega) (by omega)
  have hmod : narrow32 (x - 2 ^ 32) = narrow32 x := by
    unfold narrow32
    have h := Int.add_mul_bmod_self_right (x - 2 ^ 32) 1 (2 ^ 32)
    rw [← h]
    norm_num
  rw [← hmod, hfits]

/-- A difference of two `std::size_t` values. -/
def sizeSub (a b : ℕ) : ℕ := (a + 2 ^ 64 - b) % 2 ^ 64

/-- A sum of two `std::size_t` values. -/
def sizeAdd (a b : ℕ) : ℕ := (a + b) % 2 ^ 64

/-- A difference that does not underflow. -/
lemma sizeSub_of_le {a b : ℕ} (hba : b ≤ a) (ha : a < 2 ^ 64) : sizeSub a b = a - b := by
  unfold sizeSub
  rw [show a + 2 ^ 64 - b = (a - b) + 2 ^ 64 by omega, Nat.add_mod_right]
  exact Nat.mod_eq_of_lt (by omega)

/-- A sum that does not overflow. -/
lemma sizeAdd_of_lt {a b : ℕ} (h : a + b < 2 ^ 64) : sizeAdd a b = a + b := Nat.mod_eq_of_lt h

/-- The signed 16-bit samples stored little-endian in bytes. -/
def decodePcm16 : List UInt8 → List Int16
  | low :: high :: rest => (low.toUInt16 ||| (high.toUInt16 <<< 8)).toInt16 :: decodePcm16 rest
  | _ => []

/-- Two bytes a sample. -/
lemma length_decodePcm16 (bytes : List UInt8) : (decodePcm16 bytes).length = bytes.length / 2 := by
  match bytes with
  | [] => rfl
  | [_] => simp [decodePcm16]
  | low :: high :: rest =>
    rw [decodePcm16, List.length_cons, length_decodePcm16 rest, List.length_cons, List.length_cons]
    omega

end Voxtral
