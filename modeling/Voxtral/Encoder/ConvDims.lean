import Mathlib.Order.Lattice
import Mathlib.Data.Int.Basic
import Voxtral.Constants

/-!
# Lengths of the causal convolutions

The conv stem of the encoder keeps the length in its first layer and halves it in the second.  Every
chunk and every window of the encoder derives its number of frames from `computeCausalConv1dDims`.
-/

namespace Voxtral

/-- `causal_conv1d_dims`. -/
structure CausalConv1dDims where
  padLeft : ℤ
  padRight : ℤ
  paddedLen : ℤ
  outLen : ℤ
  deriving DecidableEq, Repr

/-- The least integer that is not below the quotient. -/
def ceilDiv (x y : ℤ) : ℤ := -(-x / y)

/-- `compute_causal_conv1d_dims`. -/
def computeCausalConv1dDims (inLen kernelSize stride : ℤ) : CausalConv1dDims :=
  if inLen ≤ 0 ∨ kernelSize ≤ 0 ∨ stride ≤ 0 then ⟨0, 0, 0, 0⟩
  else
    let paddingTotal := kernelSize - stride
    -- the source divides in `float`, which is exact for the lengths of chunks and windows
    let nFrames := ceilDiv (inLen - kernelSize + paddingTotal) stride + 1
    let targetLength := (nFrames - 1) * stride + (kernelSize - paddingTotal)
    let extraPadding := targetLength - inLen
    let paddedLen := inLen + paddingTotal + max 0 extraPadding
    ⟨paddingTotal, max 0 extraPadding, paddedLen, (paddedLen - kernelSize).tdiv stride + 1⟩

/-- The first convolution keeps the length. -/
lemma computeCausalConv1dDims_same {n : ℤ} (hn : 0 < n) :
    computeCausalConv1dDims n 3 1 = ⟨2, 0, n + 2, n⟩ := by
  have hcond : ¬ (n ≤ 0 ∨ (3 : ℤ) ≤ 0 ∨ (1 : ℤ) ≤ 0) := by omega
  have hceil : ceilDiv (n - 3 + (3 - 1)) 1 = n - 1 := by
    unfold ceilDiv
    omega
  have hextra : max 0 ((n - 1 + 1 - 1) * 1 + (3 - (3 - 1)) - n) = 0 := by omega
  simp only [computeCausalConv1dDims, if_neg hcond, hceil, hextra]
  rw [Int.tdiv_one]
  congr 1
  · omega
  · omega

/-- The second convolution halves the length, rounded up. -/
lemma computeCausalConv1dDims_half {n : ℤ} (hn : 0 < n) :
    computeCausalConv1dDims n 3 2 =
      ⟨1, 2 * ((n + 1) / 2) - n, 2 * ((n + 1) / 2) + 1, (n + 1) / 2⟩ := by
  have hcond : ¬ (n ≤ 0 ∨ (3 : ℤ) ≤ 0 ∨ (2 : ℤ) ≤ 0) := by omega
  have hceil : ceilDiv (n - 3 + (3 - 2)) 2 = (n + 1) / 2 - 1 := by
    unfold ceilDiv
    omega
  have hextra : max 0 (((n + 1) / 2 - 1 + 1 - 1) * 2 + (3 - (3 - 2)) - n) =
      2 * ((n + 1) / 2) - n := by omega
  have hpadded : n + (3 - 2) + (2 * ((n + 1) / 2) - n) = 2 * ((n + 1) / 2) + 1 := by omega
  have hout : (2 * ((n + 1) / 2) + 1 - 3).tdiv 2 + 1 = (n + 1) / 2 := by
    rw [Int.tdiv_eq_ediv_of_nonneg (by omega)]
    omega
  simp only [computeCausalConv1dDims, if_neg hcond, hceil, hextra, hpadded, hout]
  rfl

/-- `conv_out_len` of `build_encoder_graph`: the frames behind both convolutions. -/
def convOutLen (nFrames : ℤ) : ℤ :=
  (computeCausalConv1dDims (computeCausalConv1dDims nFrames 3 1).outLen 3 2).outLen

/-- `mel_frames_to_enc_tokens`. -/
def melFramesToEncTokens (nFrames : ℤ) : ℤ :=
  convOutLen nFrames - (convOutLen nFrames).tmod downsampleFactor

/-- The halving layer rounds up. -/
lemma convOutLen_natCast (n : ℕ) : convOutLen n = ((n + 1) / 2 : ℕ) := by
  unfold convOutLen
  rcases Nat.eq_zero_or_pos n with rfl | hn
  · rfl
  · have hpos : (0 : ℤ) < n := by exact_mod_cast hn
    rw [computeCausalConv1dDims_same hpos, computeCausalConv1dDims_half hpos]
    push_cast
    rfl

/-- The tokens are the frames without the remainder of the last group. -/
lemma melFramesToEncTokens_natCast (n : ℕ) :
    melFramesToEncTokens n = (4 * ((n + 1) / 8) : ℕ) := by
  unfold melFramesToEncTokens
  rw [convOutLen_natCast, downsampleFactor, Int.tmod_eq_emod_of_nonneg (Int.natCast_nonneg _)]
  omega

end Voxtral
