import Mathlib.Algebra.Notation.Pi.Defs
import Voxtral.Encoder.ConvDims
import Voxtral.Stream.EncoderRuns

/-!
# The conv stem on windows of the Mel frames

Two causal convolutions turn Mel frames into the rows of the transformer.  A batch applies them to a
window of the Mel frames only.  The left padding of the window passes the bias and the activation of the
first layer, so the rows at the front of a window are not those of the whole sequence; the rows behind
the second one are (`ConvStem.run_window`).

The arithmetic is left open: the entries of weights, biases and frames come from any type with a zero, a
sum and a product.
-/

namespace Voxtral

variable {ρ : Type*} [Zero ρ] {nMel encDim c d : ℕ}

/-- The weight and the bias of a convolution of kernel size three. -/
structure ConvLayer (ρ : Type*) (c d : ℕ) where
  weight : Fin d → Fin c → Fin 3 → ρ
  bias : Fin d → ρ

/-- The conv stem of the encoder; `activation` is `ggml_gelu_erf` on an entry. -/
structure ConvStem (ρ : Type*) (nMel encDim : ℕ) where
  conv0 : ConvLayer ρ nMel encDim
  conv1 : ConvLayer ρ encDim encDim
  activation : ρ → ρ

section Layers

variable [Add ρ] [Mul ρ]

/-- A column of `ggml_conv_1d` and the bias: the products with the three frames under the kernel. -/
def ConvLayer.column (layer : ConvLayer ρ c d) (taps : Fin 3 → Fin c → ρ) : Fin d → ρ := fun o =>
  ((List.finRange c).flatMap fun i =>
    (List.finRange 3).map fun k => layer.weight o i k * taps k i).sum + layer.bias o

/-- `causal_conv1d_graph` with kernel size three, not symmetric. -/
def causalConv1dGraph (layer : ConvLayer ρ c d) (stride : ℕ) (x : List (Fin c → ρ)) :
    List (Fin d → ρ) :=
  let dims := computeCausalConv1dDims x.length 3 stride
  let padded := List.replicate dims.padLeft.toNat 0 ++ x ++ List.replicate dims.padRight.toNat 0
  (List.range dims.outLen.toNat).map fun t =>
    layer.column fun k => padded.getD (t * stride + k) 0

/-- The first layer of the stem with its activation. -/
def ConvStem.hidden (stem : ConvStem ρ nMel encDim) (mel : List (Fin nMel → ρ)) :
    List (Fin encDim → ρ) :=
  (causalConv1dGraph stem.conv0 1 mel).map (stem.activation ∘ ·)

/-- Both layers of the stem. -/
def ConvStem.run (stem : ConvStem ρ nMel encDim) (mel : List (Fin nMel → ρ)) :
    List (Fin encDim → ρ) :=
  (causalConv1dGraph stem.conv1 2 (stem.hidden mel)).map (stem.activation ∘ ·)

end Layers

/-! ## Rows of the stem -/

section Rows

/-- Entry `i` of a list behind `pad` zeros. -/
def leftPadded {χ : Type*} [Zero χ] (pad : ℕ) (x : List χ) (i : ℕ) : χ :=
  if i < pad then 0 else x.getD (i - pad) 0

/-- Zeros on the right are read like what is behind the end. -/
lemma getD_padded {χ : Type*} [Zero χ] (pad right : ℕ) (x : List χ) (i : ℕ) :
    (List.replicate pad 0 ++ x ++ List.replicate right 0).getD i 0 = leftPadded pad x i := by
  unfold leftPadded
  by_cases hpad : i < pad
  · rw [if_pos hpad, List.append_assoc, List.getD_append _ _ _ _ (by simpa using hpad),
      List.getD_replicate _ hpad]
  · rw [if_neg hpad, List.append_assoc, List.getD_append_right _ _ _ _ (by simpa using hpad),
      List.length_replicate]
    by_cases hx : i - pad < x.length
    · rw [List.getD_append _ _ _ _ hx]
    · rw [not_lt] at hx
      rw [List.getD_append_right _ _ _ _ hx, List.getD_eq_default x 0 hx]
      by_cases hright : i - pad - x.length < right
      · exact List.getD_replicate _ hright
      · exact List.getD_eq_default _ _ (by simpa using hright)

variable [Add ρ] [Mul ρ] (stem : ConvStem ρ nMel encDim) (mel : List (Fin nMel → ρ))

/-- The columns of the first layer, one for each frame. -/
lemma causalConv1dGraph_same (layer : ConvLayer ρ c d) (x : List (Fin c → ρ)) :
    causalConv1dGraph layer 1 x =
      (List.range x.length).map fun t => layer.column fun k => leftPadded 2 x (t + k) := by
  rcases Nat.eq_zero_or_pos x.length with hnil | hpos
  · rw [List.length_eq_zero_iff.mp hnil]
    rfl
  · have hdims : computeCausalConv1dDims x.length 3 (1 : ℕ) = ⟨2, 0, x.length + 2, x.length⟩ :=
      computeCausalConv1dDims_same (by exact_mod_cast hpos)
    simp only [causalConv1dGraph, hdims, getD_padded, Nat.mul_one, Int.toNat_natCast]
    rfl

/-- The columns of the second layer, one for two frames. -/
lemma causalConv1dGraph_half (layer : ConvLayer ρ c d) (x : List (Fin c → ρ)) :
    causalConv1dGraph layer 2 x =
      (List.range ((x.length + 1) / 2)).map fun t =>
        layer.column fun k => leftPadded 1 x (2 * t + k) := by
  rcases Nat.eq_zero_or_pos x.length with hnil | hpos
  · have hdims : computeCausalConv1dDims x.length 3 (2 : ℕ) = ⟨0, 0, 0, 0⟩ := by
      rw [hnil]
      rfl
    simp only [causalConv1dGraph, hdims]
    simp only [hnil, Nat.zero_add, Nat.reduceDiv, Int.toNat_zero, List.range_zero, List.map_nil]
  · have hdims := computeCausalConv1dDims_half (n := x.length) (by exact_mod_cast hpos)
    have hout : (((x.length : ℤ) + 1) / 2).toNat = (x.length + 1) / 2 := by omega
    simp only [causalConv1dGraph, Nat.cast_ofNat, hdims, getD_padded, hout, Nat.mul_comm _ 2]
    rfl

/-- The first layer keeps the number of frames. -/
@[simp] lemma ConvStem.length_hidden : (stem.hidden mel).length = mel.length := by
  rw [ConvStem.hidden, causalConv1dGraph_same, List.length_map, List.length_map, List.length_range]

/-- Row `e` of the stem. -/
def ConvStem.row (e : ℕ) : Fin encDim → ρ :=
  stem.activation ∘ stem.conv1.column fun k => leftPadded 1 (stem.hidden mel) (2 * e + k)

/-- The stem computes its rows. -/
lemma ConvStem.run_eq :
    stem.run mel = (List.range ((mel.length + 1) / 2)).map (stem.row mel) := by
  rw [ConvStem.run, causalConv1dGraph_half, List.map_map, stem.length_hidden]
  rfl

/-- A hidden frame depends on the Mel frames under its kernel. -/
lemma ConvStem.hidden_getD {t : ℕ} (ht : t < mel.length) :
    (stem.hidden mel).getD t 0 =
      stem.activation ∘ stem.conv0.column fun k => leftPadded 2 mel (t + k) := by
  rw [ConvStem.hidden, causalConv1dGraph_same, List.map_map,
    List.getD_eq_getElem _ _ (by simpa using ht), List.getElem_map, List.getElem_range]
  rfl

end Rows

/-! ## Windows -/

section Windows

variable [Add ρ] [Mul ρ] (stem : ConvStem ρ nMel encDim) {mel window : List (Fin nMel → ρ)} {a : ℕ}

/-- `window` holds the Mel frames from frame `2 * a` on. -/
def IsWindow (mel window : List (Fin nMel → ρ)) (a : ℕ) : Prop := window <+: mel.drop (2 * a)

omit [Zero ρ] [Add ρ] [Mul ρ] in
/-- A window ends within the frames. -/
lemma IsWindow.length_le (h : IsWindow mel window a) : window.length ≤ mel.length - 2 * a := by
  have hle := List.IsPrefix.length_le h
  rwa [List.length_drop] at hle

omit [Add ρ] [Mul ρ] in
/-- An entry of a window is the frame at its place. -/
lemma IsWindow.getD (h : IsWindow mel window a) {i : ℕ} (hi : i < window.length) :
    window.getD i 0 = mel.getD (2 * a + i) 0 := by
  have hle := h.length_le
  rw [List.getD_eq_getElem _ _ hi, List.getD_eq_getElem _ _ (by omega), h.getElem hi,
    List.getElem_drop]

/-- A hidden frame of a window is the one of the whole sequence, if its kernel does not reach the padding
of the window. -/
lemma IsWindow.hidden (h : IsWindow mel window a) {t : ℕ} (hfar : a = 0 ∨ 2 ≤ t)
    (ht : t < window.length) :
    (stem.hidden window).getD t 0 = (stem.hidden mel).getD (2 * a + t) 0 := by
  have hle := h.length_le
  rw [stem.hidden_getD window ht, stem.hidden_getD mel (by omega)]
  congr 2
  funext k
  have hk : (k : ℕ) < 3 := k.isLt
  unfold leftPadded
  rcases hfar with rfl | hfar
  · rw [Nat.mul_zero, Nat.zero_add]
    split_ifs
    · exact rfl
    · rw [h.getD (by omega), Nat.mul_zero, Nat.zero_add]
  · rw [if_neg (by omega), if_neg (by omega), h.getD (by omega)]
    congr 1
    omega

/-- A row of a window is the one of the whole sequence, if it is the third one at least or the window
starts where the sequence does. -/
lemma IsWindow.row (h : IsWindow mel window a) {e : ℕ} (hfar : a = 0 ∨ 2 ≤ e)
    (he : 2 * (e + 1) ≤ window.length) : stem.row window e = stem.row mel (a + e) := by
  unfold ConvStem.row
  congr 2
  funext k
  have hk : (k : ℕ) < 3 := k.isLt
  unfold leftPadded
  by_cases hfront : 2 * e + (k : ℕ) < 1
  · have ha : a = 0 := by omega
    rw [if_pos hfront, if_pos (by omega)]
  · rw [if_neg hfront, if_neg (by omega), h.hidden stem (by omega) (by omega)]
    congr 1
    omega

/-- The rows `[i, i + n)` of a window are the rows `[a + i, a + i + n)` of the whole sequence. -/
theorem ConvStem.run_window (h : IsWindow mel window a) {i n : ℕ} (hfar : a = 0 ∨ 2 ≤ i)
    (hin : window.length = 2 * (i + n)) :
    ((stem.run window).drop i).take n = ((stem.run mel).drop (a + i)).take n := by
  have hle := h.length_le
  refine List.ext_getElem ?_ fun j hj hj' => ?_
  · simp only [stem.run_eq, List.length_take, List.length_drop, List.length_map, List.length_range]
    omega
  · simp only [stem.run_eq, List.getElem_take, List.getElem_drop, List.getElem_map,
      List.getElem_range]
    simp only [List.length_take] at hj
    rw [h.row stem (by omega) (by omega), Nat.add_assoc]

end Windows

/-! ## The rows of a batch -/

section Batch

variable [Add ρ] [Mul ρ] (stem : ConvStem ρ nMel encDim) (enc : EncoderStream (Fin nMel → ρ))

/-- `conv_slice_start` of a batch. -/
def convSliceStart (qStart : ℕ) : ℕ := qStart - convMelStart qStart / 2

/-- The rows `run_encoder_kv_batch` and `build_encoder_kv_graph` hand to the transformer: the slice of
the stem over the Mel frames `[convMelStart, convMelEnd)`.  Nothing if the tail misses one of them. -/
def variableConvRows (qStart n : ℕ) : Option (List (Fin encDim → ρ)) :=
  if convMelStart qStart < enc.tailBase ∨
      enc.tailBase + enc.melTail.length < convMelEnd qStart n then none
  else
    let convLen := convMelEnd qStart n - convMelStart qStart
    let convCm := (List.range convLen).map fun i =>
      enc.melTail.getD (convMelStart qStart + i - enc.tailBase) 0
    some (((stem.run convCm).drop (convSliceStart qStart)).take n)

omit [Add ρ] [Mul ρ] in
/-- A frame of the window of `run_encoder_steady_batch`: zero before the stream starts. -/
def steadyMel (absolute : ℤ) : Option (Fin nMel → ρ) :=
  if absolute < 0 then some 0
  else
    let rel := absolute - enc.tailBase
    if rel < 0 ∨ (enc.melTail.length : ℤ) ≤ rel then none
    else some (enc.melTail.getD rel.toNat 0)

/-- The rows `run_encoder_steady_batch` and `build_encoder_steady_graph` hand to the transformer: the
last four over a window of twelve Mel frames. -/
def steadyConvRows (qStart : ℕ) : Option (List (Fin encDim → ρ)) :=
  ((List.range 12).mapM fun i : ℕ => steadyMel enc (2 * ((qStart : ℤ) - 2) + i)).map fun convCm =>
    ((stem.run convCm).drop 2).take 4

/-- The rows a batch of a stream hands to the transformer. -/
def batchConvRows (r : EncoderRun) : Option (List (Fin encDim → ρ)) :=
  if r.n = 4 ∧ r.physical = 4 then steadyConvRows stem enc r.qStart
  else variableConvRows stem enc r.qStart r.n

/-- The encoder is about to run the batch `r`: it emitted the frames before it, was handed the first
Mel frames of `mel`, those of the batch among them, and kept the tail from the window of the batch on. -/
structure BatchReady (mel : List (Fin nMel → ρ)) (r : EncoderRun) : Prop where
  emitted : enc.emitted = r.qStart
  pushed : enc.stableMel ≤ mel.length
  tail : enc.melTail = (mel.take enc.stableMel).drop enc.tailBase
  base : enc.tailBase ≤ convMelStart r.qStart
  stable : convMelEnd r.qStart r.n ≤ enc.stableMel

variable {enc} {mel : List (Fin nMel → ρ)} {r : EncoderRun}

omit [Zero ρ] [Add ρ] [Mul ρ] in
/-- The tail reaches up to the stable frames. -/
lemma BatchReady.length_tail (h : BatchReady enc mel r) :
    enc.melTail.length = enc.stableMel - enc.tailBase := by
  rw [h.tail, List.length_drop, List.length_take, Nat.min_eq_left h.pushed]

omit [Add ρ] [Mul ρ] in
/-- The tail holds the Mel frames of the batch. -/
lemma BatchReady.getD_tail (h : BatchReady enc mel r) {f : ℕ} (hbase : enc.tailBase ≤ f)
    (hf : f < enc.stableMel) : enc.melTail.getD (f - enc.tailBase) 0 = mel.getD f 0 := by
  have hpushed := h.pushed
  have hlength := h.length_tail
  rw [List.getD_eq_getElem _ _ (by omega), List.getD_eq_getElem _ _ (by omega)]
  simp only [h.tail, List.getElem_drop, List.getElem_take]
  congr 1
  omega

omit [Add ρ] [Mul ρ] in
/-- Consecutive Mel frames from frame `2 * a` on are a window. -/
lemma isWindow_range (mel : List (Fin nMel → ρ)) (a len : ℕ) (hlen : 2 * a + len ≤ mel.length) :
    IsWindow mel ((List.range len).map fun i => mel.getD (2 * a + i) 0) a := by
  have heq : ((List.range len).map fun i => mel.getD (2 * a + i) 0) = (mel.drop (2 * a)).take len := by
    refine List.ext_getElem ?_ fun j hj hj' => ?_
    · rw [List.length_map, List.length_range, List.length_take, List.length_drop]
      omega
    · rw [List.length_map, List.length_range] at hj
      rw [List.getElem_map, List.getElem_range, List.getElem_take, List.getElem_drop]
      exact List.getD_eq_getElem _ _ (by omega)
  rw [heq]
  exact List.take_prefix _ _

/-- The variable graph computes the rows of the batch. -/
lemma BatchReady.variableConvRows (h : BatchReady enc mel r) :
    variableConvRows stem enc r.qStart r.n =
      some (((stem.run mel).drop r.qStart).take r.n) := by
  have hpushed := h.pushed
  have hlength := h.length_tail
  have hbase := h.base
  have hstable := h.stable
  have hin : ¬ (convMelStart r.qStart < enc.tailBase ∨
      enc.tailBase + enc.melTail.length < convMelEnd r.qStart r.n) := by omega
  have hrange : convMelStart r.qStart + (convMelEnd r.qStart r.n - convMelStart r.qStart) =
      convMelEnd r.qStart r.n := by
    unfold convMelStart convMelEnd
    omega
  have hwindow : ((List.range (convMelEnd r.qStart r.n - convMelStart r.qStart)).map fun i =>
      enc.melTail.getD (convMelStart r.qStart + i - enc.tailBase) 0) =
      (List.range (convMelEnd r.qStart r.n - convMelStart r.qStart)).map fun i =>
        mel.getD (2 * (r.qStart - 2) + i) 0 := by
    refine List.map_congr_left fun i hi => ?_
    have hi' := List.mem_range.mp hi
    exact h.getD_tail (by omega) (by omega)
  have hslice : convSliceStart r.qStart = r.qStart - (r.qStart - 2) := by
    unfold convSliceStart convMelStart
    omega
  rw [Voxtral.variableConvRows, if_neg hin]
  dsimp only
  rw [hwindow, hslice]
  have hfit : 2 * (r.qStart - 2) + (convMelEnd r.qStart r.n - convMelStart r.qStart) ≤ mel.length := by
    unfold convMelStart at hrange ⊢
    omega
  rw [stem.run_window (isWindow_range mel _ _ hfit)]
  · congr 3
    omega
  · omega
  · rw [List.length_map, List.length_range]
    unfold convMelStart convMelEnd
    omega

/-- The reusable graph computes the rows of a batch of four behind the second row.  At row zero it would
not: the zeros it reads before the stream starts pass the bias and the activation of the first layer. -/
lemma BatchReady.steadyConvRows (h : BatchReady enc mel r) (hn : r.n = 4) (hq : 2 ≤ r.qStart) :
    steadyConvRows stem enc r.qStart = some (((stem.run mel).drop r.qStart).take r.n) := by
  have hpushed := h.pushed
  have hlength := h.length_tail
  have hbase := h.base
  have hstable := h.stable
  rw [hn] at hstable
  unfold convMelStart at hbase
  unfold convMelEnd at hstable
  have hmel : ∀ i ∈ List.range 12, steadyMel enc (2 * ((r.qStart : ℤ) - 2) + i) =
      some (mel.getD (2 * (r.qStart - 2) + i) 0) := by
    intro i hi
    have hi' := List.mem_range.mp hi
    have hrel : (2 * ((r.qStart : ℤ) - 2) + i - enc.tailBase).toNat =
        2 * (r.qStart - 2) + i - enc.tailBase := by omega
    rw [steadyMel, if_neg (by omega)]
    dsimp only
    rw [if_neg (by omega), hrel, h.getD_tail (by omega) (by omega)]
  rw [Voxtral.steadyConvRows, mapM_eq_some_map hmel, Option.map_some, hn]
  have hwindow := isWindow_range mel (r.qStart - 2) 12 (by omega)
  rw [stem.run_window hwindow (Or.inr le_rfl) (by rw [List.length_map, List.length_range]),
    Nat.sub_add_cancel hq]

end Batch

end Voxtral
