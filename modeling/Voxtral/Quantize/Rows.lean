import Mathlib.Algebra.BigOperators.Group.List.Basic
import Voxtral.Quantize.Model

/-!
# The rows of a quantized tensor

What `quantize_tensor_rows` writes for a tensor is the quantization of its rows, each taken alone, one after
the other.  The chunks and the ranges of the workers are runs of rows, and a run of rows converts and
quantizes to the concatenation of what its rows do (`Ggml.RowByRow`), so that neither shows in the result.
-/

namespace Voxtral.Quantize

variable {g : Ggml}

/-- The quantization of one converted row, as a chunk of its own. -/
def Ggml.quantizeRow (g : Ggml) (type : GgmlType) (nPerRow : ℕ) (row : List UInt8) : List UInt8 :=
  (g.quantizeChunk type row 0 1 nPerRow).1

/-- What is documented of the tensor library: the conversions store one value for each element, a chunk is
quantized row by row and fills rows of the type's size, and the data of a tensor are its rows. -/
structure Ggml.RowByRow (g : Ggml) : Prop where
  fp16_length : ∀ src n, (g.fp16ToFp32Row src n).length = n * 4
  toFloat_length : ∀ type f, g.toFloat type = some f → ∀ src n, (f src n).length = n * 4
  quantizeChunk_rows : ∀ type n, g.isQuantized type → n % g.blckSize type = 0 →
    ∀ rows : List (List UInt8), (∀ row ∈ rows, row.length = n * 4) →
      g.quantizeChunk type rows.flatten 0 rows.length n =
        (rows.flatMap (g.quantizeRow type n), rows.length * g.rowSize type n)
  quantizeRow_length : ∀ type n, g.isQuantized type → n % g.blckSize type = 0 →
    ∀ row : List UInt8, row.length = n * 4 → (g.quantizeRow type n row).length = g.rowSize type n
  nbytes_rows : ∀ type (ne : Dims), ne.ne0 % g.blckSize type = 0 → 0 < ne.ne0 →
    g.nbytes type ne = g.rowSize type ne.ne0 * (g.nelements ne / ne.ne0)

/-! ### Conversion -/

/-- `nrows` of the quantizer. -/
def Tensor.nrows (t : Tensor g) : ℕ := g.nelements t.ne / t.ne.ne0

/-- The bytes of row `r` in the input. -/
def Tensor.row (t : Tensor g) (r : ℕ) : List UInt8 :=
  let size := g.rowSize t.type t.ne.ne0
  (t.data.drop (r * size)).take size

/-- How one row is converted. -/
def rowConversion (t : Tensor g) : Except String (List UInt8 → List UInt8) :=
  if t.type = .f32 ∧ g.rowSize t.type t.ne.ne0 = t.ne.ne0 * 4 then .ok id
  else if t.type = .f16 then .ok fun row => g.fp16ToFp32Row row t.ne.ne0
  else if g.isQuantized t.type then
    match g.toFloat t.type with
    | none => .error ("cannot dequantize tensor type " ++ g.typeName t.type ++ " (missing to_float)")
    | some toFloat => .ok fun row => toFloat row t.ne.ne0
  else .error ("unsupported source tensor type " ++ g.typeName t.type)

/-- Rows counted from `row0` are the rows of the tensor. -/
lemma flatMap_row (t : Tensor g) (row0 n : ℕ) (f : List UInt8 → List UInt8) :
    ((List.range n).flatMap fun r =>
        f (((t.data.drop (row0 * g.rowSize t.type t.ne.ne0)).drop (r * g.rowSize t.type t.ne.ne0)).take
          (g.rowSize t.type t.ne.ne0))) =
      (List.range' row0 n).flatMap fun r => f (t.row r) := by
  rw [List.range'_eq_map_range, List.flatMap_map]
  congr 1
  funext r
  rw [List.drop_drop, ← Nat.add_mul]
  rfl

/-- `convert_rows_to_f32` converts the rows one by one; whether it succeeds does not depend on the rows. -/
lemma convertRowsToF32_eq (t : Tensor g) (row0 n : ℕ) :
    convertRowsToF32 t row0 n =
      (rowConversion t).map fun f => (List.range' row0 n).flatMap fun r => f (t.row r) := by
  unfold convertRowsToF32 rowConversion
  by_cases h32 : t.type = .f32 ∧ g.rowSize t.type t.ne.ne0 = t.ne.ne0 * 4
  · rw [if_pos h32, if_pos h32, ← flatMap_pieces]
    rfl
  · rw [if_neg h32, if_neg h32]
    by_cases h16 : t.type = .f16
    · rw [if_pos h16, if_pos h16, Except.map]
      exact congrArg _ (flatMap_row t row0 n fun row => g.fp16ToFp32Row row t.ne.ne0)
    · rw [if_neg h16, if_neg h16]
      by_cases hquant : g.isQuantized t.type = true
      · rw [if_pos hquant, if_pos hquant]
        cases g.toFloat t.type with
        | none => rfl
        | some toFloat => exact congrArg _ (flatMap_row t row0 n fun row => toFloat row t.ne.ne0)
      · rw [if_neg hquant, if_neg hquant]
        rfl

/-- A row of the tensor lies in its data. -/
lemma Tensor.row_length (hg : g.RowByRow) (t : Tensor g) (hne : 0 < t.ne.ne0) {r : ℕ} (hr : r < t.nrows) :
    (t.row r).length = g.rowSize t.type t.ne.ne0 := by
  have hdata : t.data.length = g.rowSize t.type t.ne.ne0 * t.nrows := by
    rw [t.data_length, hg.nbytes_rows t.type t.ne t.row_compatible hne]
    rfl
  have hroom : (r + 1) * g.rowSize t.type t.ne.ne0 ≤ t.data.length := by
    rw [hdata, Nat.mul_comm (g.rowSize t.type t.ne.ne0)]
    exact Nat.mul_le_mul_right _ hr
  rw [Nat.add_mul, Nat.one_mul] at hroom
  unfold Tensor.row
  rw [List.length_take, List.length_drop]
  omega

/-- A converted row has four bytes for each element. -/
lemma rowConversion_length (hg : g.RowByRow) (t : Tensor g) (hne : 0 < t.ne.ne0)
    {f : List UInt8 → List UInt8} (hf : rowConversion t = .ok f) {r : ℕ} (hr : r < t.nrows) :
    (f (t.row r)).length = t.ne.ne0 * 4 := by
  unfold rowConversion at hf
  by_cases h32 : t.type = .f32 ∧ g.rowSize t.type t.ne.ne0 = t.ne.ne0 * 4
  · rw [if_pos h32] at hf
    cases hf
    rw [id, t.row_length hg hne hr, h32.2]
  · rw [if_neg h32] at hf
    by_cases h16 : t.type = .f16
    · rw [if_pos h16] at hf
      cases hf
      apply hg.fp16_length
    · rw [if_neg h16] at hf
      by_cases hquant : g.isQuantized t.type = true
      · rw [if_pos hquant] at hf
        cases hto : g.toFloat t.type with
        | none =>
          rw [hto] at hf
          cases hf
        | some toFloat =>
          rw [hto] at hf
          cases hf
          apply hg.toFloat_length _ _ hto
      · rw [if_neg hquant] at hf
        cases hf

/-! ### A run of rows -/

/-- The quantizations of the rows `[a, b)`, each row alone. -/
def quantizedRun (t : Tensor g) (dstType : GgmlType) (f : List UInt8 → List UInt8) (a b : ℕ) : List UInt8 :=
  (List.range' a (b - a)).flatMap fun r => g.quantizeRow dstType t.ne.ne0 (f (t.row r))

/-! Lists of results -/

section Results

variable {α β ε : Type}

/-- A map that succeeds on every element succeeds on the list. -/
lemma mapM_ok {f : α → Except ε β} {h : α → β} {xs : List α} (hall : ∀ x ∈ xs, f x = .ok (h x)) :
    xs.mapM f = .ok (xs.map h) := by
  induction xs with
  | nil => rfl
  | cons x xs ih =>
    rw [List.mapM_cons, hall x List.mem_cons_self, ih fun y hy => hall y (List.mem_cons_of_mem _ hy)]
    rfl

/-- A map that fails on every element fails as on the first. -/
lemma mapM_error {f : α → Except ε β} {e : ε} {xs : List α} (hne : xs ≠ [])
    (hall : ∀ x ∈ xs, f x = .error e) : xs.mapM f = .error e := by
  cases xs with
  | nil => exact absurd rfl hne
  | cons x xs =>
    rw [List.mapM_cons, hall x List.mem_cons_self]
    rfl

end Results

/-- The workers stay within the rows of the chunk. -/
lemma workerRanges_le {threads n : ℕ} {r : ℕ × ℕ} (hr : r ∈ workerRanges threads n) : r.2 ≤ n := by
  unfold workerRanges at hr
  obtain ⟨hr, -⟩ := List.mem_filter.mp hr
  obtain ⟨ti, hti, rfl⟩ := List.mem_map.mp hr
  rw [List.mem_range] at hti
  exact Nat.div_le_of_le_mul (by rw [Nat.mul_comm]; exact Nat.mul_le_mul_right n hti)

/-- The last worker has rows. -/
lemma workerRanges_ne_nil {threads n : ℕ} (hthreads : 0 < threads) (hn : 0 < n) :
    workerRanges threads n ≠ [] := by
  apply List.ne_nil_of_mem (a := (n * (threads - 1) / threads, n * (threads - 1 + 1) / threads))
  apply List.mem_filter.mpr
  constructor
  · exact List.mem_map.mpr ⟨threads - 1, List.mem_range.mpr (by omega), rfl⟩
  · have hlast : n * (threads - 1) / threads < n := by
      rw [Nat.div_lt_iff_lt_mul hthreads]
      exact Nat.mul_lt_mul_of_pos_left (by omega) hn
    rw [Nat.sub_add_cancel hthreads, Nat.mul_div_cancel _ hthreads]
    simpa using hlast

section Run

variable {t : Tensor g} {dstType : GgmlType} {f : List UInt8 → List UInt8}

/-- An empty range of rows. -/
lemma quantizedRun_of_le {a b : ℕ} (hba : b ≤ a) : quantizedRun t dstType f a b = [] := by
  unfold quantizedRun
  rw [Nat.sub_eq_zero_of_le hba]
  rfl

/-- The rows of two adjoining ranges. -/
lemma quantizedRun_append {a b c : ℕ} (hab : a ≤ b) (hbc : b ≤ c) :
    quantizedRun t dstType f a b ++ quantizedRun t dstType f b c = quantizedRun t dstType f a c := by
  have hlen : c - a = (b - a) + (c - b) := by omega
  have hnext : b = a + (b - a) := by omega
  unfold quantizedRun
  rw [hlen, ← List.range'_append_1, List.flatMap_append, ← hnext]

variable (hg : g.RowByRow) (hquant : g.isQuantized dstType) (hblock : t.ne.ne0 % g.blckSize dstType = 0)
  (hne : 0 < t.ne.ne0) (hf : rowConversion t = .ok f)

include hg hquant hblock hne hf

/-- A range of rows takes the size of a row for each. -/
lemma quantizedRun_length {a b : ℕ} (hb : b ≤ t.nrows) :
    (quantizedRun t dstType f a b).length = (b - a) * g.rowSize dstType t.ne.ne0 := by
  have hrow : ∀ r ∈ List.range' a (b - a),
      (g.quantizeRow dstType t.ne.ne0 (f (t.row r))).length = g.rowSize dstType t.ne.ne0 := by
    intro r hr
    rw [List.mem_range'_1] at hr
    apply hg.quantizeRow_length _ _ hquant hblock
    exact rowConversion_length hg t hne hf (by omega)
  unfold quantizedRun
  rw [List.length_flatMap, List.map_congr_left hrow, List.map_const', List.sum_replicate,
    List.length_range']
  rfl

/-- Conversion and quantization of a run of rows. -/
lemma quantizeChunk_run {a b : ℕ} (hb : b ≤ t.nrows) :
    g.quantizeChunk dstType ((List.range' a (b - a)).flatMap fun r => f (t.row r)) 0 (b - a) t.ne.ne0 =
      (quantizedRun t dstType f a b, (b - a) * g.rowSize dstType t.ne.ne0) := by
  have hrows : ∀ row ∈ (List.range' a (b - a)).map (fun r => f (t.row r)), row.length = t.ne.ne0 * 4 := by
    intro row hrow
    obtain ⟨r, hr, rfl⟩ := List.mem_map.mp hrow
    rw [List.mem_range'_1] at hr
    exact rowConversion_length hg t hne hf (by omega)
  have hchunk := hg.quantizeChunk_rows dstType t.ne.ne0 hquant hblock _ hrows
  rw [List.length_map, List.length_range', List.flatMap_map] at hchunk
  rw [List.flatMap_def]
  exact hchunk

/-- A worker stores the quantizations of its rows. -/
lemma quantizeWorker_eq {row a b : ℕ} (hb : row + b ≤ t.nrows) :
    quantizeWorker t dstType row a b =
      .ok (runWrites (a * g.rowSize dstType t.ne.ne0) (quantizedRun t dstType f (row + a) (row + b))) := by
  have hlen : row + b - (row + a) = b - a := by omega
  have hchunk := quantizeChunk_run (a := row + a) (b := row + b) hg hquant hblock hne hf hb
  rw [hlen] at hchunk
  have hconverted : convertRowsToF32 t (row + a) (b - a) =
      .ok ((List.range' (row + a) (b - a)).flatMap fun r => f (t.row r)) := by
    rw [convertRowsToF32_eq, hf]
    rfl
  unfold quantizeWorker
  rw [hconverted]
  simp only [bind, Except.bind, hchunk]
  exact if_neg (not_not.mpr rfl)

/-- The stores of all workers of a chunk are those of one run over its rows. -/
lemma workerRanges_flatMap {row n threads : ℕ} (hthreads : 0 < threads) (hn : row + n ≤ t.nrows) :
    ((workerRanges threads n).flatMap fun r =>
        runWrites (r.1 * g.rowSize dstType t.ne.ne0)
          (quantizedRun t dstType f (row + r.1) (row + r.2))) =
      runWrites 0 (quantizedRun t dstType f row (row + n)) := by
  let part (a b : ℕ) : List (ℕ × UInt8) :=
    runWrites (a * g.rowSize dstType t.ne.ne0) (quantizedRun t dstType f (row + a) (row + b))
  have hnone : ∀ a b, b ≤ a → part a b = [] := by
    intro a b hba
    change runWrites _ (quantizedRun t dstType f (row + a) (row + b)) = []
    rw [quantizedRun_of_le (by omega), runWrites_nil]
  have hnext : ∀ a b c, a ≤ b → b ≤ c → c ≤ n → part a b ++ part b c = part a c := by
    intro a b c hab hbc hcn
    have hlen := quantizedRun_length (a := row + a) (b := row + b) hg hquant hblock hne hf (by omega)
    have hbase : b * g.rowSize dstType t.ne.ne0 =
        a * g.rowSize dstType t.ne.ne0 + (quantizedRun t dstType f (row + a) (row + b)).length := by
      rw [hlen, ← Nat.add_mul]
      congr 1
      omega
    change runWrites _ _ ++ runWrites _ _ = runWrites _ _
    rw [hbase, ← runWrites_append, quantizedRun_append (by omega) (by omega)]
  have hall := flatMap_cuts (fun a => hnone a a (le_refl a)) hnext (monotone_evenCut n threads)
    (t := threads) (by rw [Nat.mul_div_cancel _ hthreads])
  rw [Nat.mul_div_cancel _ hthreads, Nat.mul_zero, Nat.zero_div] at hall
  have hwhole : part 0 n = runWrites 0 (quantizedRun t dstType f row (row + n)) := by
    change runWrites _ _ = _
    rw [Nat.zero_mul, Nat.add_zero]
  rw [← hwhole, ← hall]
  unfold workerRanges
  -- the workers that are not started would store nothing
  rw [List.filter_map, List.flatMap_map]
  induction List.range threads with
  | nil => rfl
  | cons ti tis ih =>
    rw [List.filter_cons, List.flatMap_cons, ← ih]
    split_ifs with hstarted
    · rw [List.flatMap_cons]
    · rw [hnone _ _ (by simpa using hstarted)]
      rfl

/-- A chunk ends with the quantizations of its rows at the start of `q_chunk`, for every number of threads and
every interleaving. -/
lemma quantizeOneChunk_ok (plan : WorkPlan) {row n : ℕ} {qChunk : List UInt8} (hn : row + n ≤ t.nrows)
    (hroom : n * g.rowSize dstType t.ne.ne0 ≤ qChunk.length) :
    ∃ filled, quantizeOneChunk plan t dstType row n qChunk = .ok filled ∧
      filled.length = qChunk.length ∧
      filled.take (n * g.rowSize dstType t.ne.ne0) = quantizedRun t dstType f row (row + n) := by
  have hlen := quantizedRun_length (a := row) (b := row + n) hg hquant hblock hne hf hn
  rw [Nat.add_sub_cancel_left] at hlen
  rw [← hlen] at hroom ⊢
  unfold quantizeOneChunk
  by_cases hone : max 1 (min plan.nthread n) = 1
  · have hconverted : convertRowsToF32 t row n = .ok ((List.range' row n).flatMap fun r => f (t.row r)) := by
      rw [convertRowsToF32_eq, hf]
      rfl
    have hchunk := quantizeChunk_run (a := row) (b := row + n) hg hquant hblock hne hf hn
    rw [Nat.add_sub_cancel_left] at hchunk
    refine ⟨applyWrites qChunk (runWrites 0 (quantizedRun t dstType f row (row + n))), ?_,
      applyWrites_length _ _, take_applyWrites_of_perm (List.Perm.refl _) qChunk hroom⟩
    rw [hconverted]
    simp only [bind, Except.bind, hchunk, if_pos hone]
    exact if_neg (not_not.mpr rfl)
  · have hthreads : 0 < max 1 (min plan.nthread n) := by omega
    have hworkers : ∀ r ∈ workerRanges (max 1 (min plan.nthread n)) n,
        quantizeWorker t dstType row r.1 r.2 = .ok (runWrites (r.1 * g.rowSize dstType t.ne.ne0)
          (quantizedRun t dstType f (row + r.1) (row + r.2))) := by
      intro r hr
      have hend := workerRanges_le hr
      exact quantizeWorker_eq hg hquant hblock hne hf (by omega)
    have hperm := plan.interleaving.order_perm t.name row
      (runWrites 0 (quantizedRun t dstType f row (row + n)))
    refine ⟨_, ?_, applyWrites_length qChunk _, take_applyWrites_of_perm hperm qChunk hroom⟩
    rw [← workerRanges_flatMap hg hquant hblock hne hf hthreads hn, List.flatMap_def]
    simp only [if_neg hone, mapM_ok hworkers, bind, Except.bind]

/-- The loop over the chunks writes the quantizations of the rows that are left. -/
lemma quantizeChunks_ok (plan : WorkPlan) {chunkRows : ℕ} (hchunk : 0 < chunkRows) (fuel row : ℕ)
    (qChunk : List UInt8) (hroom : qChunk.length = chunkRows * g.rowSize dstType t.ne.ne0)
    (hfuel : t.nrows ≤ row + fuel) :
    quantizeChunks plan t dstType chunkRows t.nrows fuel row qChunk =
      .ok (quantizedRun t dstType f row t.nrows, (t.nrows - row) * g.rowSize dstType t.ne.ne0) := by
  induction fuel generalizing row qChunk with
  | zero =>
    unfold quantizeChunks
    rw [quantizedRun_of_le (by omega), Nat.sub_eq_zero_of_le (by omega), Nat.zero_mul]
  | succ fuel ih =>
    unfold quantizeChunks
    by_cases hleft : row < t.nrows
    · rw [if_pos hleft]
      generalize hn : min chunkRows (t.nrows - row) = n
      have hfit : n * g.rowSize dstType t.ne.ne0 ≤ qChunk.length := by
        rw [hroom]
        exact Nat.mul_le_mul_right _ (by omega)
      have hin : row + n ≤ t.nrows := by omega
      obtain ⟨filled, hfilled, hlen, htake⟩ := quantizeOneChunk_ok hg hquant hblock hne hf plan hin hfit
      have hrest := ih (row + chunkRows) filled (hlen.trans hroom) (by omega)
      simp only [hfilled, hrest, htake, bind, Except.bind, ← Nat.add_mul]
      have hnext : quantizedRun t dstType f row (row + n) ++
          quantizedRun t dstType f (row + chunkRows) t.nrows = quantizedRun t dstType f row t.nrows := by
        rcases Nat.le_total t.nrows (row + chunkRows) with hlast | hmore
        · have hend : row + n = t.nrows := by omega
          rw [hend, quantizedRun_of_le hlast, List.append_nil]
        · have hfull : n = chunkRows := by omega
          rw [hfull, quantizedRun_append (by omega) hmore]
      rw [hnext]
      congr 3
      omega
    · rw [if_neg hleft, quantizedRun_of_le (by omega), Nat.sub_eq_zero_of_le (by omega), Nat.zero_mul]

end Run

/-! ### The whole tensor -/

/-- A tensor that cannot be converted fails at its first row. -/
lemma quantizeChunks_error (plan : WorkPlan) {t : Tensor g} {dstType : GgmlType} {e : String}
    (hf : rowConversion t = .error e) {chunkRows nrows : ℕ} (hchunk : 0 < chunkRows) (hrows : 0 < nrows)
    (qChunk : List UInt8) :
    quantizeChunks plan t dstType chunkRows nrows nrows 0 qChunk = .error e := by
  have hconvert : ∀ row0 n, convertRowsToF32 t row0 n = .error e := by
    intro row0 n
    rw [convertRowsToF32_eq, hf]
    rfl
  have hn : 0 < min chunkRows (nrows - 0) := by omega
  have hone : quantizeOneChunk plan t dstType 0 (min chunkRows (nrows - 0)) qChunk = .error e := by
    generalize min chunkRows (nrows - 0) = n at hn ⊢
    unfold quantizeOneChunk
    by_cases hthreads : max 1 (min plan.nthread n) = 1
    · simp only [if_pos hthreads, hconvert, bind, Except.bind]
    · have hworkers : ∀ r ∈ workerRanges (max 1 (min plan.nthread n)) n,
          quantizeWorker t dstType 0 r.1 r.2 = .error e := by
        intro r _
        simp only [quantizeWorker, hconvert, bind, Except.bind]
      have hstarted : workerRanges (max 1 (min plan.nthread n)) n ≠ [] :=
        workerRanges_ne_nil (by omega) hn
      simp only [if_neg hthreads, mapM_error hstarted hworkers, bind, Except.bind]
  obtain ⟨fuel, rfl⟩ := Nat.exists_eq_add_one_of_ne_zero hrows.ne'
  unfold quantizeChunks
  simp only [if_pos hrows, hone, bind, Except.bind]

/-- The quantizations of all rows in their order, and their number of bytes; no rows need no conversion. -/
def quantizedRows (t : Tensor g) (dstType : GgmlType) : Except String (List UInt8 × ℕ) :=
  if t.ne.ne0 = 0 then .error "division by zero"
  else if t.nrows = 0 then .ok ([], 0)
  else (rowConversion t).map fun f =>
    ((List.range t.nrows).flatMap fun r => g.quantizeRow dstType t.ne.ne0 (f (t.row r)),
      t.nrows * g.rowSize dstType t.ne.ne0)

/-- `quantize_tensor_rows` does not depend on the threads, their interleaving or the chunks. -/
theorem quantizeTensorRows_eq (hg : g.RowByRow) (plan : WorkPlan) {t : Tensor g} {dstType : GgmlType}
    (hquant : g.isQuantized dstType) (hblock : t.ne.ne0 % g.blckSize dstType = 0) :
    quantizeTensorRows plan t dstType = quantizedRows t dstType := by
  unfold quantizeTensorRows quantizedRows
  by_cases hne : t.ne.ne0 = 0
  · rw [if_pos hne, if_pos hne]
  · rw [if_neg hne, if_neg hne]
    change quantizeChunks plan t dstType (min _ t.nrows) t.nrows t.nrows 0
      (List.replicate (min _ t.nrows * _) 0) = _
    generalize hper : max 1 (plan.chunkElems / max 1 t.ne.ne0) = perChunk
    by_cases hrows : t.nrows = 0
    · rw [if_pos hrows, hrows]
      rfl
    · rw [if_neg hrows]
      have hchunk : 0 < min perChunk t.nrows := by omega
      cases hf : rowConversion t with
      | error e => exact quantizeChunks_error plan hf hchunk (by omega) _
      | ok f =>
        rw [quantizeChunks_ok hg hquant hblock (by omega) hf plan hchunk _ _ _ List.length_replicate
          (by omega)]
        simp only [quantizedRun, Nat.sub_zero, List.range_eq_range', Except.map]

end Voxtral.Quantize
