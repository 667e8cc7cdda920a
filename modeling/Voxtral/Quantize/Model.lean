import Mathlib.Computability.RegularExpressions
import Mathlib.Data.List.Infix
import Voxtral.Lib.ByteWrites

/-!
# The quantizer

`src/src/voxtral-quantize.cpp`: a GGUF model is read, the weight matrices are quantized row by row (in chunks
of rows, the rows of a chunk shared among threads), and everything is written to a new GGUF file.

The tensor library and its container are not part of the repository.  `Ggml` and `Gguf` are the functions the
quantizer calls; `none` of a container's call is a failed assertion, which ends the process.  Rows of `float`
are kept as their bytes, four for each value.  Failures of the output stream, which throw, are not modelled,
and neither are the progress lines.
-/

namespace Voxtral.Quantize

/-- `ggml_type`: the types the quantizer names, and the others by their number. -/
inductive GgmlType where
  | f32 | f16 | q4_0 | q4_1 | q5_0 | q5_1 | q8_0 | q2_k | q3_k | q4_k | q5_k | q6_k
  | other (id : ℕ)
  deriving DecidableEq, Repr

/-- `ggml_ftype`: the file types the quantizer records. -/
inductive GgmlFtype where
  | mostlyQ4_0 | mostlyQ4_1 | mostlyQ5_0 | mostlyQ5_1 | mostlyQ8_0 | mostlyQ2_k | mostlyQ3_k | mostlyQ4_k
  | mostlyQ5_k | mostlyQ6_k
  deriving DecidableEq, Repr

/-- The numbers of elements of a tensor along its axes (`ne`). -/
structure Dims where
  ne0 : ℕ
  ne1 : ℕ
  ne2 : ℕ
  ne3 : ℕ
  deriving DecidableEq, Repr

/-- The functions of the tensor library that the quantizer calls. -/
structure Ggml where
  /-- `GGML_QNT_VERSION`. -/
  qntVersion : ℕ
  ftypeValue : GgmlFtype → ℕ
  typeName : GgmlType → String
  blckSize : GgmlType → ℕ
  rowSize : GgmlType → ℕ → ℕ
  isQuantized : GgmlType → Bool
  nDims : Dims → ℕ
  nelements : Dims → ℕ
  nbytes : GgmlType → Dims → ℕ
  /-- `ggml_fp16_to_fp32_row(src, ·, n)`: the values it stores. -/
  fp16ToFp32Row : List UInt8 → ℕ → List UInt8
  /-- `ggml_get_type_traits(type)->to_float`, which may be missing. -/
  toFloat : GgmlType → Option (List UInt8 → ℕ → List UInt8)
  /-- `ggml_quantize_chunk(type, src, ·, start, nrows, n_per_row, nullptr)`: the bytes it stores and the size
  it returns. -/
  quantizeChunk : GgmlType → List UInt8 → ℕ → ℕ → ℕ → List UInt8 × ℕ

/-- A tensor of the input file.  The loader refuses a row that is not a whole number of blocks and reads as
much data as the tensor has. -/
structure Tensor (g : Ggml) where
  name : String
  type : GgmlType
  ne : Dims
  data : List UInt8
  row_compatible : ne.ne0 % g.blckSize type = 0
  data_length : data.length = g.nbytes type ne

/-- What the container records about a tensor, apart from its offset. -/
structure TensorInfo where
  name : String
  type : GgmlType
  ne : Dims
  deriving DecidableEq, Repr

/-- The functions of the container that the quantizer calls; `infos` is its list of tensors. -/
structure Gguf (g : Ggml) where
  Ctx : Type
  infos : Ctx → List TensorInfo
  initEmpty : Ctx
  setKv : Ctx → Ctx → Ctx
  setValU32 : Ctx → String → ℕ → Ctx
  findKey : Ctx → String → Option ℕ
  /-- `gguf_get_kv_type(·, id) == GGUF_TYPE_STRING`. -/
  kvIsString : Ctx → ℕ → Bool
  valStr : Ctx → ℕ → Option String
  nTensors : Ctx → ℕ
  tensorName : Ctx → ℕ → Option String
  addTensor : Ctx → Tensor g → Option Ctx
  setTensorType : Ctx → String → GgmlType → Option Ctx
  findTensor : Ctx → String → Option ℕ
  tensorOffset : Ctx → ℕ → ℕ
  tensorSize : Ctx → ℕ → ℕ
  alignment : Ctx → ℕ
  metaSize : Ctx → ℕ
  metaData : Ctx → List UInt8

/-! ### Which tensors are quantized, and to what -/

/-- `quant_options`. -/
structure QuantOptions where
  name : String
  baseType : GgmlType
  fileType : GgmlFtype
  q4KM : Bool
  deriving DecidableEq, Repr

/-- `to_lower`, in the C locale. -/
def toLower (s : String) : String := String.ofList (s.toList.map Char.toLower)

/-- `parse_quant_type`. -/
def parseQuantType (raw : String) : Except String QuantOptions :=
  let q := toLower raw
  if q = "q4_0" then .ok ⟨"Q4_0", .q4_0, .mostlyQ4_0, false⟩
  else if q = "q4_1" then .ok ⟨"Q4_1", .q4_1, .mostlyQ4_1, false⟩
  else if q = "q5_0" then .ok ⟨"Q5_0", .q5_0, .mostlyQ5_0, false⟩
  else if q = "q5_1" then .ok ⟨"Q5_1", .q5_1, .mostlyQ5_1, false⟩
  else if q = "q8_0" ∨ q = "q8" then .ok ⟨"Q8_0", .q8_0, .mostlyQ8_0, false⟩
  else if q = "q2_k" then .ok ⟨"Q2_K", .q2_k, .mostlyQ2_k, false⟩
  else if q = "q3_k" then .ok ⟨"Q3_K", .q3_k, .mostlyQ3_k, false⟩
  else if q = "q4_k" then .ok ⟨"Q4_K", .q4_k, .mostlyQ4_k, false⟩
  else if q = "q5_k" then .ok ⟨"Q5_K", .q5_k, .mostlyQ5_k, false⟩
  else if q = "q6_k" ∨ q = "q6" then .ok ⟨"Q6_K", .q6_k, .mostlyQ6_k, false⟩
  else if q = "q4_k_m" then .ok ⟨"Q4_K_M", .q4_k, .mostlyQ4_k, true⟩
  else .error ("unsupported quantization type '" ++ raw ++ "'")

section Patterns

open RegularExpression

/-- The text itself. -/
def literal (s : String) : RegularExpression Char :=
  s.toList.foldr (fun c r => char c * r) 1

/-- One of several expressions. -/
def oneOf (rs : List (RegularExpression Char)) : RegularExpression Char := rs.foldr (· + ·) 0

/-- `[0-9]+`. -/
def digits : RegularExpression Char :=
  let digit := oneOf ("0123456789".toList.map char)
  digit * star digit

/-- `attn_(q|k|v|o)`. -/
def attnWeights : RegularExpression Char := literal "attn_" * oneOf (["q", "k", "v", "o"].map literal)

/-- `ffn_w[123]`. -/
def ffnWeights : RegularExpression Char := literal "ffn_w" * oneOf ("123".toList.map char)

/-- `voxtral_quantizable_patterns`. -/
def voxtralQuantizablePatterns : List (RegularExpression Char) :=
  [literal "tok_embeddings.weight",
    literal "adapter." * oneOf (["0", "2"].map literal) * literal ".weight",
    literal "enc.blk." * digits * literal "." * (attnWeights + ffnWeights) * literal ".weight",
    literal "dec.blk." * digits * literal "." *
      (attnWeights + ffnWeights + literal "ada" * oneOf (["0", "2"].map literal)) * literal ".weight",
    literal "output.weight",
    literal "output_mm.weight"]

end Patterns

variable {g : Ggml}

/-- `is_voxtral_quantizable`. -/
def isVoxtralQuantizable (t : Tensor g) : Bool :=
  g.nDims t.ne == 2 && voxtralQuantizablePatterns.any (fun p => p.rmatch t.name.toList)

/-- `q4_k_m_prefers_q6_k`. -/
def q4KMPrefersQ6K (name : String) : Bool :=
  if name = "tok_embeddings.weight" ∨ name = "output.weight" ∨ name = "output_mm.weight" then true
  else ".attn_v.weight".toList <:+: name.toList || ".ffn_w2.weight".toList <:+: name.toList

/-- `choose_tensor_type`. -/
def chooseTensorType (opts : QuantOptions) (name : String) : GgmlType :=
  if !opts.q4KM then opts.baseType
  else if q4KMPrefersQ6K name then .q6_k else .q4_k

/-- `is_row_compatible`. -/
def isRowCompatible (g : Ggml) (type : GgmlType) (nPerRow : ℕ) : Bool :=
  0 < g.blckSize type && nPerRow % g.blckSize type = 0

/-- The head of the loop over the tensors: whether a tensor is quantized (`quantize`), and the type it is
written with (`new_type`). -/
def outputType (opts : QuantOptions) (t : Tensor g) : Bool × GgmlType :=
  if !isVoxtralQuantizable t then (false, t.type)
  else
    let newType := chooseTensorType opts t.name
    if !g.isQuantized newType then (false, t.type)
    else if !isRowCompatible g newType t.ne.ne0 then (false, t.type)
    else if t.type = newType then (false, newType)
    else (true, newType)

/-- `tensor_nbytes_for_type`. -/
def tensorNbytesForType (t : Tensor g) (type : GgmlType) : ℕ :=
  if t.ne.ne0 = 0 then 0
  else g.rowSize type t.ne.ne0 * (g.nelements t.ne / t.ne.ne0)

/-! ### The rows of one tensor -/

/-- `convert_rows_to_f32`: the bytes it stores.  `GGML_TYPE_BF16` is an enumerator and not a macro, so the
branch for it is not compiled and such a tensor is an unsupported one. -/
def convertRowsToF32 (t : Tensor g) (row0 nrows : ℕ) : Except String (List UInt8) :=
  let nPerRow := t.ne.ne0
  let srcRowSize := g.rowSize t.type nPerRow
  let srcBase := t.data.drop (row0 * srcRowSize)
  let row (r : ℕ) := (srcBase.drop (r * srcRowSize)).take srcRowSize
  if t.type = .f32 ∧ srcRowSize = nPerRow * 4 then .ok (srcBase.take (nrows * srcRowSize))
  else if t.type = .f16 then
    .ok ((List.range nrows).flatMap fun r => g.fp16ToFp32Row (row r) nPerRow)
  else if g.isQuantized t.type then
    match g.toFloat t.type with
    | none => .error ("cannot dequantize tensor type " ++ g.typeName t.type ++ " (missing to_float)")
    | some toFloat => .ok ((List.range nrows).flatMap fun r => toFloat (row r) nPerRow)
  else .error ("unsupported source tensor type " ++ g.typeName t.type)

/-- An order in which the stores of the workers of a chunk happen, by the tensor's name and the first row of
the chunk. -/
structure Interleaving where
  order : String → ℕ → List (ℕ × UInt8) → List (ℕ × UInt8)
  order_perm : ∀ name row stores, (order name row stores).Perm stores

/-- How the rows are worked through: the number of threads, the elements of a chunk, and how the threads
interleave. -/
structure WorkPlan where
  nthread : ℕ
  chunkElems : ℕ
  interleaving : Interleaving

/-- `kChunkElems`: about 4 MiB of converted values. -/
def kChunkElems : ℕ := 2 ^ 20

/-- The body of a worker: its stores into `q_chunk`. -/
def quantizeWorker (t : Tensor g) (dstType : GgmlType) (row r0 r1 : ℕ) :
    Except String (List (ℕ × UInt8)) := do
  let nPerRow := t.ne.ne0
  let dstRowSize := g.rowSize dstType nPerRow
  let localF32 ← convertRowsToF32 t (row + r0) (r1 - r0)
  let (bytes, got) := g.quantizeChunk dstType localF32 0 (r1 - r0) nPerRow
  if got ≠ (r1 - r0) * dstRowSize then .error "threaded quantized chunk size mismatch"
  else .ok (runWrites (r0 * dstRowSize) bytes)

/-- The rows of the workers of a chunk; those without a row are not started. -/
def workerRanges (useThreads rowsThis : ℕ) : List (ℕ × ℕ) :=
  ((List.range useThreads).map fun ti =>
    (rowsThis * ti / useThreads, rowsThis * (ti + 1) / useThreads)).filter fun r => r.1 < r.2

/-- `q_chunk` after the chunk of `rowsThis` rows at `row`.  The first error of a worker is thrown again once
all have ended. -/
def quantizeOneChunk (plan : WorkPlan) (t : Tensor g) (dstType : GgmlType) (row rowsThis : ℕ)
    (qChunk : List UInt8) : Except String (List UInt8) := do
  let nPerRow := t.ne.ne0
  let useThreads := max 1 (min plan.nthread rowsThis)
  if useThreads = 1 then
    let f32Chunk ← convertRowsToF32 t row rowsThis
    let (bytes, got) := g.quantizeChunk dstType f32Chunk 0 rowsThis nPerRow
    if got ≠ rowsThis * g.rowSize dstType nPerRow then .error "quantized chunk size mismatch"
    else .ok (applyWrites qChunk (runWrites 0 bytes))
  else
    let stores ← (workerRanges useThreads rowsThis).mapM fun r => quantizeWorker t dstType row r.1 r.2
    .ok (applyWrites qChunk (plan.interleaving.order t.name row stores.flatten))

/-- The loop over the chunks: the bytes written and their number.  A turn takes at least one row, so that the
number of rows is fuel enough. -/
def quantizeChunks (plan : WorkPlan) (t : Tensor g) (dstType : GgmlType) (chunkRows nrows : ℕ) :
    ℕ → ℕ → List UInt8 → Except String (List UInt8 × ℕ)
  | 0, _, _ => .ok ([], 0)
  | fuel + 1, row, qChunk =>
    if row < nrows then do
      let rowsThis := min chunkRows (nrows - row)
      let chunkBytes := rowsThis * g.rowSize dstType t.ne.ne0
      let filled ← quantizeOneChunk plan t dstType row rowsThis qChunk
      let (rest, total) ← quantizeChunks plan t dstType chunkRows nrows fuel (row + chunkRows) filled
      .ok (filled.take chunkBytes ++ rest, chunkBytes + total)
    else .ok ([], 0)

/-- `quantize_tensor_rows`: the bytes written and `total_out`.  A row without elements divides by zero. -/
def quantizeTensorRows (plan : WorkPlan) (t : Tensor g) (dstType : GgmlType) :
    Except String (List UInt8 × ℕ) :=
  let nPerRow := t.ne.ne0
  if nPerRow = 0 then .error "division by zero"
  else
    let nrows := g.nelements t.ne / nPerRow
    let chunkRows := min (max 1 (plan.chunkElems / max 1 nPerRow)) nrows
    let qChunk := List.replicate (chunkRows * g.rowSize dstType nPerRow) 0
    quantizeChunks plan t dstType chunkRows nrows nrows 0 qChunk

/-! ### The file -/

/-- `write_zeros`: at most 4096 bytes a time. -/
def writeZeros (n : ℕ) : List UInt8 :=
  if n = 0 then []
  else List.replicate (min n 4096) 0 ++ writeZeros (n - min n 4096)
termination_by n
decreasing_by omega

variable (G : Gguf g)

/-- `get_kv_str`. -/
def getKvStr (ctx : G.Ctx) (key : String) : String :=
  match G.findKey ctx key with
  | none => ""
  | some id => if !G.kvIsString ctx id then "" else (G.valStr ctx id).getD ""

/-- The input file: its container and `ggml_get_tensor` of its tensors. -/
structure Source where
  gguf : G.Ctx
  getTensor : String → Option (Tensor g)

/-- The first loop: the tensors of the input in their order, each added to the output's container. -/
def collectTensors (src : Source G) : List ℕ → G.Ctx → Except String (List (Tensor g) × G.Ctx)
  | [], out => .ok ([], out)
  | i :: is, out =>
    match G.tensorName src.gguf i with
    | none => .error "encountered unnamed tensor in GGUF"
    | some name =>
      match src.getTensor name with
      | none => .error ("failed to resolve tensor data for '" ++ name ++ "'")
      | some t =>
        match G.addTensor out t with
        | none => .error "assertion failed"
        | some out' => do
          let (ts, final) ← collectTensors src is out'
          .ok (t :: ts, final)

/-- What is written for one tensor, and `written`.  The check of the number runs after the write. -/
def tensorPayload (plan : WorkPlan) (opts : QuantOptions) (t : Tensor g) : Except String (List UInt8 × ℕ) :=
  let (quantize, newType) := outputType opts t
  if !quantize then
    let written := g.nbytes t.type t.ne
    if written ≠ tensorNbytesForType t newType then
      .error ("tensor size mismatch while copying '" ++ t.name ++ "'")
    else .ok (t.data.take written, written)
  else do
    let (bytes, written) ← quantizeTensorRows plan t newType
    if written ≠ tensorNbytesForType t newType then
      .error ("tensor size mismatch after quantization for '" ++ t.name ++ "'")
    else .ok (bytes, written)

/-- The second loop, over the tensors: the container with the types set, and what is written. -/
def writeTensors (plan : WorkPlan) (opts : QuantOptions) (alignment : ℕ) :
    List (Tensor g) → G.Ctx → Except String (G.Ctx × List UInt8)
  | [], out => .ok (out, [])
  | t :: ts, out =>
    match G.setTensorType out t.name (outputType opts t).2 with
    | none => .error "assertion failed"
    | some out' =>
      match G.findTensor out' t.name with
      | none => .error ("output GGUF lost tensor '" ++ t.name ++ "'")
      | some _ => do
        let (bytes, written) ← tensorPayload plan opts t
        let pad := (alignment - written % alignment) % alignment
        let (final, rest) ← writeTensors plan opts alignment ts out'
        .ok (final, bytes ++ writeZeros pad ++ rest)

/-- The output's container before the tensors are added. -/
def outputHeader (src : Source G) (opts : QuantOptions) : G.Ctx :=
  let out := G.setKv G.initEmpty src.gguf
  let out := G.setValU32 out "general.quantization_version" g.qntVersion
  G.setValU32 out "general.file_type" (g.ftypeValue opts.fileType)

/-- The tensors of the input file, and the output's container with all of them. -/
def inputTensors (src : Source G) (opts : QuantOptions) : Except String (List (Tensor g) × G.Ctx) :=
  collectTensors G src (List.range (G.nTensors src.gguf)) (outputHeader G src opts)

/-- The body of `quantize_voxtral_gguf` under a plan: the output's container and the bytes of the file.  The
metadata takes the place of the zeros written first. -/
def quantizeGgufBy (plan : WorkPlan) (src : Source G) (opts : QuantOptions) :
    Except String (G.Ctx × List UInt8) := do
  let arch := getKvStr G src.gguf "general.architecture"
  if arch ≠ "voxtral_realtime" ∧ arch ≠ "voxtral" then
    .error ("unsupported architecture '" ++ arch ++ "', expected 'voxtral_realtime' or 'voxtral'")
  else
    let (tensors, out) ← inputTensors G src opts
    let metaSizePlaceholder := G.metaSize out
    let alignment := G.alignment out
    let (final, body) ← writeTensors G plan opts alignment tensors out
    if G.metaSize final ≠ metaSizePlaceholder then .error "GGUF metadata size changed while quantizing"
    else
      let file := writeZeros metaSizePlaceholder ++ body
      .ok (final, G.metaData final ++ file.drop (G.metaData final).length)

/-- `quantize_voxtral_gguf`, the threads interleaved in one of their ways. -/
def quantizeVoxtralGguf (threads : Interleaving) (src : Source G) (opts : QuantOptions) (nthread : ℕ) :
    Except String (G.Ctx × List UInt8) :=
  quantizeGgufBy G ⟨nthread, kChunkElems, threads⟩ src opts

end Voxtral.Quantize
