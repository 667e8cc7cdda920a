import Voxtral.Lib.Riff
import Voxtral.Quantize.Rows

/-!
# The layout of a quantized file

The container computes the offset of a tensor from the recorded types of the tensors in front of it; the
quantizer writes the tensors one behind the other, each with its own padding, and looks at no offset.  The
two agree: the bytes of a tensor stand where the container says, they have the recorded size, and they are
those of its rows.
-/

namespace Voxtral.Quantize

variable {g : Ggml}

/-- The next multiple of the alignment (`GGML_PAD`). -/
def padTo (alignment n : ℕ) : ℕ := (n + alignment - 1) / alignment * alignment

/-- What the header of a file says of a tensor. -/
def Tensor.info (t : Tensor g) : TensorInfo := ⟨t.name, t.type, t.ne⟩

/-- What is documented of the container: it lists the tensors in the order they were added, under pairwise
different names, a change of a tensor's type changes nothing else, and the offset of a tensor is the sum of
the padded sizes in front of it. -/
structure Gguf.PadsOffsets (G : Gguf g) : Prop where
  infos_initEmpty : G.infos G.initEmpty = []
  infos_setKv : ∀ c src, G.infos (G.setKv c src) = G.infos c
  infos_setValU32 : ∀ c key v, G.infos (G.setValU32 c key v) = G.infos c
  infos_addTensor : ∀ c t c', G.addTensor c t = some c' →
    t.name ∉ (G.infos c).map TensorInfo.name ∧ G.infos c' = G.infos c ++ [t.info]
  infos_setTensorType : ∀ c name type c', G.setTensorType c name type = some c' →
    G.infos c' = (G.infos c).map fun info => if info.name = name then { info with type := type } else info
  alignment_setTensorType : ∀ c name type c', G.setTensorType c name type = some c' →
    G.alignment c' = G.alignment c
  alignment_pos : ∀ c, 0 < G.alignment c
  tensorOffset_eq : ∀ c i, G.tensorOffset c i =
    (((G.infos c).take i).map fun info => padTo (G.alignment c) (g.nbytes info.type info.ne)).sum
  tensorSize_eq : ∀ c i info, (G.infos c)[i]? = some info → G.tensorSize c i = g.nbytes info.type info.ne
  metaData_length : ∀ c, (G.metaData c).length = G.metaSize c

/-! ### One tensor -/

/-- Row `r` of a tensor, converted and quantized alone. -/
def quantizedRow (t : Tensor g) (dstType : GgmlType) (r : ℕ) : List UInt8 :=
  match convertRowsToF32 t r 1 with
  | .ok row => g.quantizeRow dstType t.ne.ne0 row
  | .error _ => []

/-- What the output file holds of a tensor: the quantizations of its rows in their order, or its bytes. -/
def outputBytes (opts : QuantOptions) (t : Tensor g) : List UInt8 :=
  match outputType opts t with
  | (true, newType) => (List.range t.nrows).flatMap (quantizedRow t newType)
  | (false, _) => t.data

/-- What the container of the output records of a tensor. -/
def outputInfo (opts : QuantOptions) (t : Tensor g) : TensorInfo := ⟨t.name, (outputType opts t).2, t.ne⟩

/-- A tensor is quantized to a quantized type that takes its rows in whole blocks, and otherwise keeps its
type. -/
lemma outputType_cases (opts : QuantOptions) (t : Tensor g) :
    (∃ newType, outputType opts t = (true, newType) ∧ g.isQuantized newType ∧
      t.ne.ne0 % g.blckSize newType = 0) ∨ outputType opts t = (false, t.type) := by
  unfold outputType
  dsimp only
  split_ifs with h1 h2 h3 h4
  · exact Or.inr rfl
  · exact Or.inr rfl
  · exact Or.inr rfl
  · rw [h4]
    exact Or.inr rfl
  · refine Or.inl ⟨_, rfl, by simpa using h2, ?_⟩
    simp only [isRowCompatible, Bool.not_eq_true', Bool.not_eq_false, Bool.and_eq_true,
      decide_eq_true_eq] at h3
    exact h3.2

/-- A row is converted to floats and quantized. -/
lemma quantizedRow_eq {t : Tensor g} {f : List UInt8 → List UInt8} (hf : rowConversion t = .ok f)
    (dstType : GgmlType) (r : ℕ) :
    quantizedRow t dstType r = g.quantizeRow dstType t.ne.ne0 (f (t.row r)) := by
  unfold quantizedRow
  rw [convertRowsToF32_eq, hf]
  simp [Except.map]

/-- What is written for a tensor: its bytes and their number, which is the size of the recorded type. -/
lemma tensorPayload_ok (hg : g.RowByRow) {plan : WorkPlan} {opts : QuantOptions} {t : Tensor g}
    {bytes : List UInt8} {written : ℕ} (h : tensorPayload plan opts t = .ok (bytes, written)) :
    bytes = outputBytes opts t ∧ written = bytes.length ∧
      bytes.length = g.nbytes (outputType opts t).2 t.ne := by
  unfold tensorPayload at h
  unfold outputBytes
  rcases outputType_cases opts t with ⟨newType, htype, hquant, hblock⟩ | htype
  · rw [htype] at h ⊢
    simp only [Bool.not_true, Bool.false_eq_true, if_false, quantizeTensorRows_eq hg plan hquant hblock,
      quantizedRows] at h ⊢
    by_cases hne : t.ne.ne0 = 0
    · rw [if_pos hne] at h
      cases h
    have hpos : 0 < t.ne.ne0 := Nat.pos_of_ne_zero hne
    have hsize := hg.nbytes_rows newType t.ne hblock hpos
    change g.nbytes newType t.ne = _ * t.nrows at hsize
    rw [if_neg hne] at h
    by_cases hrows : t.nrows = 0
    · rw [if_pos hrows] at h
      simp only [bind, Except.bind] at h
      split_ifs at h
      cases h
      rw [hsize, hrows]
      exact ⟨rfl, rfl, rfl⟩
    · rw [if_neg hrows] at h
      cases hf : rowConversion t with
      | error e =>
        rw [hf] at h
        cases h
      | ok f =>
        have hlen := quantizedRun_length (a := 0) (b := t.nrows) hg hquant hblock hpos hf (le_refl _)
        unfold quantizedRun at hlen
        rw [Nat.sub_zero, ← List.range_eq_range'] at hlen
        rw [hf] at h
        simp only [Except.map, bind, Except.bind] at h
        split_ifs at h
        cases h
        refine ⟨?_, hlen.symm, ?_⟩
        · congr 1
          funext r
          exact (quantizedRow_eq hf newType r).symm
        · rw [hlen, hsize, Nat.mul_comm]
  · rw [htype] at h ⊢
    simp only [Bool.not_false, if_true] at h ⊢
    split_ifs at h
    cases h
    rw [← t.data_length, List.take_length]
    exact ⟨rfl, rfl, rfl⟩

/-- Every plan writes the same for a tensor. -/
lemma tensorPayload_plan (hg : g.RowByRow) (plan plan' : WorkPlan) (opts : QuantOptions) (t : Tensor g) :
    tensorPayload plan opts t = tensorPayload plan' opts t := by
  unfold tensorPayload
  rcases outputType_cases opts t with ⟨newType, htype, hquant, hblock⟩ | htype
  · rw [htype]
    simp only [quantizeTensorRows_eq hg _ hquant hblock]
  · rw [htype]
    rfl

/-! ### The file -/

/-- `write_zeros` writes zero bytes. -/
lemma writeZeros_eq (n : ℕ) : writeZeros n = List.replicate n 0 := by
  induction n using Nat.strong_induction_on with
  | _ n ih =>
    unfold writeZeros
    split_ifs with hzero
    · rw [hzero]
      rfl
    · rw [ih _ (by omega), ← List.replicate_add]
      congr 1
      omega

/-- A tensor and its padding fill the padded size. -/
lemma add_pad {alignment : ℕ} (hpos : 0 < alignment) (n : ℕ) :
    n + (alignment - n % alignment) % alignment = padTo alignment n := by
  have hsplit := Nat.div_add_mod n alignment
  have hlt := Nat.mod_lt n hpos
  unfold padTo
  by_cases hwhole : n % alignment = 0
  · have hdiv : (n + alignment - 1) / alignment = n / alignment := by
      apply Nat.div_eq_of_lt_le
      · rw [Nat.mul_comm]
        omega
      · rw [Nat.add_mul, Nat.one_mul, Nat.mul_comm]
        omega
    rw [hdiv, hwhole, Nat.sub_zero, Nat.mod_self, Nat.mul_comm]
    omega
  · have hdiv : (n + alignment - 1) / alignment = n / alignment + 1 := by
      apply Nat.div_eq_of_lt_le
      · rw [Nat.add_mul, Nat.one_mul, Nat.mul_comm]
        omega
      · rw [Nat.add_mul, Nat.add_mul, Nat.one_mul, Nat.mul_comm]
        omega
    rw [hdiv, Nat.add_mul, Nat.one_mul, Nat.mul_comm, Nat.mod_eq_of_lt (by omega)]
    omega

/-- The bytes of a tensor with its padding. -/
def paddedBytes (alignment : ℕ) (opts : QuantOptions) (t : Tensor g) : List UInt8 :=
  let bytes := outputBytes opts t
  bytes ++ List.replicate (padTo alignment bytes.length - bytes.length) 0

/-- The bytes of a tensor are padded to the alignment. -/
lemma paddedBytes_length {alignment : ℕ} (hpos : 0 < alignment) (opts : QuantOptions) (t : Tensor g) :
    (paddedBytes alignment opts t).length = padTo alignment (outputBytes opts t).length := by
  have hpad := add_pad hpos (outputBytes opts t).length
  unfold paddedBytes
  rw [List.length_append, List.length_replicate]
  omega

/-- Blocks of a concatenation: the block of `xs[i]` follows those in front of it. -/
lemma take_drop_flatMap {α β : Type} {f b : α → List β} (xs : List α) {i : ℕ} (hi : i < xs.length)
    (hstart : b xs[i] <+: f xs[i]) :
    ((xs.flatMap f).drop ((xs.take i).map fun x => (f x).length).sum).take (b xs[i]).length = b xs[i] := by
  have hsplit : xs.flatMap f = (xs.take i).flatMap f ++ (f xs[i] ++ (xs.drop (i + 1)).flatMap f) := by
    rw [← List.flatMap_cons, List.cons_getElem_drop_succ, ← List.flatMap_append, List.take_append_drop]
  rw [hsplit, ← List.length_flatMap, List.drop_left]
  exact List.prefix_iff_eq_take.mp (hstart.trans (List.prefix_append _ _)) |>.symm

variable {G : Gguf g}

/-- The tensors added to a container, under pairwise different names. -/
lemma collectTensors_infos (hG : G.PadsOffsets) {src : Source G} {is : List ℕ} {out final : G.Ctx}
    {ts : List (Tensor g)} (h : collectTensors G src is out = .ok (ts, final))
    (hnames : ((G.infos out).map TensorInfo.name).Nodup) :
    G.infos final = G.infos out ++ ts.map Tensor.info ∧
      ((G.infos final).map TensorInfo.name).Nodup := by
  induction is generalizing out ts with
  | nil =>
    cases h
    exact ⟨(List.append_nil _).symm, hnames⟩
  | cons i is ih =>
    unfold collectTensors at h
    cases hname : G.tensorName src.gguf i with
    | none =>
      rw [hname] at h
      cases h
    | some name =>
      simp only [hname] at h
      cases ht : src.getTensor name with
      | none =>
        rw [ht] at h
        cases h
      | some t =>
        simp only [ht] at h
        cases hadd : G.addTensor out t with
        | none =>
          rw [hadd] at h
          cases h
        | some out' =>
          simp only [hadd] at h
          cases hrest : collectTensors G src is out' with
          | error e =>
            rw [hrest] at h
            cases h
          | ok r =>
            rw [hrest] at h
            cases h
            obtain ⟨hnew, hinfos⟩ := hG.infos_addTensor _ _ _ hadd
            have hnames' : ((G.infos out').map TensorInfo.name).Nodup := by
              rw [hinfos, List.map_append, List.nodup_append]
              refine ⟨hnames, List.nodup_singleton _, ?_⟩
              rintro a ha b hb rfl
              rw [List.mem_singleton.mp hb] at ha
              exact hnew ha
            obtain ⟨hfinal, hdone⟩ := ih hrest hnames'
            refine ⟨?_, hdone⟩
            rw [hfinal, hinfos, List.append_assoc, List.map_cons, List.singleton_append]

/-- Under pairwise different names, a change of one tensor's type leaves the others. -/
lemma map_retype {front back : List TensorInfo} {t : Tensor g} {opts : QuantOptions}
    (hnames : ((front ++ t.info :: back).map TensorInfo.name).Nodup) :
    ((front ++ t.info :: back).map fun info =>
        if info.name = t.name then { info with type := (outputType opts t).2 } else info) =
      front ++ outputInfo opts t :: back := by
  rw [List.map_append, List.map_cons, List.nodup_append, List.nodup_cons] at hnames
  obtain ⟨-, ⟨hback, -⟩, hfront⟩ := hnames
  have hkeep : ∀ infos : List TensorInfo, t.name ∉ infos.map TensorInfo.name →
      (infos.map fun info =>
        if info.name = t.name then { info with type := (outputType opts t).2 } else info) = infos := by
    intro infos habsent
    conv_rhs => rw [← List.map_id infos]
    apply List.map_congr_left
    intro info hinfo
    apply if_neg
    rintro hname
    exact habsent (hname ▸ List.mem_map_of_mem hinfo)
  have hfront' : t.name ∉ front.map TensorInfo.name :=
    fun hmem => hfront _ hmem _ List.mem_cons_self rfl
  rw [List.map_append, List.map_cons, hkeep front hfront', hkeep back hback,
    if_pos (show t.info.name = t.name from rfl)]
  rfl

/-- The second loop: the types are recorded, and the tensors are written in their order, padded. -/
lemma writeTensors_ok (hg : g.RowByRow) (hG : G.PadsOffsets) {plan : WorkPlan} {opts : QuantOptions}
    {alignment : ℕ} (hpos : 0 < alignment) {ts : List (Tensor g)} {front : List TensorInfo}
    {out final : G.Ctx} {body : List UInt8} (h : writeTensors G plan opts alignment ts out = .ok (final, body))
    (hinfos : G.infos out = front ++ ts.map Tensor.info) (hnames : ((G.infos out).map TensorInfo.name).Nodup) :
    G.infos final = front ++ ts.map (outputInfo opts) ∧ G.alignment final = G.alignment out ∧
      body = ts.flatMap (paddedBytes alignment opts) ∧
      ∀ t ∈ ts, (outputBytes opts t).length = g.nbytes (outputType opts t).2 t.ne := by
  induction ts generalizing front out body with
  | nil =>
    cases h
    exact ⟨hinfos, rfl, rfl, by simp⟩
  | cons t ts ih =>
    unfold writeTensors at h
    cases hset : G.setTensorType out t.name (outputType opts t).2 with
    | none =>
      rw [hset] at h
      cases h
    | some out' =>
      simp only [hset] at h
      cases hfind : G.findTensor out' t.name with
      | none =>
        rw [hfind] at h
        cases h
      | some id =>
        simp only [hfind] at h
        cases hpayload : tensorPayload plan opts t with
        | error e =>
          rw [hpayload] at h
          cases h
        | ok payload =>
          rw [hpayload] at h
          obtain ⟨hbytes, hwritten, hsize⟩ := tensorPayload_ok hg hpayload
          cases hrest : writeTensors G plan opts alignment ts out' with
          | error e =>
            simp only [hrest, bind, Except.bind] at h
            cases h
          | ok r =>
            simp only [hrest, bind, Except.bind] at h
            cases h
            rw [hinfos, List.map_cons] at hnames
            have hout : G.infos out' = (front ++ [outputInfo opts t]) ++ ts.map Tensor.info := by
              rw [hG.infos_setTensorType _ _ _ _ hset, hinfos, List.map_cons, map_retype hnames,
                List.append_assoc, List.singleton_append]
            have hnames' : ((G.infos out').map TensorInfo.name).Nodup := by
              rw [hout]
              simpa [outputInfo, Tensor.info] using hnames
            obtain ⟨hfinal, halign, hbody, hall⟩ := ih hrest hout hnames'
            refine ⟨?_, ?_, ?_, ?_⟩
            · rw [hfinal, List.append_assoc, List.singleton_append, List.map_cons]
            · rw [halign, hG.alignment_setTensorType _ _ _ _ hset]
            · have hpad := add_pad hpos payload.1.length
              rw [hbody, List.flatMap_cons, hwritten, writeZeros_eq]
              unfold paddedBytes
              dsimp only
              rw [← hbytes, ← hpad, Nat.add_sub_cancel_left, List.append_assoc]
            · intro u hu
              rcases List.mem_cons.mp hu with rfl | hu
              · rw [← hbytes]
                exact hsize
              · exact hall u hu

/-- Every plan writes the same tensors. -/
lemma writeTensors_plan (hg : g.RowByRow) (plan plan' : WorkPlan) (opts : QuantOptions) (alignment : ℕ)
    (ts : List (Tensor g)) (out : G.Ctx) :
    writeTensors G plan opts alignment ts out = writeTensors G plan' opts alignment ts out := by
  induction ts generalizing out with
  | nil => rfl
  | cons t ts ih =>
    unfold writeTensors
    rw [tensorPayload_plan hg plan plan' opts t]
    simp only [ih]

/-- The whole file under any two plans. -/
lemma quantizeGgufBy_plan (hg : g.RowByRow) (plan plan' : WorkPlan) (src : Source G) (opts : QuantOptions) :
    quantizeGgufBy G plan src opts = quantizeGgufBy G plan' src opts := by
  unfold quantizeGgufBy
  simp only [writeTensors_plan hg plan plan']

/-- A quantized file is the metadata and then the tensors: those of the input, under the recorded types, each
at its recorded offset behind the metadata with its recorded size, holding the quantizations of its rows in
their order or, left as it is, its bytes.  Another number of threads, another interleaving of them and another
size of the chunks give the same file. -/
theorem quantize_voxtral_gguf_layout (hg : g.RowByRow) (hG : G.PadsOffsets) {threads : Interleaving}
    {src : Source G} {opts : QuantOptions} {nthread : ℕ} {final : G.Ctx} {file : List UInt8}
    (h : quantizeVoxtralGguf G threads src opts nthread = .ok (final, file)) :
    (∃ tensors out, inputTensors G src opts = .ok (tensors, out) ∧
      G.infos final = tensors.map (outputInfo opts) ∧
      file.take (G.metaSize final) = G.metaData final ∧
      ∀ (i : ℕ) (hi : i < tensors.length),
        (file.drop (G.metaSize final + G.tensorOffset final i)).take (G.tensorSize final i) =
            outputBytes opts tensors[i] ∧
          (outputBytes opts tensors[i]).length = G.tensorSize final i) ∧
    ∀ plan : WorkPlan, quantizeGgufBy G plan src opts = .ok (final, file) := by
  refine ⟨?_, fun plan => (quantizeGgufBy_plan hg plan _ src opts).trans h⟩
  unfold quantizeVoxtralGguf quantizeGgufBy at h
  dsimp only at h
  split_ifs at h with harch
  cases hin : inputTensors G src opts with
  | error e =>
    rw [hin] at h
    cases h
  | ok r =>
    obtain ⟨tensors, out⟩ := r
    rw [hin] at h
    cases hwrite : writeTensors G ⟨nthread, kChunkElems, threads⟩ opts (G.alignment out) tensors out with
    | error e =>
      simp only [hwrite, bind, Except.bind] at h
      cases h
    | ok w =>
      simp only [hwrite, bind, Except.bind] at h
      split_ifs at h with hmeta
      cases h
      have hheader : G.infos (outputHeader G src opts) = [] := by
        unfold outputHeader
        rw [hG.infos_setValU32, hG.infos_setValU32, hG.infos_setKv, hG.infos_initEmpty]
      obtain ⟨hadded, hnames⟩ := collectTensors_infos hG hin (by rw [hheader]; exact List.nodup_nil)
      rw [hheader, List.nil_append] at hadded
      obtain ⟨hinfos, halign, hbody, hsizes⟩ :=
        writeTensors_ok hg hG (hG.alignment_pos out) hwrite (hadded.trans (List.nil_append _).symm)
          hnames
      rw [List.nil_append] at hinfos
      have hlen : (G.metaData w.1).length = G.metaSize out :=
        (hG.metaData_length w.1).trans (not_not.mp hmeta)
      have hfile : (writeZeros (G.metaSize out) ++ w.2).drop (G.metaData w.1).length = w.2 := by
        rw [writeZeros_eq, hlen]
        exact List.drop_left' List.length_replicate
      rw [hfile]
      refine ⟨tensors, out, rfl, hinfos, ?_, ?_⟩
      · rw [← hG.metaData_length]
        exact List.take_left
      intro i hi
      have hsize : (outputBytes opts tensors[i]).length = G.tensorSize w.1 i := by
        rw [hsizes _ (List.getElem_mem hi)]
        exact (hG.tensorSize_eq w.1 i (outputInfo opts tensors[i]) (by rw [hinfos]; simp [hi])).symm
      refine ⟨?_, hsize⟩
      have hoffset : G.tensorOffset w.1 i =
          ((tensors.take i).map fun t => (paddedBytes (G.alignment out) opts t).length).sum := by
        rw [hG.tensorOffset_eq, hinfos, halign, ← List.map_take, List.map_map]
        congr 1
        apply List.map_congr_left
        intro t ht
        rw [paddedBytes_length (hG.alignment_pos out), hsizes t (List.mem_of_mem_take ht)]
        rfl
      rw [← hG.metaData_length, List.drop_length_add_append, ← hsize, hoffset, hbody]
      exact take_drop_flatMap tensors hi (List.prefix_append _ _)

/-! ### A file of two tensors

The library on inputs whose rows are zeros, where a row of every type is zeros, and the container with its
own encoding. -/

section Sample

/-- Elements of a block, bytes of a block and number of a type. -/
def GgmlType.traits : GgmlType → ℕ × ℕ × ℕ
  | f32 => (1, 4, 0)
  | f16 => (1, 2, 1)
  | q4_0 => (32, 18, 2)
  | q4_1 => (32, 20, 3)
  | q5_0 => (32, 22, 6)
  | q5_1 => (32, 24, 7)
  | q8_0 => (32, 34, 8)
  | q2_k => (256, 84, 10)
  | q3_k => (256, 110, 11)
  | q4_k => (256, 144, 12)
  | q5_k => (256, 176, 13)
  | q6_k => (256, 210, 14)
  | other id => (1, 1, id)

/-- The traits of `ggml`, with conversions and quantizations that give zeros. -/
def zeroGgml : Ggml where
  qntVersion := 2
  ftypeValue
    | .mostlyQ4_0 => 2
    | .mostlyQ4_1 => 3
    | .mostlyQ8_0 => 7
    | .mostlyQ5_0 => 8
    | .mostlyQ5_1 => 9
    | .mostlyQ2_k => 10
    | .mostlyQ3_k => 11
    | .mostlyQ4_k => 12
    | .mostlyQ5_k => 13
    | .mostlyQ6_k => 14
  typeName type := reprStr type
  blckSize type := type.traits.1
  rowSize type n := type.traits.2.1 * n / type.traits.1
  isQuantized type := 1 < type.traits.1
  nDims ne := if 1 < ne.ne3 then 4 else if 1 < ne.ne2 then 3 else if 1 < ne.ne1 then 2 else 1
  nelements ne := ne.ne0 * ne.ne1 * ne.ne2 * ne.ne3
  nbytes type ne := type.traits.2.1 * ne.ne0 / type.traits.1 * (ne.ne1 * ne.ne2 * ne.ne3)
  fp16ToFp32Row _ n := List.replicate (n * 4) 0
  toFloat type := if 1 < type.traits.1 then some fun _ n => List.replicate (n * 4) 0 else none
  quantizeChunk type _ _ nrows n :=
    (List.replicate (nrows * (type.traits.2.1 * n / type.traits.1)) 0,
      nrows * (type.traits.2.1 * n / type.traits.1))

/-- Zeros are quantized row by row. -/
lemma zeroGgml_rowByRow : zeroGgml.RowByRow where
  fp16_length _ _ := List.length_replicate
  toFloat_length type f hf src n := by
    unfold zeroGgml at hf
    dsimp only at hf
    split_ifs at hf
    cases hf
    exact List.length_replicate
  quantizeChunk_rows type n _ _ rows hrows := by
    clear hrows
    have hrow : ∀ row, zeroGgml.quantizeRow type n row = List.replicate (zeroGgml.rowSize type n) 0 := by
      intro row
      change List.replicate (1 * _) 0 = _
      rw [Nat.one_mul]
      rfl
    change (List.replicate (rows.length * zeroGgml.rowSize type n) 0, _) = _
    congr 1
    induction rows with
    | nil => simp
    | cons row rows ih =>
      rw [List.length_cons, Nat.add_mul, Nat.one_mul, List.flatMap_cons, hrow, ← ih,
        Nat.add_comm, List.replicate_add]
  quantizeRow_length type n _ _ row _ := by
    change (List.replicate (1 * _) 0).length = _
    rw [List.length_replicate, Nat.one_mul]
    rfl
  nbytes_rows type ne _ hpos := by
    change _ * _ = _ * (ne.ne0 * ne.ne1 * ne.ne2 * ne.ne3 / ne.ne0)
    rw [Nat.mul_assoc ne.ne0, Nat.mul_assoc ne.ne0, Nat.mul_div_cancel_left _ hpos]
    rfl

/-- A container: keys with a text or a number, and tensors; the alignment is the default one. -/
structure PlainCtx where
  kv : List (String × (String ⊕ ℕ))
  infos : List TensorInfo

/-- A text behind its length. -/
def ggufText (s : String) : List UInt8 :=
  leBytes 8 s.length ++ s.toList.map fun c => UInt8.ofNat c.toNat

/-- The padded sizes of the tensors before the `i`-th. -/
def PlainCtx.offset (c : PlainCtx) (i : ℕ) : ℕ :=
  ((c.infos.take i).map fun info => padTo 32 (zeroGgml.nbytes info.type info.ne)).sum

/-- The encoded metadata, padded to the alignment. -/
def PlainCtx.metaData (c : PlainCtx) : List UInt8 :=
  let keys := c.kv.flatMap fun entry => ggufText entry.1 ++
    match entry.2 with
    | .inl text => leBytes 4 8 ++ ggufText text
    | .inr n => leBytes 4 4 ++ leBytes 4 n
  let dims (ne : Dims) := ([ne.ne0, ne.ne1, ne.ne2, ne.ne3].take (zeroGgml.nDims ne)).flatMap (leBytes 8)
  let tensors := c.infos.zipIdx.flatMap fun entry => ggufText entry.1.name ++
    leBytes 4 (zeroGgml.nDims entry.1.ne) ++ dims entry.1.ne ++ leBytes 4 entry.1.type.traits.2.2 ++
    leBytes 8 (c.offset entry.2)
  let bytes := "GGUF".toList.map (fun c => UInt8.ofNat c.toNat) ++ leBytes 4 3 ++
    leBytes 8 c.infos.length ++ leBytes 8 c.kv.length ++ keys ++ tensors
  bytes ++ List.replicate (padTo 32 bytes.length - bytes.length) 0

/-- The functions of `gguf` the tool calls, on the context of lists. -/
def plainGguf : Gguf zeroGgml where
  Ctx := PlainCtx
  infos := PlainCtx.infos
  initEmpty := ⟨[], []⟩
  setKv c src := { c with kv := src.kv }
  setValU32 c key v := { c with kv := c.kv.filter (fun entry => entry.1 ≠ key) ++ [(key, .inr v)] }
  findKey c key := c.kv.findIdx? fun entry => entry.1 = key
  kvIsString c id := (c.kv[id]?.map fun entry => entry.2.isLeft).getD false
  valStr c id := c.kv[id]?.bind fun entry => entry.2.getLeft?
  nTensors c := c.infos.length
  tensorName c i := c.infos[i]?.map TensorInfo.name
  addTensor c t := if t.name ∈ c.infos.map TensorInfo.name then none
    else some { c with infos := c.infos ++ [t.info] }
  setTensorType c name type := some { c with
    infos := c.infos.map fun info => if info.name = name then { info with type := type } else info }
  findTensor c name := c.infos.findIdx? fun info => info.name = name
  tensorOffset := PlainCtx.offset
  tensorSize c i := (c.infos[i]?.map fun info => zeroGgml.nbytes info.type info.ne).getD 0
  alignment _ := 32
  metaSize c := c.metaData.length
  metaData := PlainCtx.metaData

/-- Its offsets are the padded sizes. -/
lemma plainGguf_padsOffsets : plainGguf.PadsOffsets where
  infos_initEmpty := rfl
  infos_setKv _ _ := rfl
  infos_setValU32 _ _ _ := rfl
  infos_addTensor c t c' h := by
    unfold plainGguf at h
    dsimp only at h
    split_ifs at h with hnew
    cases h
    exact ⟨hnew, rfl⟩
  infos_setTensorType c name type c' h := by
    cases h
    rfl
  alignment_setTensorType _ _ _ _ _ := rfl
  alignment_pos _ := show 0 < 32 by decide
  tensorOffset_eq _ _ := rfl
  tensorSize_eq c i info h := by
    change ((PlainCtx.infos c)[i]?.map _).getD 0 = _
    change (PlainCtx.infos c)[i]? = some info at h
    rw [h]
    rfl
  metaData_length _ := rfl

/-- A matrix of two rows of zeros, which is quantized. -/
def zeroMatrix : Tensor zeroGgml where
  name := "output.weight"
  type := .f32
  ne := ⟨32, 2, 1, 1⟩
  data := List.replicate 256 0
  row_compatible := by decide
  data_length := List.length_replicate

/-- A vector, which is not. -/
def shortVector : Tensor zeroGgml where
  name := "norm"
  type := .f32
  ne := ⟨2, 1, 1, 1⟩
  data := [0, 0, 128, 63, 0, 0, 0, 64]
  row_compatible := by decide
  data_length := rfl

/-- A file with a matrix and a vector too short to be quantized. -/
def sampleSource : Source plainGguf where
  gguf := (⟨[("general.architecture", .inl "voxtral")], [zeroMatrix.info, shortVector.info]⟩ : PlainCtx)
  getTensor name := [zeroMatrix, shortVector].find? fun t => t.name = name

/-- The stores of a chunk in reverse order. -/
def backwards : Interleaving where
  order _ _ stores := stores.reverse
  order_perm _ _ stores := stores.reverse_perm

/-- `Q8_0`. -/
def sampleOptions : QuantOptions := ⟨"Q8_0", .q8_0, .mostlyQ8_0, false⟩

end Sample

/-- The vector stands behind the padded rows of the matrix, under two threads and under any number of them. -/
theorem quantize_voxtral_gguf_layout_shortVector :
    ∃ final file,
      quantizeVoxtralGguf plainGguf backwards sampleSource sampleOptions 2 = .ok (final, file) ∧
      (file.drop (plainGguf.metaSize final + plainGguf.tensorOffset final 1)).take
        (plainGguf.tensorSize final 1) = shortVector.data ∧
      ∀ plan : WorkPlan, quantizeGgufBy plainGguf plan sampleSource sampleOptions = .ok (final, file) := by
  have hok : (quantizeVoxtralGguf plainGguf backwards sampleSource sampleOptions 2).isOk = true := by
    decide +kernel
  cases h : quantizeVoxtralGguf plainGguf backwards sampleSource sampleOptions 2 with
  | error e =>
    rw [h] at hok
    cases hok
  | ok r =>
    obtain ⟨⟨tensors, out, hin, -, -, hlayout⟩, hplan⟩ :=
      quantize_voxtral_gguf_layout zeroGgml_rowByRow plainGguf_padsOffsets h
    have htensors : tensors = [zeroMatrix, shortVector] :=
      congrArg Prod.fst (Except.ok.inj (hin.symm.trans
        (show inputTensors plainGguf sampleSource sampleOptions = .ok ([zeroMatrix, shortVector], _) from rfl)))
    subst htensors
    have hbytes : outputBytes sampleOptions shortVector = shortVector.data := by
      have htype : outputType sampleOptions shortVector = (false, .f32) := by decide +kernel
      unfold outputBytes
      rw [htype]
    exact ⟨r.1, r.2, rfl, (hlayout 1 (by decide)).1.trans hbytes, hplan⟩

end Voxtral.Quantize
