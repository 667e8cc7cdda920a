import Mathlib.Data.Set.Function
import Mathlib.Order.Interval.Set.Defs
import Voxtral.Encoder.Batches
import Voxtral.Encoder.KvPlan

/-!
# Attention of the encoder

A batch of new frames runs in one of three graphs.  The variable graph lays the keys and values of its
physical block out in logical order, as segments (`segmentedInput`) or as one window (`flashInput`); the
reusable graph of four rows reads the K/V ring slot by slot (`steadyInput`).  In each of them a query
attends exactly to its last 750 frames: the columns its mask leaves open are in bijection with them, and
each holds the keys and values of its frame (`ExactWindow`).
-/

namespace Voxtral

variable {χ : Type*}

/-! ## Graph inputs -/

/-- The keys and values an attention layer reads, column by column, and the columns that the mask row
of a query leaves open. -/
structure AttentionInput (χ : Type*) where
  columns : List (RingRow χ)
  unmasked : ℕ → ℕ → Bool

/-- The offset of a batch in its physical block. -/
def qOffset (qStart physical : ℕ) : ℕ := qStart % physical

/-- The first frame of the physical block of a batch. -/
def blockStart (qStart physical : ℕ) : ℕ := qStart - qOffset qStart physical

/-- The first frame of the window of a physical block. -/
def keyStart (qStart physical : ℕ) : ℕ := blockStart qStart physical - (encWindow - 1)

/-- The frame behind the window of a physical block. -/
def keyEnd (qStart physical : ℕ) : ℕ := blockStart qStart physical + physical

/-- `L`, the columns of a physical block. -/
def windowColumns (qStart physical : ℕ) : ℕ := keyEnd qStart physical - keyStart qStart physical

/-- The first frame whose keys and values a batch reads from the ring. -/
def validOldStart (qStart physical : ℕ) : ℕ :=
  max (keyStart qStart physical) (qStart - (encWindow - 1))

/-- The new keys and values of a physical block: those of the batch in its rows, and whatever the dummy
rows compute. -/
def kvStore (kv : ℕ → χ) (dummy : ℕ → RingRow χ) (qStart n physical : ℕ) (row : ℕ) : RingRow χ :=
  if qOffset qStart physical ≤ row ∧ row < qOffset qStart physical + n then
    ⟨blockStart qStart physical + row, kv (blockStart qStart physical + row)⟩
  else dummy row

/-- `ggml_view_2d` of `len` columns from `start` on. -/
def columnsView (columns : ℕ → RingRow χ) (start len : ℕ) : List (RingRow χ) :=
  (List.range' start len).map columns

/-- The frames `[start, start + len)` in the ring, as one view or two. -/
def oldColumns (ring : HistoryRing χ) (start len : ℕ) : List (RingRow χ) :=
  let slot0 := start % encKvCap
  let len0 := min len (encKvCap - slot0)
  columnsView ring slot0 len0 ++ columnsView ring 0 (len - len0)

/-- The mask of the variable graph; `segmented` is `encoder_kv_uses_segmented_attention`. -/
def encKvMask (segmented : Bool) (qStart n physical : ℕ) (ql kl : ℕ) : Bool :=
  if qOffset qStart physical ≤ ql ∧ ql < qOffset qStart physical + n then
    encKvMaskAllows (keyStart qStart physical + kl : ℕ) (blockStart qStart physical + ql : ℕ)
      encWindow
  else segmented && kl == 0

/-- The segmented attention of `build_encoder_kv_graph`: nothing if the batch crosses its block or one
of the assertions fails. -/
def segmentedInput (ring : HistoryRing χ) (store : ℕ → RingRow χ) (qStart n physical : ℕ) :
    Option (AttentionInput χ) :=
  let offset := qOffset qStart physical
  let validOld := validOldStart qStart physical
  let prefixLen := validOld - keyStart qStart physical
  let oldLen := qStart - validOld
  let futureLen := keyEnd qStart physical - (qStart + n)
  let futureCol := offset + n
  let columns := columnsView store 0 prefixLen ++ oldColumns ring validOld oldLen ++
    columnsView store offset n ++ columnsView store futureCol futureLen
  if physical < offset + n then none
  else if 0 < prefixLen ∧ ¬ prefixLen ≤ offset then none
  else if 0 < futureLen ∧ ¬ futureCol + futureLen ≤ physical then none
  else if columns.length ≠ windowColumns qStart physical then none
  else some ⟨columns, encKvMask true qStart n physical⟩

/-- The flash attention of `build_encoder_kv_graph`: the window is concatenated; with 16-bit keys and
values the rest of the block is filled with dummy columns, otherwise it is zero padded. -/
def flashInput (f16 : Bool) (pad : RingRow χ) (ring : HistoryRing χ) (store : ℕ → RingRow χ)
    (qStart n physical : ℕ) : Option (AttentionInput χ) :=
  let offset := qOffset qStart physical
  let validOld := validOldStart qStart physical
  let prefixLen := validOld - keyStart qStart physical
  let oldLen := qStart - validOld
  let futureLen := keyEnd qStart physical - (qStart + n)
  let window := oldColumns ring validOld oldLen ++ columnsView store offset n
  let columns :=
    if f16 then columnsView store 0 prefixLen ++ window ++ columnsView store (offset + n) futureLen
    else List.replicate prefixLen pad ++ window ++ List.replicate futureLen pad
  if physical < offset + n then none
  else if f16 = true ∧ 0 < prefixLen ∧ ¬ prefixLen ≤ offset then none
  else if columns.length ≠ windowColumns qStart physical then none
  else some ⟨columns, encKvMask false qStart n physical⟩

/-- `encoder_steady_kv_rows`. -/
def steadyKvRows (qStart : ℕ) : List ℕ := (List.range 4).map fun q => (qStart + q) % encKvCap

/-- `ggml_set_rows`: column `i` and the following ones of `store` replace the given slots. -/
def setRows (ring : HistoryRing χ) (store : ℕ → RingRow χ) : ℕ → List ℕ → HistoryRing χ
  | _, [] => ring
  | i, slot :: slots => setRows (Function.update ring slot (store i)) store (i + 1) slots

/-- `encoder_steady_mask`: the slots of the keys of a query. -/
def steadyMask (qStart q slot : ℕ) : Bool :=
  let absoluteQ := qStart + q
  let firstKey := absoluteQ - (encWindow - 1)
  (List.range' firstKey (absoluteQ + 1 - firstKey)).any fun key => key % encKvCap == slot

/-- The reusable graph reads the whole ring. -/
def steadyInput (ring : HistoryRing χ) (qStart : ℕ) : AttentionInput χ :=
  ⟨columnsView ring 0 encKvCap, steadyMask qStart⟩

/-- The ring after a batch wrote its keys and values: the reusable graph sets four rows, the variable
graph copies the columns of the batch into the segments of its plan. -/
def kvAppend (reusable : Bool) (kv : ℕ → χ) (dummy : ℕ → RingRow χ) (ring : HistoryRing χ)
    (r : EncoderRun) : HistoryRing χ :=
  if reusable = true ∧ r.n = 4 ∧ r.physical = 4 then
    setRows ring (fun q => ⟨r.qStart + q, kv (r.qStart + q)⟩) 0 (steadyKvRows r.qStart)
  else
    writeKvColumns ring (kvStore kv dummy r.qStart r.n r.physical) (qOffset r.qStart r.physical)
      (encKvRingSegments r.qStart r.n encKvCap)

/-- The ring after a list of batches. -/
def kvRingAfter (reusable : Bool) (kv : ℕ → χ) (dummy : ℕ → RingRow χ) :
    HistoryRing χ → List EncoderRun → HistoryRing χ :=
  List.foldl (kvAppend reusable kv dummy)

/-- The columns that the mask leaves open to row `ql` are in bijection with the frames
`max(0, q - 749) .. q`, and each holds the keys and values of its frame. -/
def ExactWindow (input : AttentionInput χ) (kv : ℕ → χ) (ql q : ℕ) : Prop :=
  ∃ column : ℕ → ℕ,
    Set.BijOn column (Set.Icc (q - (encWindow - 1)) q)
      {c | c < input.columns.length ∧ input.unmasked ql c = true} ∧
    ∀ frame ∈ Set.Icc (q - (encWindow - 1)) q, input.columns[column frame]? = some ⟨frame, kv frame⟩

/-! ## The ring -/

/-- The rows of a batch. -/
lemma kvStore_row (kv : ℕ → χ) (dummy : ℕ → RingRow χ) (qStart n physical : ℕ) {i : ℕ} (hi : i < n) :
    kvStore kv dummy qStart n physical (qOffset qStart physical + i) = ⟨qStart + i, kv (qStart + i)⟩ := by
  have hle : qOffset qStart physical ≤ qStart := Nat.mod_le qStart physical
  have hrow : blockStart qStart physical + (qOffset qStart physical + i) = qStart + i := by
    unfold blockStart
    omega
  rw [kvStore, if_pos ⟨Nat.le_add_right _ _, by omega⟩, hrow]

/-- Either graph writes the frames of the batch one after the other. -/
lemma kvAppend_eq (reusable : Bool) (kv : ℕ → χ) (dummy : ℕ → RingRow χ) (ring : HistoryRing χ)
    {r : EncoderRun} (hmax : r.n ≤ encKvMaxNew) :
    kvAppend reusable kv dummy ring r = ring.writeRange encKvCap kv r.qStart r.n := by
  unfold kvAppend
  split_ifs with hsteady
  · rw [hsteady.2.1]
    rfl
  · refine writeKvColumns_eq ring (by decide) (hmax.trans (by decide)) fun i hi => ?_
    exact kvStore_row kv dummy r.qStart r.n r.physical hi

/-- After batches from the first frame on, the ring holds the last 878 frames. -/
lemma kvRingAfter_holds (reusable : Bool) (kv : ℕ → χ) (dummy : ℕ → RingRow χ) {ring : HistoryRing χ}
    {e : ℕ} {runs : List EncoderRun} (h : Batches e runs)
    (hring : ring.Holds encKvCap kv (e - encKvCap) e) :
    (kvRingAfter reusable kv dummy ring runs).Holds encKvCap kv (e + frameCount runs - encKvCap)
      (e + frameCount runs) := by
  induction h generalizing ring with
  | nil e => exact hring
  | @cons e r rs hstart hpos hmax hphysical hblock hrest ih =>
    have hnext : (kvAppend reusable kv dummy ring r).Holds encKvCap kv (e + r.n - encKvCap)
        (e + r.n) := by
      rw [kvAppend_eq reusable kv dummy ring hmax, hstart]
      exact hring.writeRange r.n
    have hcount : e + frameCount (r :: rs) = e + r.n + frameCount rs := by
      rw [Nat.add_assoc]
      rfl
    rw [hcount]
    exact ih hnext

/-! ## The variable graph -/

section Layout

variable {kv : ℕ → χ} {dummy : ℕ → RingRow χ} {ring : HistoryRing χ} {qStart n physical : ℕ}

/-- Frames laid out in logical order, from frame `start` on. -/
def frameColumns (kv : ℕ → χ) (start len : ℕ) : List (RingRow χ) :=
  (List.range' start len).map fun frame => ⟨frame, kv frame⟩

/-- A view has as many columns as asked for. -/
lemma length_columnsView (columns : ℕ → RingRow χ) (start len : ℕ) :
    (columnsView columns start len).length = len := by
  rw [columnsView, List.length_map, List.length_range']

/-- One view or two show the frames of a span the ring holds. -/
lemma oldColumns_eq {start len : ℕ} (hlen : len ≤ encKvCap)
    (h : ring.Holds encKvCap kv start (start + len)) :
    oldColumns ring start len = frameColumns kv start len := by
  have hslot := Nat.mod_lt start (show 0 < encKvCap by decide)
  have hlength : (oldColumns ring start len).length = len := by
    rw [oldColumns, List.length_append, length_columnsView, length_columnsView]
    omega
  refine List.ext_getElem (by rw [hlength, frameColumns, List.length_map, List.length_range']) ?_
  intro i hi _
  rw [hlength] at hi
  have hread := h (start + i) (by omega) (by omega)
  rw [HistoryRing.read] at hread
  simp only [frameColumns, List.getElem_map, List.getElem_range', Nat.one_mul, ← hread, oldColumns]
  by_cases hfirst : i < min len (encKvCap - start % encKvCap)
  · rw [List.getElem_append_left (by rwa [length_columnsView])]
    simp only [columnsView, List.getElem_map, List.getElem_range', Nat.one_mul]
    rw [add_mod_of_room (by omega)]
  · rw [List.getElem_append_right (by rw [length_columnsView]; omega)]
    simp only [columnsView, List.getElem_map, List.getElem_range', Nat.one_mul, Nat.zero_add,
      List.length_map, List.length_range']
    have hwrapped := add_mod_of_wrapped (q := start)
      (show 0 < encKvCap by decide) (show i - (encKvCap - start % encKvCap) < encKvCap by omega)
    rw [show start + (encKvCap - start % encKvCap) + (i - (encKvCap - start % encKvCap)) =
      start + i by omega] at hwrapped
    rw [hwrapped]
    congr 1
    omega

/-- So have the columns of frames. -/
lemma length_frameColumns (kv : ℕ → χ) (start len : ℕ) : (frameColumns kv start len).length = len := by
  rw [frameColumns, List.length_map, List.length_range']

/-- The columns of two adjoining ranges of frames. -/
lemma frameColumns_append (kv : ℕ → χ) (start len more : ℕ) :
    frameColumns kv start len ++ frameColumns kv (start + len) more =
      frameColumns kv start (len + more) := by
  rw [frameColumns, frameColumns, frameColumns, ← List.map_append, List.range'_append_1]

/-- The rows of the batch are its frames. -/
lemma columnsView_store (kv : ℕ → χ) (dummy : ℕ → RingRow χ) (qStart n physical : ℕ) :
    columnsView (kvStore kv dummy qStart n physical) (qOffset qStart physical) n =
      frameColumns kv qStart n := by
  refine List.ext_getElem (by rw [length_columnsView, length_frameColumns]) fun i hi _ => ?_
  rw [length_columnsView] at hi
  simp only [columnsView, frameColumns, List.getElem_map, List.getElem_range', Nat.one_mul]
  exact kvStore_row kv dummy qStart n physical hi

/-- A layout in logical order shows a query its window, if the mask leaves open the columns of that
window. -/
lemma exactWindow_of_layout {front back : List (RingRow χ)} {mask : ℕ → ℕ → Bool} (first : ℕ)
    {start len ql q : ℕ} (hfirst : first + front.length = start)
    (hlo : start ≤ q - (encWindow - 1)) (hhi : q < start + len)
    (hmask : ∀ c, mask ql c = true ↔ first + c ≤ q ∧ q - (encWindow - 1) ≤ first + c) :
    ExactWindow ⟨front ++ frameColumns kv start len ++ back, mask⟩ kv ql q := by
  refine ⟨fun frame => frame - first, ⟨?_, ?_, ?_⟩, ?_⟩
  · rintro frame ⟨hframe, hframe'⟩
    have hback : first + (frame - first) = frame := by omega
    refine ⟨?_, (hmask _).mpr ?_⟩
    · simp only [List.length_append, length_frameColumns]
      omega
    · rw [hback]
      exact ⟨hframe', hframe⟩
  · rintro frame ⟨hframe, -⟩ frame' ⟨hframe', -⟩ heq
    dsimp only at heq
    omega
  · rintro c ⟨-, hopen⟩
    obtain ⟨hle, hge⟩ := (hmask c).mp hopen
    exact ⟨first + c, ⟨hge, hle⟩, Nat.add_sub_cancel_left first c⟩
  · rintro frame ⟨hframe, hframe'⟩
    have hindex : frame - first = front.length + (frame - start) := by omega
    dsimp only
    rw [List.append_assoc, hindex, List.getElem?_append_right (Nat.le_add_right _ _),
      Nat.add_sub_cancel_left, List.getElem?_append_left (by rw [length_frameColumns]; omega),
      frameColumns, List.getElem?_map, List.getElem?_range' (by omega), Option.map_some, Nat.one_mul,
      Nat.add_sub_cancel' (hlo.trans hframe)]

/-- The bounds of the window of a physical block. -/
lemma block_bounds (hblock : qStart % physical + n ≤ physical) :
    validOldStart qStart physical = qStart - (encWindow - 1) ∧
      keyStart qStart physical ≤ validOldStart qStart physical ∧
      validOldStart qStart physical - keyStart qStart physical ≤ qOffset qStart physical ∧
      blockStart qStart physical + qOffset qStart physical = qStart ∧
      qStart + n ≤ keyEnd qStart physical := by
  have hle : qStart % physical ≤ qStart := Nat.mod_le qStart physical
  unfold validOldStart keyEnd keyStart blockStart qOffset
  omega

/-- The mask of a real query leaves open the columns of its window. -/
lemma encKvMask_iff {segmented : Bool} {ql : ℕ} (hlo : qOffset qStart physical ≤ ql)
    (hhi : ql < qOffset qStart physical + n) (c : ℕ) :
    encKvMask segmented qStart n physical ql c = true ↔
      keyStart qStart physical + c ≤ blockStart qStart physical + ql ∧
        blockStart qStart physical + ql - (encWindow - 1) ≤ keyStart qStart physical + c := by
  rw [encKvMask, if_pos ⟨hlo, hhi⟩, encKvMaskAllows, decide_eq_true_iff]
  simp only [encWindow]
  omega

variable (dummy) in
/-- The columns of a window whose frames are in the ring. -/
lemma window_eq (hring : ring.Holds encKvCap kv (qStart + n - encKvCap) (qStart + n))
    (hn : n ≤ encKvMaxNew) (hblock : qStart % physical + n ≤ physical) :
    oldColumns ring (validOldStart qStart physical) (qStart - validOldStart qStart physical) ++
        columnsView (kvStore kv dummy qStart n physical) (qOffset qStart physical) n =
      frameColumns kv (validOldStart qStart physical)
        (qStart - validOldStart qStart physical + n) := by
  obtain ⟨hvalid, -, -, -, -⟩ := block_bounds hblock
  simp only [encKvMaxNew] at hn
  rw [hvalid]
  have hold : qStart - (encWindow - 1) + (qStart - (qStart - (encWindow - 1))) = qStart := by omega
  rw [oldColumns_eq (by simp only [encWindow, encKvCap, encKvMaxNew]; omega) (hring.mono (by
    simp only [encWindow, encKvCap, encKvMaxNew]; omega) (by omega)), columnsView_store]
  conv_lhs => rw [← hold]
  rw [hold, ← frameColumns_append, hold]

/-- A window between the columns in front of it and behind it fills its physical block. -/
lemma length_layout {front back : List (RingRow χ)}
    (hfront : front.length = validOldStart qStart physical - keyStart qStart physical)
    (hback : back.length = keyEnd qStart physical - (qStart + n))
    (hblock : qStart % physical + n ≤ physical) :
    (front ++ frameColumns kv (validOldStart qStart physical)
      (qStart - validOldStart qStart physical + n) ++ back).length =
      windowColumns qStart physical := by
  obtain ⟨hvalid, hkey, -, -, hend⟩ := block_bounds hblock
  rw [List.length_append, List.length_append, hfront, hback, length_frameColumns, windowColumns]
  omega

/-- It shows every query of the batch its window. -/
lemma exactWindow_of_block {front back : List (RingRow χ)} (segmented : Bool)
    (hfront : front.length = validOldStart qStart physical - keyStart qStart physical)
    (hblock : qStart % physical + n ≤ physical) {ql : ℕ} (hlo : qOffset qStart physical ≤ ql)
    (hhi : ql < qOffset qStart physical + n) :
    ExactWindow ⟨front ++ frameColumns kv (validOldStart qStart physical)
      (qStart - validOldStart qStart physical + n) ++ back, encKvMask segmented qStart n physical⟩
      kv ql (blockStart qStart physical + ql) := by
  obtain ⟨hvalid, hkey, -, hstart, -⟩ := block_bounds hblock
  refine exactWindow_of_layout (keyStart qStart physical) ?_ ?_ ?_ (encKvMask_iff hlo hhi)
  · omega
  · omega
  · omega

/-- The segmented graph is built, and shows every query of the batch its window. -/
lemma segmentedInput_exact (hring : ring.Holds encKvCap kv (qStart + n - encKvCap) (qStart + n))
    (hn : n ≤ encKvMaxNew) (hblock : qStart % physical + n ≤ physical) :
    ∃ input, segmentedInput ring (kvStore kv dummy qStart n physical) qStart n physical =
        some input ∧
      ∀ ql, qOffset qStart physical ≤ ql → ql < qOffset qStart physical + n →
        ExactWindow input kv ql (blockStart qStart physical + ql) := by
  obtain ⟨-, -, hroom, -, -⟩ := block_bounds hblock
  have hfuture : qOffset qStart physical + n + (keyEnd qStart physical - (qStart + n)) ≤ physical := by
    obtain ⟨-, -, -, hstart, hend⟩ := block_bounds hblock
    unfold keyEnd at hend ⊢
    omega
  unfold segmentedInput
  dsimp only
  have hfits : qOffset qStart physical + n ≤ physical := hblock
  rw [if_neg (not_lt.mpr hfits), if_neg fun h => h.2 hroom, if_neg fun h => h.2 hfuture,
    List.append_assoc (columnsView _ _ _), window_eq dummy hring hn hblock,
    if_neg (not_not.mpr (length_layout (length_columnsView _ _ _) (length_columnsView _ _ _) hblock))]
  exact ⟨_, rfl, fun ql hlo hhi =>
    exactWindow_of_block true (length_columnsView _ _ _) hblock hlo hhi⟩

/-- The flash graph is built, and shows every query of the batch its window. -/
lemma flashInput_exact (f16 : Bool) (pad : RingRow χ)
    (hring : ring.Holds encKvCap kv (qStart + n - encKvCap) (qStart + n))
    (hn : n ≤ encKvMaxNew) (hblock : qStart % physical + n ≤ physical) :
    ∃ input, flashInput f16 pad ring (kvStore kv dummy qStart n physical) qStart n physical =
        some input ∧
      ∀ ql, qOffset qStart physical ≤ ql → ql < qOffset qStart physical + n →
        ExactWindow input kv ql (blockStart qStart physical + ql) := by
  obtain ⟨-, -, hroom, -, -⟩ := block_bounds hblock
  unfold flashInput
  dsimp only
  have hfits : qOffset qStart physical + n ≤ physical := hblock
  rw [if_neg (not_lt.mpr hfits), if_neg fun h => h.2.2 hroom, window_eq dummy hring hn hblock]
  cases f16 with
  | true =>
    rw [if_pos rfl, if_neg (not_not.mpr
      (length_layout (length_columnsView _ _ _) (length_columnsView _ _ _) hblock))]
    exact ⟨_, rfl, fun ql hlo hhi =>
      exactWindow_of_block false (length_columnsView _ _ _) hblock hlo hhi⟩
  | false =>
    rw [if_neg Bool.false_ne_true, if_neg (not_not.mpr
      (length_layout List.length_replicate List.length_replicate hblock))]
    exact ⟨_, rfl, fun ql hlo hhi =>
      exactWindow_of_block false List.length_replicate hblock hlo hhi⟩

end Layout

/-! ## The reusable graph -/

/-- Keys that span less than the ring use different slots. -/
lemma bijOn_slots {cap lo hi : ℕ} (hspan : hi < lo + cap) :
    Set.BijOn (fun key => key % cap) (Set.Icc lo hi)
      {slot | ∃ key, lo ≤ key ∧ key ≤ hi ∧ key % cap = slot} := by
  refine ⟨fun key hkey => ⟨key, hkey.1, hkey.2, rfl⟩, ?_, ?_⟩
  · rintro key ⟨hlo, hhi⟩ key' ⟨hlo', hhi'⟩ heq
    rcases lt_trichotomy key key' with hlt | heq' | hlt
    · exact absurd heq (HistoryRing.mod_ne_of_near hlt (by omega))
    · exact heq'
    · exact absurd heq.symm (HistoryRing.mod_ne_of_near hlt (by omega))
  · rintro slot ⟨key, hlo, hhi, hslot⟩
    exact ⟨key, ⟨hlo, hhi⟩, hslot⟩

/-- The keys of a range, by their slots. -/
lemma any_slot_iff (cap first last slot : ℕ) :
    ((List.range' first (last + 1 - first)).any fun key => key % cap == slot) = true ↔
      ∃ key, first ≤ key ∧ key ≤ last ∧ key % cap = slot := by
  rw [List.any_eq_true]
  constructor
  · rintro ⟨key, hkey, hslot⟩
    have hmem := List.mem_range'_1.mp hkey
    exact ⟨key, hmem.1, by omega, beq_iff_eq.mp hslot⟩
  · rintro ⟨key, hlo, hhi, hslot⟩
    exact ⟨key, List.mem_range'_1.mpr ⟨hlo, by omega⟩, beq_iff_eq.mpr hslot⟩

/-- A view of the whole ring shows a position in its slot. -/
lemma columnsView_slot (ring : HistoryRing χ) {cap : ℕ} (hcap : 0 < cap) (key : ℕ) :
    (columnsView ring 0 cap)[key % cap]? = some (ring.read cap key) := by
  rw [columnsView, List.getElem?_map, List.getElem?_range' (Nat.mod_lt key hcap), Option.map_some,
    Nat.one_mul, Nat.zero_add]
  rfl

/-- The reusable graph shows every query of the batch its window, slot by slot. -/
lemma steadyInput_exact {kv : ℕ → χ} {ring : HistoryRing χ} {qStart q : ℕ} (hq : q < 4)
    (hring : ring.Holds encKvCap kv (qStart + 4 - encKvCap) (qStart + 4)) :
    ExactWindow (steadyInput ring qStart) kv q (qStart + q) := by
  have hcap : 0 < encKvCap := by decide
  have hspan : qStart + 4 ≤ qStart + q - (encWindow - 1) + encKvCap := by
    simp only [encKvCap, encWindow, encKvMaxNew]
    omega
  have hmasked : {c | c < (steadyInput ring qStart).columns.length ∧
      (steadyInput ring qStart).unmasked q c = true} =
      {slot | ∃ key, qStart + q - (encWindow - 1) ≤ key ∧ key ≤ qStart + q ∧
        key % encKvCap = slot} := by
    ext slot
    have hmask : steadyMask qStart q slot = true ↔ ∃ key, qStart + q - (encWindow - 1) ≤ key ∧
        key ≤ qStart + q ∧ key % encKvCap = slot := by
      unfold steadyMask
      exact any_slot_iff encKvCap (qStart + q - (encWindow - 1)) (qStart + q) slot
    have hlength : (steadyInput ring qStart).columns.length = encKvCap := length_columnsView _ _ _
    have hunmasked : (steadyInput ring qStart).unmasked = steadyMask qStart := by
      unfold steadyInput
      dsimp only
    rw [Set.mem_ofPred_eq, Set.mem_ofPred_eq, hlength, hunmasked, hmask]
    refine ⟨fun h => h.2, fun h => ⟨?_, h⟩⟩
    obtain ⟨key, -, -, rfl⟩ := h
    exact Nat.mod_lt key hcap
  refine ⟨fun key => key % encKvCap, ?_, ?_⟩
  · rw [hmasked]
    exact bijOn_slots (by omega)
  · rintro key ⟨hlo, hhi⟩
    have hread := hring key (by omega) (by omega)
    rw [← hread]
    exact columnsView_slot ring hcap key

/-! ## All batches -/

/-- **The attention set of the encoder is the exact sliding window.**  Whatever calls drive the encoder,
on any schedule, each batch has a plan; with the ring as the batches before it and its own writes leave
it, the segmented and the flash graph of the batch are built without failing an assertion, and in them,
as in the reusable graph of a batch of four rows, every query at frame `q` attends exactly to the
keys and values of the frames `max(0, q - 749) .. q`. -/
theorem encoder_attention_exact (sch : EncoderSchedule) (terminal : Option TerminalRows)
    (calls : List (Bool × ℕ)) (reusable : Bool) (kv : ℕ → χ) (dummy : ℕ → RingRow χ)
    (pad : RingRow χ) (ring : HistoryRing χ) (before after : List EncoderRun) (r : EncoderRun)
    (hcalls : driveAll sch terminal 0 calls = before ++ r :: after) :
    let ring' := kvAppend reusable kv dummy (kvRingAfter reusable kv dummy ring before) r
    let store := kvStore kv dummy r.qStart r.n r.physical
    (encKvPlan r.qStart r.n encKvCap encWindow).isSome = true ∧
    (∃ input, segmentedInput ring' store r.qStart r.n r.physical = some input ∧
      ∀ ql, qOffset r.qStart r.physical ≤ ql → ql < qOffset r.qStart r.physical + r.n →
        ExactWindow input kv ql (blockStart r.qStart r.physical + ql)) ∧
    (∀ f16, ∃ input, flashInput f16 pad ring' store r.qStart r.n r.physical = some input ∧
      ∀ ql, qOffset r.qStart r.physical ≤ ql → ql < qOffset r.qStart r.physical + r.n →
        ExactWindow input kv ql (blockStart r.qStart r.physical + ql)) ∧
    (r.n = 4 → r.physical = 4 → ∀ q < 4,
      ExactWindow (steadyInput ring' r.qStart) kv q (r.qStart + q)) := by
  have hbatches := driveAll_batches sch terminal 0 calls
  rw [hcalls] at hbatches
  obtain ⟨hbefore, hrest⟩ := hbatches.of_append
  have hholds : (kvRingAfter reusable kv dummy ring before).Holds encKvCap kv
      (0 + frameCount before - encKvCap) (0 + frameCount before) :=
    kvRingAfter_holds reusable kv dummy hbefore fun p _ hp => absurd hp (Nat.not_lt_zero p)
  rw [Nat.zero_add] at hrest hholds
  cases hrest with
  | cons hstart hpos hmax hphysical hblock _ =>
    have hring : (kvAppend reusable kv dummy (kvRingAfter reusable kv dummy ring before) r).Holds
        encKvCap kv (r.qStart + r.n - encKvCap) (r.qStart + r.n) := by
      rw [kvAppend_eq reusable kv dummy _ hmax]
      rw [← hstart] at hholds
      exact hholds.writeRange r.n
    refine ⟨?_, segmentedInput_exact hring hmax hblock,
      fun f16 => flashInput_exact f16 pad hring hmax hblock, fun hfour _ q hq => ?_⟩
    · simp only [encKvMaxNew] at hmax
      rw [encKvPlan, if_neg (by simp only [encKvCap, encWindow, encKvMaxNew]; omega), if_neg (by
        simp only [encKvCap, encWindow, encKvMaxNew]; push_cast; omega)]
      rfl
    · rw [hfour] at hring
      exact steadyInput_exact hq hring

/-- The first batch behind the block of 128 frames, in the reusable graph. -/
theorem encoder_attention_exact_steady :
    ExactWindow (steadyInput (kvAppend true id (fun _ => ⟨0, 0⟩)
      (kvRingAfter true id (fun _ => ⟨0, 0⟩) (fun _ => ⟨0, 0⟩) [⟨0, 128, 128⟩]) ⟨128, 4, 4⟩) 128)
      id 3 131 :=
  (encoder_attention_exact defaultSchedule none [(false, 133)] true id (fun _ => ⟨0, 0⟩) ⟨0, 0⟩
    (fun _ => ⟨0, 0⟩) [⟨0, 128, 128⟩] [] ⟨128, 4, 4⟩ (by decide +kernel)).2.2.2 rfl rfl 3 (by decide)

end Voxtral
