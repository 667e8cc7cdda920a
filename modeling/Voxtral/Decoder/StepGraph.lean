import Mathlib.Data.Set.Function
import Mathlib.Order.Interval.Set.Defs
import Voxtral.Encoder.KvPlan
import Voxtral.Lib.Runs

/-!
# The step graph of the decoder

The keys and values of decoder position `p` live in slot `p % capacity` of the K/V cache.
`voxtral_decoder_kv_plan` plans an append and the segments a dynamic graph reads; the production path of
`run_decoder_step` keeps one graph for all steps, which reads every slot of the cache.  As long as the
cache grows, a mask hides the slots not written yet; it is uploaded when the number of used slots has
changed since the last upload.  Once the cache is full the graph is replaced by one without a mask.

What the backend leaves behind is arbitrary: the mask of a graph that was just allocated, the slot a
failed graph was about to write, and the rows of a failed prefill.
-/

namespace Voxtral

variable {χ : Type*}

/-! ## The plan -/

/-- `voxtral_decoder_kv_ring`; positions are absolute, only the addressing is modulo `capacity`. -/
structure DecoderKvRing where
  capacity : ℕ
  used : ℕ
  oldestAbsolutePosition : ℕ
  nextAbsolutePosition : ℕ
  wraps : ℕ
  evictions : ℕ
  deriving DecidableEq, Repr

/-- `voxtral_decoder_kv_seg`. -/
abbrev DecoderKvSeg := EncKvSeg

/-- `decoder_kv_segments`. -/
def decoderKvSegments (absoluteStart len capacity : ℕ) : List DecoderKvSeg :=
  if len = 0 then []
  else
    let slot := absoluteStart % capacity
    let first := min len (capacity - slot)
    if first = len then [⟨slot, first⟩] else [⟨slot, first⟩, ⟨0, len - first⟩]

/-- `voxtral_decoder_kv_plan_t`. -/
structure DecoderKvPlan where
  absoluteStart : ℕ
  nNew : ℕ
  writeSeg : List DecoderKvSeg
  readSeg : List DecoderKvSeg
  usedAfter : ℕ
  oldestAfter : ℕ
  nextAfter : ℕ
  evicted : ℕ
  wrapped : Bool

/-- `voxtral_decoder_kv_plan`. -/
def decoderKvPlan (ring : DecoderKvRing) (absoluteStart nNew : ℕ) : Option DecoderKvPlan :=
  if ring.capacity = 0 ∨ ring.capacity < ring.used ∨
      ring.oldestAbsolutePosition + ring.used ≠ ring.nextAbsolutePosition ∨
      absoluteStart ≠ ring.nextAbsolutePosition ∨ nNew = 0 ∨ ring.capacity < nNew then none
  else
    let nextAfter := absoluteStart + nNew
    let usedAfter := min ring.capacity (ring.used + nNew)
    let oldestAfter := nextAfter - usedAfter
    let previousCycle := if absoluteStart = 0 then 0 else (absoluteStart - 1) / ring.capacity
    some
      { absoluteStart, nNew
        writeSeg := decoderKvSegments absoluteStart nNew ring.capacity
        readSeg := decoderKvSegments oldestAfter usedAfter ring.capacity
        usedAfter, oldestAfter, nextAfter
        evicted := ring.used + nNew - ring.capacity
        wrapped := previousCycle < (nextAfter - 1) / ring.capacity }

/-- `decoder_kv_commit_plan`. -/
def DecoderKvRing.commitPlan (ring : DecoderKvRing) (plan : DecoderKvPlan) : DecoderKvRing :=
  { ring with
    used := plan.usedAfter
    oldestAbsolutePosition := plan.oldestAfter
    nextAbsolutePosition := plan.nextAfter
    evictions := ring.evictions + plan.evicted
    wraps := if plan.wrapped then ring.wraps + 1 else ring.wraps }

/-- The slots a dynamic step graph reads (`build_decoder_layer` without a dynamic slot): its one segment,
or the whole physical ring if the plan has two; nothing if the assertion of that branch fails. -/
def dynamicSlots (plan : DecoderKvPlan) (capacity : ℕ) : Option (List ℕ) :=
  match plan.readSeg with
  | [seg] => some (List.range' seg.slot seg.len)
  | [_, _] => if plan.usedAfter = capacity then some (List.range plan.usedAfter) else none
  | _ => none

/-! ## The reusable graph -/

/-- An entry of an additive attention mask. -/
inductive MaskEntry
  | zero
  | negInf
  deriving DecidableEq, Repr

/-- The part of the context that `run_decoder_step` uses: the ring, the rows of a layer of the cache, and
the reusable graph with the copy of its mask.  `kvMask` is the mask on the device. -/
structure DecoderContext (χ : Type*) where
  configuredCapacity : ℕ
  kv : DecoderKvRing
  rows : HistoryRing χ
  stepGraph : Bool
  stepGraphAllocated : Bool
  stepGraphFull : Bool
  stepMask : List MaskEntry
  stepMaskValid : ℤ
  kvMask : List MaskEntry

/-- A context without a graph, over a cache of arbitrary content. -/
def DecoderContext.create (capacity : ℕ) (rows : HistoryRing χ) : DecoderContext χ :=
  { configuredCapacity := capacity
    kv := ⟨capacity, 0, 0, 0, 0, 0⟩
    rows
    stepGraph := false
    stepGraphAllocated := false
    stepGraphFull := false
    stepMask := []
    stepMaskValid := -1
    kvMask := [] }

/-- `clear_kv_cache`: nothing is erased, and the graph stays. -/
def DecoderContext.clearKvCache (ctx : DecoderContext χ) : DecoderContext χ :=
  { ctx with kv := ⟨ctx.configuredCapacity, 0, 0, 0, 0, 0⟩, stepMaskValid := -1 }

/-- What the backend does with one step: whether a graph can be built and allocated, the memory its mask
is allocated in, whether the graph runs, and the row it leaves in its slot if it does not. -/
structure StepBackend (χ : Type*) where
  builds : Bool
  allocates : Bool
  freshMask : List MaskEntry
  executes : Bool
  torn : RingRow χ

/-- `ensure_decoder_step_graph`. -/
def DecoderContext.ensureStepGraph (ctx : DecoderContext χ) (fullCache : Bool) (be : StepBackend χ) :
    DecoderContext χ × Bool :=
  if ctx.stepGraph ∧ ctx.stepGraphAllocated ∧ ctx.stepGraphFull = fullCache then (ctx, true)
  else if !be.builds then ({ ctx with stepGraph := false, stepGraphAllocated := false }, false)
  else if !be.allocates then ({ ctx with stepGraph := true, stepGraphAllocated := false }, false)
  else
    ({ ctx with
        stepGraph := true
        stepGraphAllocated := true
        stepGraphFull := fullCache
        stepMask :=
          if fullCache then ctx.stepMask else List.replicate ctx.configuredCapacity .negInf
        stepMaskValid := -1
        kvMask := be.freshMask }, true)

/-- The two `std::fill` of the host mask. -/
def fillStepMask (mask : List MaskEntry) (valid : ℕ) : List MaskEntry :=
  (mask.map fun _ => MaskEntry.negInf).mapIdx fun i entry => if i < valid then .zero else entry

/-- Upload the mask of the growing cache, unless the one on the device is for `valid` slots. -/
def DecoderContext.uploadMask (ctx : DecoderContext χ) (fullCache : Bool) (valid : ℕ) :
    DecoderContext χ :=
  if fullCache = false ∧ ctx.stepMaskValid ≠ valid then
    let mask := fillStepMask ctx.stepMask valid
    { ctx with stepMask := mask, kvMask := mask, stepMaskValid := valid }
  else ctx

/-- What the attention of a step reads: the slot its own row was written to before, the rows of the layer
and the mask, which the graph for a full cache does not have. -/
structure StepAttention (χ : Type*) where
  kvSlot : ℕ
  rows : HistoryRing χ
  mask : Option (List MaskEntry)

/-- `run_decoder_step` on its reusable path; `row` is what the graph projects for the new position.  The
result is what the attention read, or nothing if the step failed. -/
def DecoderContext.runDecoderStep (ctx : DecoderContext χ) (position : ℕ) (row : χ)
    (be : StepBackend χ) : DecoderContext χ × Option (StepAttention χ) :=
  match decoderKvPlan ctx.kv position 1 with
  | none => (ctx, none)
  | some plan =>
    let fullCache : Bool := plan.usedAfter = ctx.configuredCapacity
    let (ctx, ready) := ctx.ensureStepGraph fullCache be
    if !ready then (ctx, none)
    else
      let kvSlot := position % ctx.configuredCapacity
      let ctx := ctx.uploadMask fullCache plan.usedAfter
      if !be.executes then ({ ctx with rows := Function.update ctx.rows kvSlot be.torn }, none)
      else
        -- `ggml_set_rows` comes first: the attention reads the cache it returns
        let rows := Function.update ctx.rows kvSlot ⟨position, row⟩
        ({ ctx with rows, kv := ctx.kv.commitPlan plan },
          some ⟨kvSlot, rows, if ctx.stepGraphFull then none else some ctx.kvMask⟩)

/-- `run_decoder_prefill` of `nTokens` tokens; `row i` is what the graph projects for the `i`-th of them,
and `torn` what is left of the cache if the graph fails. -/
def DecoderContext.runDecoderPrefill (ctx : DecoderContext χ) (nTokens : ℕ) (row : ℕ → χ)
    (torn : Option (HistoryRing χ)) : DecoderContext χ × Bool :=
  if decWindow < nTokens then (ctx, false)
  else
    match decoderKvPlan ctx.kv ctx.kv.nextAbsolutePosition nTokens with
    | none => (ctx, false)
    | some plan =>
      match torn with
      | some rows => ({ ctx with rows }, false)
      | none =>
        ({ ctx with
            rows := writeKvColumns ctx.rows (fun i => ⟨plan.absoluteStart + i, row i⟩) 0 plan.writeSeg
            kv := ctx.kv.commitPlan plan }, true)

/-! ## Runs -/

/-- A call on the decoder, with what the backend does in it. -/
inductive DecoderCall (χ : Type*)
  | clear
  | prefill (nTokens : ℕ) (row : ℕ → χ) (torn : Option (HistoryRing χ))
  | step (position : ℕ) (row : χ) (be : StepBackend χ)

/-- The outcome of a call. -/
inductive DecoderAnswer (χ : Type*)
  | cleared
  | prefilled (ok : Bool)
  | stepped (attention : Option (StepAttention χ))

/-- One call.  The callers prefill only an empty cache, once at the start of a stream or utterance. -/
def DecoderContext.call (ctx : DecoderContext χ) :
    DecoderCall χ → Option (DecoderContext χ × DecoderAnswer χ)
  | .clear => some (ctx.clearKvCache, .cleared)
  | .prefill nTokens row torn =>
    if ctx.kv.used = 0 then
      let (ctx, ok) := ctx.runDecoderPrefill nTokens row torn
      some (ctx, .prefilled ok)
    else none
  | .step position row be =>
    let (ctx, attention) := ctx.runDecoderStep position row be
    some (ctx, .stepped attention)

/-- The rows of the cache after one more answered call, position after position. -/
def appendRows (rows : List χ) : DecoderCall χ × DecoderAnswer χ → List χ
  | (.clear, _) => []
  | (.prefill nTokens row _, .prefilled true) => rows ++ (List.range nTokens).map row
  | (.step _ row _, .stepped (some _)) => rows ++ [row]
  | _ => rows

/-- The rows that were appended since the last clear. -/
def appendedRows (calls : List (DecoderCall χ)) (answers : List (DecoderAnswer χ)) : List χ :=
  (calls.zip answers).foldl appendRows []

/-! ## The logical window -/

/-- The slots that a query attends to. -/
def StepAttention.Visible (attention : StepAttention χ) (capacity slot : ℕ) : Prop :=
  slot < capacity ∧ ∀ mask, attention.mask = some mask → mask[slot]? = some .zero

/-- The mask that shows the first `used` slots. -/
def growingMask (capacity used : ℕ) : List MaskEntry :=
  List.replicate used .zero ++ List.replicate (capacity - used) .negInf

/-- The attention of a planned step: its row is written to its slot before, the visible slots are those of
the positions `[oldest_after, next_after)`, each of them holds the row of its position, the mask is the one
for `used_after` slots, and a dynamic graph reads the same slots. -/
structure AttendsWindow (attention : StepAttention χ) (plan : DecoderKvPlan) (capacity : ℕ)
    (rows : List χ) : Prop where
  kvSlot : attention.kvSlot = plan.absoluteStart % capacity
  next : plan.nextAfter = plan.absoluteStart + 1
  length : rows.length = plan.nextAfter
  written : ∃ row, rows[plan.absoluteStart]? = some row ∧
    attention.rows attention.kvSlot = ⟨plan.absoluteStart, row⟩
  window : Set.BijOn (· % capacity) (Set.Ico plan.oldestAfter plan.nextAfter)
    (Set.ofPred (attention.Visible capacity))
  holds : ∀ p ∈ Set.Ico plan.oldestAfter plan.nextAfter,
    ∃ row, rows[p]? = some row ∧ attention.rows (p % capacity) = ⟨p, row⟩
  mask : attention.mask =
    if plan.usedAfter = capacity then none else some (growingMask capacity plan.usedAfter)
  dynamic : ∃ slots, dynamicSlots plan capacity = some slots ∧
    ∀ slot, slot ∈ slots ↔ attention.Visible capacity slot

/-- The rows from position `lo` on are in the cache. -/
def KeptRows (ring : HistoryRing χ) (capacity : ℕ) (rows : List χ) (lo : ℕ) : Prop :=
  ∀ p row, lo ≤ p → rows[p]? = some row → ring.read capacity p = ⟨p, row⟩

/-- The context between two calls, after the given rows were appended: the ring counts them, the cache
keeps those that the next step does not evict, and a mask that counts as uploaded is on the device. -/
structure StepReady (ctx : DecoderContext χ) (rows : List χ) : Prop where
  capacity : ctx.kv.capacity = ctx.configuredCapacity
  next : ctx.kv.nextAbsolutePosition = rows.length
  used : ctx.kv.used = min ctx.configuredCapacity rows.length
  oldest : ctx.kv.oldestAbsolutePosition = rows.length - ctx.configuredCapacity
  kept : KeptRows ctx.rows ctx.configuredCapacity rows (rows.length + 1 - ctx.configuredCapacity)
  mask : ctx.stepGraphAllocated = true → ctx.stepGraphFull = false →
    ctx.stepMask.length = ctx.configuredCapacity ∧
      (ctx.stepMaskValid = -1 ∨
        ∃ valid : ℕ, ctx.stepMaskValid = valid ∧ ctx.kvMask = growingMask ctx.configuredCapacity valid)

/-! ## Rows -/

section Rows

variable {ring : HistoryRing χ} {capacity lo lo' : ℕ} {rows : List χ}

/-- Fewer rows are kept as well. -/
lemma KeptRows.mono (h : KeptRows ring capacity rows lo) (hlo : lo ≤ lo') :
    KeptRows ring capacity rows lo' :=
  fun p row hp hrow => h p row (hlo.trans hp) hrow

/-- Whatever is put into the slot of the next position, the rows less than one capacity behind it stay. -/
lemma KeptRows.update (h : KeptRows ring capacity rows lo) (hlo : lo ≤ lo')
    (hcap : rows.length < lo' + capacity) (row : RingRow χ) :
    KeptRows (Function.update ring (rows.length % capacity) row) capacity rows lo' := by
  intro p v hp hv
  have hlt : p < rows.length := (List.getElem?_eq_some_iff.mp hv).1
  have hslot : p % capacity ≠ rows.length % capacity := HistoryRing.mod_ne_of_near hlt (by omega)
  rw [HistoryRing.read, Function.update_of_ne hslot]
  exact h p v (hlo.trans hp) hv

/-- Writing the row of the next position. -/
lemma KeptRows.write (h : KeptRows ring capacity rows lo) (hlo : lo ≤ lo')
    (hcap : rows.length < lo' + capacity) (row : χ) :
    KeptRows (ring.write capacity rows.length row) capacity (rows ++ [row]) lo' := by
  intro p v hp hv
  have hlt : p < (rows ++ [row]).length := (List.getElem?_eq_some_iff.mp hv).1
  rw [List.length_append, List.length_singleton] at hlt
  rcases Nat.lt_succ_iff_lt_or_eq.mp hlt with hold | rfl
  · rw [List.getElem?_append_left hold] at hv
    exact h.update hlo hcap _ p v hp hv
  · rw [List.getElem?_concat_length, Option.some.injEq] at hv
    rw [HistoryRing.read_write_self, hv]

/-- Writing the rows of a prompt into an empty cache. -/
lemma keptRows_writeRange (ring : HistoryRing χ) (row : ℕ → χ) {n : ℕ} (hn : n ≤ capacity) :
    KeptRows (ring.writeRange capacity row 0 n) capacity ((List.range n).map row) 0 := by
  induction n with
  | zero =>
    intro p v _ hv
    simp at hv
  | succ n ih =>
    have hnext := (ih (by omega)).write le_rfl
      (by rw [List.length_map, List.length_range]; omega) (row n)
    rw [List.length_map, List.length_range] at hnext
    rw [HistoryRing.writeRange, List.range_succ, List.map_append, Nat.zero_add]
    exact hnext

end Rows

/-! ## Plans -/

/-- The decoder cuts its ranges as the encoder does. -/
lemma decoderKvSegments_eq (absoluteStart len capacity : ℕ) :
    decoderKvSegments absoluteStart len capacity = encKvRingSegments absoluteStart len capacity := by
  unfold decoderKvSegments encKvRingSegments
  dsimp only
  by_cases hle : len ≤ capacity - absoluteStart % capacity
  · rw [min_eq_left hle, if_pos rfl, if_pos le_rfl]
  · have hne : ¬min len (capacity - absoluteStart % capacity) = len := by omega
    have hnle : ¬len ≤ min len (capacity - absoluteStart % capacity) := by omega
    rw [if_neg hne, if_neg hnle]

/-- The plan of an append to a ring that holds `length` rows. -/
lemma StepReady.plan {ctx : DecoderContext χ} {rows : List χ} (h : StepReady ctx rows) {position n : ℕ}
    {plan : DecoderKvPlan} (hplan : decoderKvPlan ctx.kv position n = some plan) :
    0 < n ∧ n ≤ ctx.configuredCapacity ∧ position = rows.length ∧ plan.absoluteStart = rows.length ∧
      plan.nextAfter = rows.length + n ∧
      plan.usedAfter = min ctx.configuredCapacity (rows.length + n) ∧
      plan.oldestAfter = rows.length + n - ctx.configuredCapacity ∧
      plan.writeSeg = encKvRingSegments rows.length n ctx.configuredCapacity ∧
      plan.readSeg =
        encKvRingSegments plan.oldestAfter plan.usedAfter ctx.configuredCapacity := by
  have hcap := h.capacity
  have hnext := h.next
  have hused := h.used
  unfold decoderKvPlan at hplan
  by_cases hguard : ctx.kv.capacity = 0 ∨ ctx.kv.capacity < ctx.kv.used ∨
      ctx.kv.oldestAbsolutePosition + ctx.kv.used ≠ ctx.kv.nextAbsolutePosition ∨
      position ≠ ctx.kv.nextAbsolutePosition ∨ n = 0 ∨ ctx.kv.capacity < n
  · rw [if_pos hguard] at hplan
    cases hplan
  rw [if_neg hguard] at hplan
  obtain rfl := Option.some.inj hplan
  have hposition : position = rows.length := by omega
  have hsum : min ctx.configuredCapacity (ctx.kv.used + n) =
      min ctx.configuredCapacity (rows.length + n) := by omega
  simp only [decoderKvSegments_eq, hcap, hposition, hsum, true_and, and_true]
  omega

/-- An append to the next position has a plan. -/
lemma StepReady.exists_plan {ctx : DecoderContext χ} {rows : List χ} (h : StepReady ctx rows) {n : ℕ}
    (hn : 0 < n) (hcap : n ≤ ctx.configuredCapacity) :
    ∃ plan, decoderKvPlan ctx.kv ctx.kv.nextAbsolutePosition n = some plan := by
  have hcapacity := h.capacity
  have hnext := h.next
  have hused := h.used
  have holdest := h.oldest
  unfold decoderKvPlan
  rw [if_neg (by omega)]
  exact ⟨_, rfl⟩

/-- The dynamic graph reads the slots of the first rows, or all of them. -/
lemma dynamicSlots_eq {plan : DecoderKvPlan} {capacity length : ℕ} (hcap : 0 < capacity)
    (hused : plan.usedAfter = min capacity length) (hlength : 0 < length)
    (holdest : plan.oldestAfter = length - capacity)
    (hread : plan.readSeg = encKvRingSegments plan.oldestAfter plan.usedAfter capacity) :
    dynamicSlots plan capacity = some (List.range plan.usedAfter) := by
  have hslot := Nat.mod_lt plan.oldestAfter hcap
  unfold encKvRingSegments at hread
  dsimp only at hread
  rw [if_neg (by omega)] at hread
  by_cases hroom : plan.usedAfter ≤ capacity - plan.oldestAfter % capacity
  · rw [min_eq_left hroom, if_pos le_rfl] at hread
    have hzero : plan.oldestAfter % capacity = 0 := by
      by_cases hle : length ≤ capacity
      · rw [show plan.oldestAfter = 0 by omega, Nat.zero_mod]
      · omega
    rw [dynamicSlots, hread, hzero]
    dsimp only
    rw [List.range_eq_range']
  · rw [min_eq_right (by omega), if_neg hroom] at hread
    have hfull : plan.usedAfter = capacity := by
      by_contra hne
      have hzero : plan.oldestAfter = 0 := by omega
      rw [hzero, Nat.zero_mod] at hroom
      omega
    rw [dynamicSlots, hread]
    exact if_pos hfull

/-! ## The mask -/

/-- Filling keeps the length of the mask. -/
lemma length_fillStepMask (mask : List MaskEntry) (valid : ℕ) :
    (fillStepMask mask valid).length = mask.length := by
  rw [fillStepMask, List.length_mapIdx, List.length_map]

/-- The growing mask has an entry for every slot. -/
lemma length_growingMask {capacity used : ℕ} (h : used ≤ capacity) :
    (growingMask capacity used).length = capacity := by
  rw [growingMask, List.length_append, List.length_replicate, List.length_replicate]
  omega

/-- The entries of the mask. -/
lemma growingMask_getElem? {capacity used slot : ℕ} :
    (growingMask capacity used)[slot]? = some .zero ↔ slot < used := by
  by_cases hslot : slot < used
  · rw [growingMask, List.getElem?_append_left (by rwa [List.length_replicate]),
      List.getElem?_replicate, if_pos hslot]
    exact iff_of_true rfl hslot
  · rw [growingMask, List.getElem?_append_right (by rw [List.length_replicate]; omega),
      List.getElem?_replicate]
    refine iff_of_false ?_ hslot
    split_ifs <;> simp

/-- The filled mask is the growing mask. -/
lemma fillStepMask_eq {mask : List MaskEntry} {valid : ℕ} (h : valid ≤ mask.length) :
    fillStepMask mask valid = growingMask mask.length valid := by
  refine List.ext_getElem ?_ fun i hi _ => ?_
  · rw [length_fillStepMask, length_growingMask h]
  · rw [length_fillStepMask] at hi
    by_cases hlt : i < valid
    · simp [fillStepMask, growingMask, hlt]
    · simp [fillStepMask, growingMask, hlt, List.getElem_append_right, Nat.le_of_not_lt hlt]

/-! ## Steps -/

/-- The slots a step shows: those below the number of used slots. -/
lemma visible_iff {capacity used slot kvSlot : ℕ} {rows : HistoryRing χ} (hused : used ≤ capacity) :
    (StepAttention.mk kvSlot rows
        (if used = capacity then none else some (growingMask capacity used))).Visible capacity slot ↔
      slot < used := by
  by_cases hfull : used = capacity
  · rw [if_pos hfull, hfull]
    exact ⟨fun h => h.1, fun h => ⟨h, fun mask hmask => by cases hmask⟩⟩
  · rw [if_neg hfull]
    constructor
    · rintro ⟨-, hmask⟩
      exact growingMask_getElem?.mp (hmask _ rfl)
    · intro hslot
      refine ⟨hslot.trans_le hused, fun mask hmask => ?_⟩
      rw [← Option.some.inj hmask]
      exact growingMask_getElem?.mpr hslot

/-- The positions of the window use the slots below the number of used slots, one each. -/
lemma window_bijOn {capacity length : ℕ} (hcap : 0 < capacity) :
    Set.BijOn (· % capacity) (Set.Ico (length - capacity) length)
      {slot | slot < min capacity length} := by
  refine ⟨?_, ?_, ?_⟩
  · rintro p ⟨-, hp⟩
    exact lt_min (Nat.mod_lt p hcap) ((Nat.mod_le p capacity).trans_lt hp)
  · rintro p ⟨hp, hp'⟩ q ⟨hq, hq'⟩ heq
    rcases lt_trichotomy p q with hlt | heq' | hlt
    · exact absurd heq (HistoryRing.mod_ne_of_near hlt (by omega))
    · exact heq'
    · exact absurd heq.symm (HistoryRing.mod_ne_of_near hlt (by omega))
  · intro slot hslot
    have hlt : slot < min capacity length := hslot
    -- the last position of the slot below `length`
    refine ⟨slot + capacity * ((length - 1 - slot) / capacity), ⟨?_, ?_⟩, ?_⟩
    · have hdiv := Nat.div_add_mod (length - 1 - slot) capacity
      have hmod := Nat.mod_lt (length - 1 - slot) hcap
      omega
    · have hdiv := Nat.div_add_mod (length - 1 - slot) capacity
      omega
    · dsimp only
      rw [Nat.add_mul_mod_self_left, Nat.mod_eq_of_lt (by omega)]

/-- A step whose graph has the right mask attends its window. -/
lemma attendsWindow {ring : HistoryRing χ} {capacity : ℕ} {rows : List χ} {plan : DecoderKvPlan}
    (hkept : KeptRows ring capacity rows (rows.length + 1 - capacity)) (hcap : 0 < capacity)
    (hstart : plan.absoluteStart = rows.length) (hnext : plan.nextAfter = rows.length + 1)
    (hused : plan.usedAfter = min capacity (rows.length + 1))
    (holdest : plan.oldestAfter = rows.length + 1 - capacity)
    (hread : plan.readSeg = encKvRingSegments plan.oldestAfter plan.usedAfter capacity) (row : χ) :
    AttendsWindow
      ⟨rows.length % capacity, ring.write capacity rows.length row,
        if plan.usedAfter = capacity then none else some (growingMask capacity plan.usedAfter)⟩
      plan capacity (rows ++ [row]) := by
  have hle : plan.usedAfter ≤ capacity := by omega
  have hholds : KeptRows (ring.write capacity rows.length row) capacity (rows ++ [row])
      (rows.length + 1 - capacity) := hkept.write le_rfl (by omega) row
  refine ⟨?_, ?_, ?_, ?_, ?_, ?_, rfl, ?_⟩
  · rw [hstart]
  · rw [hnext, hstart]
  · rw [List.length_append, List.length_singleton, hnext]
  · refine ⟨row, ?_, ?_⟩
    · rw [hstart, List.getElem?_concat_length]
    · rw [hstart]
      exact HistoryRing.read_write_self ring capacity rows.length row
  · rw [holdest, hnext]
    have hvisible : Set.ofPred (StepAttention.Visible ⟨rows.length % capacity,
        ring.write capacity rows.length row,
        if plan.usedAfter = capacity then none else some (growingMask capacity plan.usedAfter)⟩
        capacity) = {slot | slot < min capacity (rows.length + 1)} := by
      ext slot
      rw [← hused]
      exact visible_iff hle
    rw [hvisible]
    exact window_bijOn hcap
  · rintro p ⟨hp, hp'⟩
    have hlt : p < (rows ++ [row]).length := by
      rw [List.length_append, List.length_singleton]
      omega
    exact ⟨_, List.getElem?_eq_getElem hlt,
      hholds p _ (by omega) (List.getElem?_eq_getElem hlt)⟩
  · refine ⟨_, dynamicSlots_eq hcap hused (Nat.succ_pos _) holdest hread, fun slot => ?_⟩
    rw [List.mem_range]
    exact (visible_iff hle).symm

variable {ctx ctx' : DecoderContext χ} {rows : List χ} {be : StepBackend χ}

/-- Ensuring a graph touches neither the ring nor the cache, and a graph it keeps or builds is of the
requested kind. -/
lemma StepReady.ensureStepGraph (h : StepReady ctx rows) {fullCache ready : Bool}
    (heq : ctx.ensureStepGraph fullCache be = (ctx', ready)) :
    StepReady ctx' rows ∧ ctx'.configuredCapacity = ctx.configuredCapacity ∧ ctx'.kv = ctx.kv ∧
      ctx'.rows = ctx.rows ∧
      (ready = true → ctx'.stepGraphAllocated = true ∧ ctx'.stepGraphFull = fullCache) := by
  unfold DecoderContext.ensureStepGraph at heq
  by_cases hkeep : ctx.stepGraph ∧ ctx.stepGraphAllocated ∧ ctx.stepGraphFull = fullCache
  · rw [if_pos hkeep] at heq
    obtain ⟨rfl, rfl⟩ := Prod.mk.inj heq
    exact ⟨h, rfl, rfl, rfl, fun _ => hkeep.2⟩
  rw [if_neg hkeep] at heq
  by_cases hfails : be.builds = false ∨ be.allocates = false
  · -- without an allocated graph there is no mask to keep
    have hnone : ctx'.stepGraphAllocated = false ∧ ready = false ∧ ctx'.kv = ctx.kv ∧
        ctx'.rows = ctx.rows ∧ ctx'.configuredCapacity = ctx.configuredCapacity := by
      cases hbuilds : be.builds <;> simp only [hbuilds, Bool.not_false, Bool.not_true, if_true,
        Bool.false_eq_true, if_false] at heq hfails
      · obtain ⟨rfl, rfl⟩ := Prod.mk.inj heq
        exact ⟨rfl, rfl, rfl, rfl, rfl⟩
      · rw [hfails.resolve_left (by simp)] at heq
        obtain ⟨rfl, rfl⟩ := Prod.mk.inj heq
        exact ⟨rfl, rfl, rfl, rfl, rfl⟩
    obtain ⟨hallocated, rfl, hkv, hrows, hcap⟩ := hnone
    refine ⟨⟨?_, ?_, ?_, ?_, ?_, ?_⟩, hcap, hkv, hrows, fun hready => by cases hready⟩
    · rw [hkv, hcap]
      exact h.capacity
    · rw [hkv]
      exact h.next
    · rw [hkv, hcap]
      exact h.used
    · rw [hkv, hcap]
      exact h.oldest
    · rw [hrows, hcap]
      exact h.kept
    · intro hallocated'
      rw [hallocated] at hallocated'
      cases hallocated'
  · rw [not_or, Bool.not_eq_false, Bool.not_eq_false] at hfails
    rw [hfails.1, hfails.2] at heq
    obtain ⟨rfl, rfl⟩ := Prod.mk.inj heq
    refine ⟨⟨h.capacity, h.next, h.used, h.oldest, h.kept, fun _ hgrowing => ⟨?_, .inl rfl⟩⟩,
      rfl, rfl, rfl, fun _ => ⟨rfl, rfl⟩⟩
    change fullCache = false at hgrowing
    subst hgrowing
    exact List.length_replicate

/-- After the upload the device has the mask for the given number of slots. -/
lemma StepReady.uploadMask (h : StepReady ctx rows) (hallocated : ctx.stepGraphAllocated = true)
    {valid : ℕ} (hvalid : valid ≤ ctx.configuredCapacity) :
    StepReady (ctx.uploadMask ctx.stepGraphFull valid) rows ∧
      (ctx.stepGraphFull = false →
        (ctx.uploadMask ctx.stepGraphFull valid).kvMask =
          growingMask ctx.configuredCapacity valid) := by
  unfold DecoderContext.uploadMask
  split_ifs with hstale
  · obtain ⟨hlength, -⟩ := h.mask hallocated hstale.1
    have hfill : fillStepMask ctx.stepMask valid = growingMask ctx.configuredCapacity valid := by
      rw [fillStepMask_eq (by omega), hlength]
    refine ⟨⟨h.capacity, h.next, h.used, h.oldest, h.kept, fun _ _ => ⟨?_, .inr ⟨valid, rfl, hfill⟩⟩⟩,
      fun _ => hfill⟩
    exact (length_fillStepMask _ _).trans hlength
  · refine ⟨h, fun hgrowing => ?_⟩
    -- the mask on the device was uploaded for the same number of slots
    have hsame : ctx.stepMaskValid = valid := by
      by_contra hne
      exact hstale ⟨hgrowing, hne⟩
    rcases (h.mask hallocated hgrowing).2 with hnever | ⟨valid', hvalid', hmask⟩
    · omega
    · rw [hmask, show valid' = valid by omega]

/-- An upload of the mask leaves the cache alone. -/
lemma uploadMask_frame (ctx : DecoderContext χ) (fullCache : Bool) (valid : ℕ) :
    (ctx.uploadMask fullCache valid).configuredCapacity = ctx.configuredCapacity ∧
      (ctx.uploadMask fullCache valid).kv = ctx.kv ∧
      (ctx.uploadMask fullCache valid).rows = ctx.rows ∧
      (ctx.uploadMask fullCache valid).stepGraphFull = ctx.stepGraphFull := by
  unfold DecoderContext.uploadMask
  split_ifs <;> exact ⟨rfl, rfl, rfl, rfl⟩

/-- A context is ready after a plan for `n` rows was carried out. -/
lemma StepReady.commit (h : StepReady ctx rows) {plan : DecoderKvPlan} {n : ℕ}
    (hplan : decoderKvPlan ctx.kv rows.length n = some plan) {ring : HistoryRing χ} {more : List χ}
    (hmore : more.length = n)
    (hkept : KeptRows ring ctx.configuredCapacity (rows ++ more)
      (rows.length + n + 1 - ctx.configuredCapacity)) :
    StepReady { ctx with rows := ring, kv := ctx.kv.commitPlan plan } (rows ++ more) := by
  obtain ⟨-, -, -, -, hnext, hused, holdest, -, -⟩ := h.plan hplan
  have hlength : (rows ++ more).length = rows.length + n := by rw [List.length_append, hmore]
  refine ⟨h.capacity, ?_, ?_, ?_, ?_, h.mask⟩
  · exact hnext.trans hlength.symm
  · rw [hlength]
    exact hused
  · rw [hlength]
    exact holdest
  · rw [hlength]
    exact hkept

/-- A submitted step whose graph has the right mask. -/
lemma StepReady.attend (h : StepReady ctx rows) {plan : DecoderKvPlan}
    (hplan : decoderKvPlan ctx.kv rows.length 1 = some plan)
    (hfull : ctx.stepGraphFull = decide (plan.usedAfter = ctx.configuredCapacity))
    (hmask : ctx.stepGraphFull = false →
      ctx.kvMask = growingMask ctx.configuredCapacity plan.usedAfter) (row : χ) :
    let ring := ctx.rows.write ctx.configuredCapacity rows.length row
    StepReady { ctx with rows := ring, kv := ctx.kv.commitPlan plan } (rows ++ [row]) ∧
      AttendsWindow ⟨rows.length % ctx.configuredCapacity, ring,
        if ctx.stepGraphFull then none else some ctx.kvMask⟩ plan ctx.configuredCapacity
        (rows ++ [row]) := by
  intro ring
  obtain ⟨-, hcap, -, hstart, hnext, hused, holdest, -, hread⟩ := h.plan hplan
  have hkept : KeptRows ring ctx.configuredCapacity (rows ++ [row])
      (rows.length + 1 + 1 - ctx.configuredCapacity) := h.kept.write (by omega) (by omega) row
  refine ⟨h.commit hplan List.length_singleton hkept, ?_⟩
  have hshown : (if ctx.stepGraphFull then none else some ctx.kvMask) =
      if plan.usedAfter = ctx.configuredCapacity then none
      else some (growingMask ctx.configuredCapacity plan.usedAfter) := by
    by_cases hall : plan.usedAfter = ctx.configuredCapacity
    · rw [if_pos hall, hfull, decide_eq_true hall, if_pos rfl]
    · have hgrowing : ctx.stepGraphFull = false := by rw [hfull, decide_eq_false hall]
      rw [if_neg hall, hmask hgrowing, hgrowing, if_neg Bool.false_ne_true]
  rw [hshown]
  exact attendsWindow h.kept hcap hstart hnext hused holdest hread row

/-- One step: a failed one keeps the rows the next step reads, and a successful one attends its window. -/
lemma StepReady.runDecoderStep (h : StepReady ctx rows) {position : ℕ} {row : χ}
    {attention : Option (StepAttention χ)}
    (heq : ctx.runDecoderStep position row be = (ctx', attention)) :
    ctx'.configuredCapacity = ctx.configuredCapacity ∧
      (attention = none → StepReady ctx' rows) ∧
      ∀ a, attention = some a → StepReady ctx' (rows ++ [row]) ∧
        ∃ plan, decoderKvPlan ctx.kv position 1 = some plan ∧
          AttendsWindow a plan ctx.configuredCapacity (rows ++ [row]) := by
  unfold DecoderContext.runDecoderStep at heq
  cases hplan : decoderKvPlan ctx.kv position 1 with
  | none =>
    simp only [hplan] at heq
    obtain ⟨rfl, rfl⟩ := Prod.mk.inj heq
    exact ⟨rfl, fun _ => h, fun a ha => by cases ha⟩
  | some plan =>
    obtain ⟨-, hcap, rfl, -, -, hused, -, -, -⟩ := h.plan hplan
    cases hensure : ctx.ensureStepGraph (decide (plan.usedAfter = ctx.configuredCapacity)) be with
    | mk ctx₁ ready =>
      obtain ⟨h₁, hcap₁, hkv₁, hrows₁, hgraph⟩ := h.ensureStepGraph hensure
      simp only [hplan, hensure, hcap₁] at heq
      cases ready with
      | false =>
        obtain ⟨rfl, rfl⟩ := Prod.mk.inj heq
        exact ⟨hcap₁, fun _ => h₁, fun a ha => by cases ha⟩
      | true =>
        obtain ⟨hallocated, hfull⟩ := hgraph rfl
        have hle : plan.usedAfter ≤ ctx₁.configuredCapacity := by omega
        obtain ⟨h₂, hmask⟩ := h₁.uploadMask hallocated hle
        obtain ⟨hcap₂, hkv₂, -, hfull₂⟩ := uploadMask_frame ctx₁ ctx₁.stepGraphFull plan.usedAfter
        rw [← hfull] at heq
        generalize ctx₁.uploadMask ctx₁.stepGraphFull plan.usedAfter = ctx₂ at *
        rw [hcap₁] at hcap₂
        cases hexecutes : be.executes with
        | false =>
          simp only [hexecutes, Bool.not_true, Bool.not_false, if_true, Bool.false_eq_true,
            if_false] at heq
          obtain ⟨rfl, rfl⟩ := Prod.mk.inj heq
          refine ⟨hcap₂, fun _ => ⟨h₂.capacity, h₂.next, h₂.used, h₂.oldest, ?_, h₂.mask⟩,
            fun a ha => by cases ha⟩
          rw [← hcap₂]
          exact h₂.kept.update le_rfl (by omega) be.torn
        | true =>
          simp only [hexecutes, Bool.not_true, Bool.false_eq_true, if_false] at heq
          obtain ⟨rfl, rfl⟩ := Prod.mk.inj heq
          refine ⟨hcap₂, (by intro hnone; cases hnone), fun a ha => ?_⟩
          have hplan₂ : decoderKvPlan ctx₂.kv rows.length 1 = some plan := by
            rw [hkv₂, hkv₁]
            exact hplan
          obtain ⟨hready, hattends⟩ := h₂.attend hplan₂ (by rw [hfull₂, hfull, hcap₂])
            (fun hgrowing => by rw [hmask (by rw [← hfull₂, hgrowing]), hcap₁, hcap₂]) row
          rw [← Option.some.inj ha, ← hcap₂]
          exact ⟨hready, plan, rfl, hattends⟩

/-- A prefill of an empty cache. -/
lemma StepReady.runDecoderPrefill (h : StepReady ctx rows) (hempty : ctx.kv.used = 0) {n : ℕ}
    {row : ℕ → χ} {torn : Option (HistoryRing χ)} {ok : Bool}
    (heq : ctx.runDecoderPrefill n row torn = (ctx', ok)) :
    ctx'.configuredCapacity = ctx.configuredCapacity ∧
      (ok = false → StepReady ctx' rows) ∧
      (ok = true → StepReady ctx' (rows ++ (List.range n).map row)) := by
  unfold DecoderContext.runDecoderPrefill at heq
  by_cases hlong : decWindow < n
  · rw [if_pos hlong] at heq
    obtain ⟨rfl, rfl⟩ := Prod.mk.inj heq
    exact ⟨rfl, fun _ => h, fun hok => by cases hok⟩
  rw [if_neg hlong] at heq
  cases hplan : decoderKvPlan ctx.kv ctx.kv.nextAbsolutePosition n with
  | none =>
    simp only [hplan] at heq
    obtain ⟨rfl, rfl⟩ := Prod.mk.inj heq
    exact ⟨rfl, fun _ => h, fun hok => by cases hok⟩
  | some plan =>
    obtain ⟨hpos, hle, hnext, hstart, -, -, -, hwrite, -⟩ := h.plan hplan
    have hused := h.used
    obtain rfl : rows = [] := List.length_eq_zero_iff.mp (by omega)
    rw [hnext] at hplan
    simp only [hnext, hplan] at heq
    cases torn with
    | some ring =>
      obtain ⟨rfl, rfl⟩ := Prod.mk.inj heq
      refine ⟨rfl, fun _ => ⟨h.capacity, h.next, h.used, h.oldest, ?_, h.mask⟩,
        fun hok => by cases hok⟩
      intro p v _ hv
      simp at hv
    | none =>
      obtain ⟨rfl, rfl⟩ := Prod.mk.inj heq
      refine ⟨rfl, (by intro hfalse; cases hfalse), fun _ => ?_⟩
      refine h.commit hplan (by rw [List.length_map, List.length_range]) ?_
      have hcolumns : ∀ i, i < n → (⟨0 + (0 + i), row (0 + i)⟩ : RingRow χ) = ⟨0 + i, row (0 + i)⟩ :=
        fun i _ => by rw [Nat.zero_add (0 + i)]
      rw [hwrite, hstart, List.length_nil, List.nil_append,
        writeKvColumns_eq ctx.rows (by omega) hle hcolumns]
      exact (keptRows_writeRange ctx.rows row hle).mono (Nat.zero_le _)

/-! ## Whole runs -/

/-- One call keeps the context ready. -/
lemma StepReady.call (h : StepReady ctx rows) {call : DecoderCall χ} {answer : DecoderAnswer χ}
    (heq : ctx.call call = some (ctx', answer)) :
    ctx'.configuredCapacity = ctx.configuredCapacity ∧
      StepReady ctx' (appendRows rows (call, answer)) := by
  cases call with
  | clear =>
    obtain ⟨rfl, rfl⟩ := Prod.mk.inj (Option.some.inj heq)
    refine ⟨rfl, rfl, rfl, (Nat.min_zero _).symm, (Nat.zero_sub _).symm, ?_, ?_⟩
    · intro p v _ hv
      cases hv
    · intro hallocated hgrowing
      exact ⟨(h.mask hallocated hgrowing).1, .inl rfl⟩
  | prefill n row torn =>
    rw [DecoderContext.call] at heq
    by_cases hempty : ctx.kv.used = 0
    · rw [if_pos hempty] at heq
      cases hprefill : ctx.runDecoderPrefill n row torn with
      | mk ctx₁ ok =>
        rw [hprefill] at heq
        obtain ⟨rfl, rfl⟩ := Prod.mk.inj (Option.some.inj heq)
        obtain ⟨hcap, hfailed, hdone⟩ := h.runDecoderPrefill hempty hprefill
        refine ⟨hcap, ?_⟩
        cases ok with
        | false => exact hfailed rfl
        | true => exact hdone rfl
    · rw [if_neg hempty] at heq
      cases heq
  | step position row be =>
    rw [DecoderContext.call] at heq
    cases hrun : ctx.runDecoderStep position row be with
    | mk ctx₁ attention =>
      rw [hrun] at heq
      obtain ⟨rfl, rfl⟩ := Prod.mk.inj (Option.some.inj heq)
      obtain ⟨hcap, hfailed, hdone⟩ := h.runDecoderStep hrun
      refine ⟨hcap, ?_⟩
      cases attention with
      | none => exact hfailed rfl
      | some a => exact (hdone a rfl).1

/-- The context is ready after every run. -/
lemma stepReady_of_run {capacity : ℕ} {rows₀ : HistoryRing χ} {calls : List (DecoderCall χ)}
    {answers : List (DecoderAnswer χ)}
    (hrun : runSteps DecoderContext.call (.create capacity rows₀) calls = some (ctx, answers)) :
    ctx.configuredCapacity = capacity ∧ StepReady ctx (appendedRows calls answers) := by
  have hall := runSteps_induction
    (P := fun (ctx : DecoderContext χ) calls answers => calls.length = answers.length ∧
      ctx.configuredCapacity = capacity ∧ StepReady ctx (appendedRows calls answers))
    (fun ctx calls answers call ctx' answer hP hstep => ?_) ⟨rfl, rfl, ?_⟩ hrun
  · exact hall.2
  · obtain ⟨hlength, hcap, hready⟩ := hP
    obtain ⟨hcap', hready'⟩ := hready.call hstep
    refine ⟨?_, hcap'.trans hcap, ?_⟩
    · rw [List.length_append, List.length_append, hlength]
      rfl
    · rw [appendedRows, List.zip_append hlength, List.foldl_append]
      exact hready'
  · refine ⟨rfl, rfl, (Nat.min_zero _).symm, (Nat.zero_sub _).symm, ?_, ?_⟩
    · intro p v _ hv
      cases hv
    · intro hallocated
      cases hallocated

/-- A step at the next position, on a backend that works, runs. -/
lemma StepReady.step_runs (h : StepReady ctx rows) (hcap : 0 < ctx.configuredCapacity) (row : χ)
    (hbuilds : be.builds = true) (hallocates : be.allocates = true) (hexecutes : be.executes = true) :
    ∃ ctx' attention, ctx.runDecoderStep rows.length row be = (ctx', some attention) := by
  obtain ⟨plan, hplan⟩ := h.exists_plan Nat.one_pos hcap
  rw [h.next] at hplan
  have hready : ∀ full, (ctx.ensureStepGraph full be).2 = true := by
    intro full
    unfold DecoderContext.ensureStepGraph
    simp only [hbuilds, hallocates, Bool.not_true, Bool.false_eq_true, if_false]
    split_ifs <;> rfl
  unfold DecoderContext.runDecoderStep
  simp only [hplan, hready, hexecutes, Bool.not_true, Bool.false_eq_true, if_false]
  exact ⟨_, _, rfl⟩

/-- In every run of clears, prefills and steps, whatever fails in it and whatever memory the backend
hands out, every step attends exactly its logical window; and a prefill that fits an empty cache and
every step at the next position run if the backend works. -/
theorem decoder_step_attends_window {capacity : ℕ} {rows₀ : HistoryRing χ}
    {calls : List (DecoderCall χ)} {answers : List (DecoderAnswer χ)}
    (hrun : runSteps DecoderContext.call (.create capacity rows₀) calls = some (ctx, answers)) :
    (∀ position row be ctx' attention,
      ctx.runDecoderStep position row be = (ctx', some attention) →
        ∃ plan, decoderKvPlan ctx.kv position 1 = some plan ∧
          AttendsWindow attention plan capacity (appendedRows calls answers ++ [row])) ∧
      (∀ n row, ctx.kv.used = 0 → 0 < n → n ≤ capacity → n ≤ decWindow →
        ∃ ctx', ctx.runDecoderPrefill n row none = (ctx', true)) ∧
      ∀ row be, 0 < capacity → be.builds = true → be.allocates = true → be.executes = true →
        ∃ ctx' attention,
          ctx.runDecoderStep (appendedRows calls answers).length row be = (ctx', some attention) := by
  obtain ⟨rfl, hready⟩ := stepReady_of_run hrun
  refine ⟨?_, ?_, ?_⟩
  · intro position row be ctx' attention heq
    obtain ⟨-, -, hattends⟩ := hready.runDecoderStep heq
    exact (hattends attention rfl).2
  · intro n row hempty hn hcap hwindow
    obtain ⟨plan, hplan⟩ := hready.exists_plan hn hcap
    unfold DecoderContext.runDecoderPrefill
    rw [if_neg (not_lt.mpr hwindow)]
    simp only [hplan]
    exact ⟨_, rfl⟩
  · intro row be hcap hbuilds hallocates hexecutes
    exact hready.step_runs hcap row hbuilds hallocates hexecutes

/-- A backend that works, and one whose graph fails when it is submitted. -/
def exampleBackend (executes : Bool) : StepBackend ℕ :=
  ⟨true, true, [.zero, .zero, .zero], executes, ⟨0, 0⟩⟩

/-- A prompt of one token and steps until the cache has wrapped, one of them submitted twice; then the
cache is cleared and grows again. -/
def exampleDecoderCalls : List (DecoderCall ℕ) :=
  [.prefill 1 (fun i => 10 + i) none, .step 1 11 (exampleBackend false),
    .step 1 11 (exampleBackend true), .step 2 12 (exampleBackend true),
    .step 3 13 (exampleBackend true), .clear, .prefill 1 (fun i => 20 + i) none]

/-- Behind a clear the window holds the row of the prefill only, and the slots of the older steps are masked. -/
theorem decoder_step_attends_window_cleared :
    ∃ ctx answers ctx' attention plan,
      runSteps DecoderContext.call (.create 3 fun _ => ⟨7, 0⟩) exampleDecoderCalls =
          some (ctx, answers) ∧
        appendedRows exampleDecoderCalls answers = [20] ∧
        ctx.runDecoderStep 1 21 (exampleBackend true) = (ctx', some attention) ∧
        attention.mask = some [.zero, .zero, .negInf] ∧
        AttendsWindow attention plan 3 [20, 21] := by
  obtain ⟨ctx, answers, ctx', attention, hrun, happended, hstep, hmask⟩ :
      ∃ ctx answers ctx' attention,
        runSteps DecoderContext.call (.create 3 fun _ => ⟨7, 0⟩) exampleDecoderCalls =
            some (ctx, answers) ∧
          appendedRows exampleDecoderCalls answers = [20] ∧
          ctx.runDecoderStep 1 21 (exampleBackend true) = (ctx', some attention) ∧
          attention.mask = some [.zero, .zero, .negInf] := ⟨_, _, _, _, rfl, rfl, rfl, rfl⟩
  obtain ⟨plan, -, hattends⟩ := (decoder_step_attends_window hrun).1 _ _ _ _ _ hstep
  rw [happended] at hattends
  exact ⟨ctx, answers, ctx', attention, plan, hrun, happended, hstep, hmask, hattends⟩

end Voxtral
