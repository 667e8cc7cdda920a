import Voxtral.Stream.Delivery
import Voxtral.Stream.EncoderRing

/-!
# The finish-only reference

`run_adapter_and_decode_realtime` of `voxtral.cpp` runs the adapter over all encoder rows of an
utterance, prefills the prompt and decodes one position after the other.  It computes the outputs of
the decoder up to the first end of the stream (`audioOutputs`).  A stream collects the same outputs one
by one (`decodeN`).
-/

namespace Voxtral

variable {α φ ε γ κ : Type*}

/-! ## The reference -/

/-- `run_adapter`: the embedding of every complete group of encoder rows. -/
def runAdapter (eng : Engine α φ ε γ κ) (rows : List ε) : List γ :=
  (List.range (rows.length / downsampleFactor)).map fun group =>
    eng.adapterGroup ((rows.drop (downsampleFactor * group)).take downsampleFactor)

/-- `voxtral_result`, without the logits of the first step. -/
structure VoxtralResult where
  tokens : List ℤ
  text : Bytes

/-- `run_decoder_step` at the audio position `pos`. -/
def runDecoderStep (eng : Engine α φ ε γ κ) (embeddings : List γ) (kv : κ) (token : ℤ) (pos : ℕ) :
    Option (ℤ × κ) :=
  embeddings[pos]?.map (eng.decoderStep kv token pos)

/-- At most `fuel` iterations of the decoding loop. -/
def decodeLoop (eng : Engine α φ ε γ κ) (embeddings : List γ) (maxTokens : ℤ) :
    ℕ → κ → ℤ → ℕ → List ℤ → Option (List ℤ)
  | 0, _, _, _, tokens => some tokens
  | fuel + 1, kv, token, pos, tokens =>
    if pos < embeddings.length ∧ (maxTokens ≤ 0 ∨ (tokens.length : ℤ) < maxTokens) then
      if token = tokenEos then some tokens
      else
        (runDecoderStep eng embeddings kv token pos).bind fun out =>
          decodeLoop eng embeddings maxTokens fuel out.2 out.1 (pos + 1) (tokens ++ [out.1])
    else some tokens

/-- Remove a trailing end of the stream. -/
def popEos (tokens : List ℤ) : List ℤ :=
  if tokens.getLast? = some tokenEos then tokens.dropLast else tokens

/-- `run_adapter_and_decode_realtime`, when no graph fails. -/
def runAdapterAndDecodeRealtime (eng : Engine α φ ε γ κ) (rows : List ε) (maxTokens : ℤ) :
    Option VoxtralResult :=
  let embeddings := runAdapter eng rows
  let nAudio := embeddings.length
  if nAudio < promptLength then none
  else
    let kv := eng.prefill (promptIds.take (promptLength - 1)) (embeddings.take (promptLength - 1))
    (runDecoderStep eng embeddings kv (promptIds.getD (promptLength - 1) 0)
        (promptLength - 1)).bind fun first =>
      (decodeLoop eng embeddings maxTokens (nAudio - promptLength) first.2 first.1 promptLength
          [first.1]).map fun tokens =>
        ⟨popEos tokens, decodeTokens eng.tokenizer (popEos tokens)⟩

/-! ## The outputs of the decoder -/

/-- The outputs at the `n` positions from `pos` on, up to and including the first end of the stream;
`emb` gives the audio embedding of a position. -/
def decoderOutputs (eng : Engine α φ ε γ κ) (emb : ℕ → γ) : ℕ → κ → ℤ → ℕ → List ℤ
  | 0, _, _, _ => []
  | n + 1, kv, token, pos =>
    let out := eng.decoderStep kv token pos (emb pos)
    out.1 :: if out.1 = tokenEos then [] else decoderOutputs eng emb n out.2 out.1 (pos + 1)

/-- The decoder state after the prompt. -/
def promptState (eng : Engine α φ ε γ κ) (emb : ℕ → γ) : κ :=
  eng.prefill (promptIds.take (promptLength - 1)) ((List.range (promptLength - 1)).map emb)

/-- The outputs at the positions 38, 39, … below `groups`, up to and including the first end of the
stream. -/
def audioOutputs (eng : Engine α φ ε γ κ) (emb : ℕ → γ) (groups : ℕ) : List ℤ :=
  decoderOutputs eng emb (groups - firstPosition) (promptState eng emb) lastPromptToken firstPosition

section Outputs

variable {eng : Engine α φ ε γ κ} {emb : ℕ → γ}

variable (eng) (emb) in
/-- Only the last output can be the end. -/
lemma decoderOutputs_ended (n : ℕ) (kv : κ) (token : ℤ) (pos : ℕ) :
    (∀ t ∈ decoderOutputs eng emb n kv token pos, t ≠ tokenEos) ∨
      ∃ before, decoderOutputs eng emb n kv token pos = before ++ [tokenEos] ∧
        ∀ t ∈ before, t ≠ tokenEos := by
  induction n generalizing kv token pos with
  | zero => exact Or.inl (by simp [decoderOutputs])
  | succ n ih =>
    rw [decoderOutputs]
    split_ifs with heos
    · exact Or.inr ⟨[], by rw [heos, List.nil_append], by simp⟩
    · rcases ih (eng.decoderStep kv token pos (emb pos)).2
        (eng.decoderStep kv token pos (emb pos)).1 (pos + 1) with hall | ⟨before, heq, hall⟩
      · exact Or.inl (List.forall_mem_cons.mpr ⟨heos, hall⟩)
      · refine Or.inr ⟨_ :: before, ?_, List.forall_mem_cons.mpr ⟨heos, hall⟩⟩
        rw [heq, List.cons_append]

/-- Popping the end leaves the tokens that are not the end. -/
lemma popEos_decoderOutputs (n : ℕ) (kv : κ) (token : ℤ) (pos : ℕ) :
    popEos (decoderOutputs eng emb n kv token pos) =
      (decoderOutputs eng emb n kv token pos).filter fun t => t ≠ tokenEos := by
  rcases decoderOutputs_ended eng emb n kv token pos with
    hall | ⟨before, heq, hall⟩
  · have hlast : (decoderOutputs eng emb n kv token pos).getLast? ≠ some tokenEos :=
      fun hlast => hall _ (List.mem_of_getLast? hlast) rfl
    rw [popEos, if_neg hlast, List.filter_eq_self.mpr fun t ht => decide_eq_true (hall t ht)]
  · rw [heq, popEos, List.getLast?_concat, if_pos rfl, List.dropLast_concat, List.filter_append,
      List.filter_eq_self.mpr fun t ht => decide_eq_true (hall t ht)]
    simp

/-- The decoding loop without a token limit appends the outputs. -/
lemma decodeLoop_eq {groups : ℕ} (fuel : ℕ) {kv : κ} {token : ℤ} {pos : ℕ} (tokens : List ℤ)
    (hlive : token ≠ tokenEos) (hfuel : pos + fuel = groups) :
    decodeLoop eng ((List.range groups).map emb) 0 fuel kv token pos tokens =
      some (tokens ++ decoderOutputs eng emb fuel kv token pos) := by
  induction fuel generalizing kv token pos tokens with
  | zero => rw [decodeLoop, decoderOutputs, List.append_nil]
  | succ fuel ih =>
    have hpos : pos < groups := by omega
    have hread : ((List.range groups).map emb)[pos]? = some (emb pos) := by
      rw [List.getElem?_map, List.getElem?_range hpos, Option.map_some]
    rw [decodeLoop, List.length_map, List.length_range, if_pos ⟨hpos, Or.inl (le_refl 0)⟩,
      if_neg hlive, runDecoderStep, hread, Option.map_some, Option.bind_some, decoderOutputs]
    split_ifs with heos
    · -- the next iteration leaves the loop at the end of the stream
      cases fuel with
      | zero => rw [decodeLoop]
      | succ fuel =>
        rw [decodeLoop, if_pos heos]
        split_ifs <;> rfl
    · rw [ih (tokens ++ [_]) heos (by omega), List.append_assoc, List.singleton_append]

/-- The reference without a token limit returns the outputs, without the end, and their text. -/
theorem runAdapterAndDecodeRealtime_eq {rows : List ε} {groups : ℕ}
    (hrows : runAdapter eng rows = (List.range groups).map emb) (hgroups : promptLength ≤ groups) :
    runAdapterAndDecodeRealtime eng rows 0 =
      some ⟨(audioOutputs eng emb groups).filter fun t => t ≠ tokenEos,
        decodeTokens eng.tokenizer ((audioOutputs eng emb groups).filter fun t => t ≠ tokenEos)⟩ := by
  obtain ⟨n, rfl⟩ := Nat.exists_eq_add_of_le hgroups
  have hread : ((List.range (promptLength + n)).map emb)[promptLength - 1]? =
      some (emb (promptLength - 1)) := by
    rw [List.getElem?_map, List.getElem?_range (by simp only [promptLength]; omega),
      Option.map_some]
  have htake : ((List.range (promptLength + n)).map emb).take (promptLength - 1) =
      (List.range (promptLength - 1)).map emb := by
    rw [← List.map_take, List.take_range, Nat.min_eq_left (by simp only [promptLength]; omega)]
  have hcount : promptLength + n - firstPosition = n + 1 := by
    simp only [firstPosition, promptLength]
    omega
  have hout : audioOutputs eng emb (promptLength + n) =
      decoderOutputs eng emb (n + 1) (promptState eng emb) lastPromptToken firstPosition := by
    rw [audioOutputs, hcount]
  simp only [runAdapterAndDecodeRealtime, hrows, List.length_map, List.length_range]
  rw [if_neg (Nat.not_lt.mpr hgroups), runDecoderStep, hread, htake, Option.map_some,
    Option.bind_some, Nat.add_sub_cancel_left, hout, ← popEos_decoderOutputs]
  suffices hloop : decodeLoop eng ((List.range (promptLength + n)).map emb) 0 n
      (eng.decoderStep (promptState eng emb) lastPromptToken firstPosition (emb firstPosition)).2
      (eng.decoderStep (promptState eng emb) lastPromptToken firstPosition (emb firstPosition)).1
      promptLength
      [(eng.decoderStep (promptState eng emb) lastPromptToken firstPosition
        (emb firstPosition)).1] =
      some (decoderOutputs eng emb (n + 1) (promptState eng emb) lastPromptToken firstPosition) by
    exact congrArg (Option.map fun tokens => (⟨popEos tokens, decodeTokens eng.tokenizer
      (popEos tokens)⟩ : VoxtralResult)) hloop
  rw [decoderOutputs]
  split_ifs with heos
  · cases n with
    | zero => rw [decodeLoop]
    | succ n =>
      rw [decodeLoop, if_pos heos]
      split_ifs <;> rfl
  · exact decodeLoop_eq n _ heos rfl

end Outputs

/-! ## Outputs collected one by one -/

/-- The decoder state and the outputs after `n` steps from position 38 on. -/
def decodeN (eng : Engine α φ ε γ κ) (emb : ℕ → γ) : ℕ → κ × List ℤ
  | 0 => (promptState eng emb, [])
  | n + 1 =>
    let p := decodeN eng emb n
    let out := eng.decoderStep p.1 (p.2.getLastD lastPromptToken) (firstPosition + n)
      (emb (firstPosition + n))
    (out.2, p.2 ++ [out.1])

section Collect

variable {eng : Engine α φ ε γ κ} {emb emb' : ℕ → γ}

/-- The first steps depend on the embeddings of their positions only. -/
lemma decodeN_congr {n : ℕ} (h : ∀ p < firstPosition + n, emb p = emb' p) :
    decodeN eng emb n = decodeN eng emb' n := by
  induction n with
  | zero =>
    have hprompt : (List.range (promptLength - 1)).map emb =
        (List.range (promptLength - 1)).map emb' :=
      List.map_congr_left fun p hp => h p (List.mem_range.mp hp)
    rw [decodeN, decodeN, promptState, promptState, hprompt]
  | succ n ih =>
    rw [decodeN, decodeN, ih fun p hp => h p (by omega), h (firstPosition + n) (by omega)]

/-- The outputs of `n + m` positions are the first `n`, followed by the outputs from there on, as long
as the end is not among the first. -/
lemma decodeN_outputs (n m : ℕ) (hlive : ∀ t ∈ (decodeN eng emb n).2, t ≠ tokenEos) :
    audioOutputs eng emb (firstPosition + (n + m)) = (decodeN eng emb n).2 ++
      decoderOutputs eng emb m (decodeN eng emb n).1
        ((decodeN eng emb n).2.getLastD lastPromptToken) (firstPosition + n) := by
  induction n generalizing m with
  | zero =>
    rw [audioOutputs, Nat.add_sub_cancel_left, decodeN, Nat.zero_add, List.nil_append]
    rfl
  | succ n ih =>
    have hsplit : n + 1 + m = n + (m + 1) := by omega
    rw [decodeN] at hlive ⊢
    have hbefore := fun t ht => hlive t (List.mem_append_left _ ht)
    have hlast := hlive _ (List.mem_append_right _ (List.mem_singleton_self _))
    rw [hsplit, ih (m + 1) hbefore, decoderOutputs, if_neg hlast, List.append_assoc,
      List.getLastD_concat, List.singleton_append, Nat.add_assoc]

/-- Once the end is the last of the first `n` outputs, they are all outputs. -/
lemma decodeN_outputs_ended {n : ℕ} (m : ℕ) {before : List ℤ}
    (hend : (decodeN eng emb n).2 = before ++ [tokenEos]) (hlive : ∀ t ∈ before, t ≠ tokenEos) :
    audioOutputs eng emb (firstPosition + (n + m)) = before ++ [tokenEos] := by
  cases n with
  | zero => exact absurd hend (by simp [decodeN])
  | succ n =>
    obtain ⟨hbefore, hlast⟩ := List.append_inj' hend rfl
    have hout := List.singleton_injective hlast
    have hsplit : n + 1 + m = n + (m + 1) := by omega
    rw [hsplit, decodeN_outputs n (m + 1) (by rw [hbefore]; exact hlive), decoderOutputs,
      if_pos hout, hout, hbefore]

/-- The outputs after all positions, or after the end. -/
lemma audioOutputs_of_decodeN {n groups : ℕ} {kv : κ} {tokens : List ℤ}
    (h : decodeN eng emb n = (kv, tokens)) (hle : firstPosition + n ≤ groups)
    (hdone : (firstPosition + n = groups ∧ ∀ t ∈ tokens, t ≠ tokenEos) ∨
      ∃ before, tokens = before ++ [tokenEos] ∧ ∀ t ∈ before, t ≠ tokenEos) :
    audioOutputs eng emb groups = tokens := by
  have htokens : (decodeN eng emb n).2 = tokens := by rw [h]
  rcases hdone with ⟨rfl, hlive⟩ | ⟨before, hend, hlive⟩
  · have hall := decodeN_outputs n 0 (by rw [htokens]; exact hlive)
    rw [Nat.add_zero, htokens] at hall
    rw [hall, decoderOutputs, List.append_nil]
  · obtain ⟨m, rfl⟩ := Nat.exists_eq_add_of_le hle
    rw [Nat.add_assoc, decodeN_outputs_ended m (htokens.trans hend) hlive, hend]

end Collect

end Voxtral
