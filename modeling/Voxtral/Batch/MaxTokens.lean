import Voxtral.Stream.TokenLimit

/-!
# The token limit of the three decoding loops

`max_tokens = k > 0` limits the stream (`pump_incremental`), the decoding of a whole realtime utterance
(`run_adapter_and_decode_realtime`) and that of an offline window (`transcribe_offline_window`).  The first
two return the longest prefix without the end among the first `k` outputs.  The third counts its steps, of
which the prefill is none: the token of the prefill and `k` more are returned.
-/

namespace Voxtral

variable {α φ ε γ κ σ : Type*}

/-! ## A realtime utterance -/

section Realtime

variable {eng : Engine α φ ε γ κ} {emb : ℕ → γ} {k : ℕ}

/-- Output number `i` of a decoder that steps through all positions. -/
def outputAt (eng : Engine α φ ε γ κ) (emb : ℕ → γ) (i : ℕ) : ℤ :=
  (decodeN eng emb (i + 1)).2.getLastD lastPromptToken

variable (eng) (emb) in
/-- An output is that of the decoder step on the state and the token before it. -/
lemma outputAt_eq (i : ℕ) : outputAt eng emb i =
    (eng.decoderStep (decodeN eng emb i).1 ((decodeN eng emb i).2.getLastD lastPromptToken)
      (firstPosition + i) (emb (firstPosition + i))).1 := by
  unfold outputAt
  rw [decodeN, List.getLastD_concat]

/-- Outputs that end with the end of the stream, or are as many as wanted, leave the capped ones. -/
lemma popEos_range {out : ℕ → ℤ} {i n : ℕ} (hlive : ∀ m < i, out m ≠ tokenEos)
    (hstop : (out i = tokenEos ∧ i < n) ∨ i + 1 = n) :
    popEos ((List.range (i + 1)).map out) = cappedTokens out n := by
  have hbefore : ∀ t ∈ (List.range i).map out, t ≠ tokenEos := by
    intro t ht
    obtain ⟨m, hm, rfl⟩ := List.mem_map.mp ht
    exact hlive m (List.mem_range.mp hm)
  have hsplit : (List.range (i + 1)).map out = (List.range i).map out ++ [out i] := by
    rw [List.range_succ, List.map_append, List.map_singleton]
  have hlen : ((List.range i).map out).length = i := by rw [List.length_map, List.length_range]
  by_cases heos : out i = tokenEos
  · have hlt : i < n := by omega
    have hstart : StartsWith out ((List.range i).map out ++ [tokenEos]) := by
      unfold StartsWith
      rw [List.length_append, hlen, List.length_singleton, hsplit, heos]
    rw [hsplit, heos, popEos, List.getLast?_concat, if_pos rfl, List.dropLast_concat]
    exact (cappedTokens_of_ended hstart hbefore (by rwa [hlen])).symm
  · have hn : i + 1 = n := hstop.resolve_left fun h => heos h.1
    have hall : ∀ t ∈ (List.range (i + 1)).map out, t ≠ tokenEos := by
      rw [hsplit]
      intro t ht
      rcases List.mem_append.mp ht with ht | ht
      · exact hbefore t ht
      · rw [List.mem_singleton.mp ht]
        exact heos
    have hlast : ((List.range (i + 1)).map out).getLast? ≠ some tokenEos :=
      fun hlast => hall _ (List.mem_of_getLast? hlast) rfl
    have hstart : StartsWith out ((List.range (i + 1)).map out) := by
      unfold StartsWith
      rw [List.length_map, List.length_range]
    have hcapped := cappedTokens_of_live hstart hall
    rw [List.length_map, List.length_range, hn] at hcapped
    rw [popEos, if_neg hlast, hcapped, hn]

variable (eng) (emb) in
/-- The decoding loop behind output number `i`. -/
lemma decodeLoop_capped {groups : ℕ} (hk : 0 < k) (fuel i : ℕ) (hlive : ∀ m < i, outputAt eng emb m ≠ tokenEos)
    (hi : i < k) (hfuel : firstPosition + (i + 1) + fuel = groups) :
    ∃ tokens, decodeLoop eng ((List.range groups).map emb) k fuel (decodeN eng emb (i + 1)).1
        (outputAt eng emb i) (firstPosition + (i + 1)) ((List.range (i + 1)).map (outputAt eng emb)) =
          some tokens ∧
      popEos tokens = cappedTokens (outputAt eng emb) (min k (groups - firstPosition)) := by
  induction fuel generalizing i with
  | zero =>
    refine ⟨_, rfl, popEos_range hlive ?_⟩
    by_cases heos : outputAt eng emb i = tokenEos
    · exact Or.inl ⟨heos, by omega⟩
    · exact Or.inr (by omega)
  | succ fuel ih =>
    rw [decodeLoop, List.length_map, List.length_range, List.length_map, List.length_range]
    by_cases hmore : i + 1 < k
    · have hpos : firstPosition + (i + 1) < groups := by omega
      have hread : ((List.range groups).map emb)[firstPosition + (i + 1)]? =
          some (emb (firstPosition + (i + 1))) := by
        rw [List.getElem?_map, List.getElem?_range hpos, Option.map_some]
      rw [if_pos ⟨hpos, Or.inr (by exact_mod_cast hmore)⟩]
      by_cases heos : outputAt eng emb i = tokenEos
      · rw [if_pos heos]
        exact ⟨_, rfl, popEos_range hlive (Or.inl ⟨heos, by omega⟩)⟩
      · have hlive' : ∀ m < i + 1, outputAt eng emb m ≠ tokenEos := by
          intro m hm
          rcases Nat.lt_succ_iff_lt_or_eq.mp hm with hlt | rfl
          · exact hlive m hlt
          · exact heos
        have hnext := ih (i + 1) hlive' hmore (by omega)
        have hlast : (decodeN eng emb (i + 1)).2.getLastD lastPromptToken = outputAt eng emb i := rfl
        have hstate : (decodeN eng emb (i + 1 + 1)).1 = (eng.decoderStep (decodeN eng emb (i + 1)).1
            (outputAt eng emb i) (firstPosition + (i + 1)) (emb (firstPosition + (i + 1)))).2 := by
          rw [decodeN, hlast]
        have hout := outputAt_eq eng emb (i + 1)
        rw [hlast] at hout
        rw [hstate, hout, List.range_succ, List.map_append, List.map_singleton, hout] at hnext
        rw [if_neg heos, runDecoderStep, hread, Option.map_some, Option.bind_some]
        exact hnext
    · have hfull : ¬ (firstPosition + (i + 1) < groups ∧ ((k : ℤ) ≤ 0 ∨ ((i + 1 : ℕ) : ℤ) < k)) := by
        omega
      rw [if_neg hfull]
      exact ⟨_, rfl, popEos_range hlive (Or.inr (by omega))⟩

/-- The embedding of a group of encoder rows. -/
def rowEmbedding (eng : Engine α φ ε γ κ) (rows : List ε) (group : ℕ) : γ :=
  eng.adapterGroup ((rows.drop (downsampleFactor * group)).take downsampleFactor)

/-- An utterance with a token limit returns the longest prefix without the end among the outputs, as many
of them as the limit and the positions allow. -/
theorem realtime_tokens_capped (hk : 0 < k) {rows : List ε} {r : VoxtralResult}
    (h : runAdapterAndDecodeRealtime eng rows k = some r) :
    r.tokens = cappedTokens (outputAt eng (rowEmbedding eng rows))
      (min k (rows.length / downsampleFactor - firstPosition)) := by
  have hrows : runAdapter eng rows =
      (List.range (rows.length / downsampleFactor)).map (rowEmbedding eng rows) := rfl
  generalize rowEmbedding eng rows = emb at hrows ⊢
  generalize rows.length / downsampleFactor = groups at hrows ⊢
  simp only [runAdapterAndDecodeRealtime, hrows, List.length_map, List.length_range] at h
  split_ifs at h with hfew
  have hgroups : promptLength ≤ groups := not_lt.mp hfew
  have hprompt : promptLength - 1 < groups := hgroups
  have hread : ((List.range groups).map emb)[promptLength - 1]? = some (emb firstPosition) := by
    rw [List.getElem?_map, List.getElem?_range hprompt, Option.map_some]
    rfl
  have htake : ((List.range groups).map emb).take (promptLength - 1) =
      (List.range (promptLength - 1)).map emb := by
    rw [← List.map_take, List.take_range, Nat.min_eq_left hprompt.le]
  rw [runDecoderStep, hread, htake, Option.map_some, Option.bind_some] at h
  obtain ⟨tokens, hloop, rfl⟩ := Option.map_eq_some_iff.mp h
  have hfuel : firstPosition + (0 + 1) + (groups - promptLength) = groups := by
    change promptLength + (groups - promptLength) = groups
    omega
  obtain ⟨tokens', hloop', hcapped⟩ := decodeLoop_capped eng emb hk (groups - promptLength) 0
    (fun _ hm => absurd hm (Nat.not_lt_zero _)) hk hfuel
  have hsame : some tokens = some tokens' := hloop.symm.trans hloop'
  rw [← Option.some.inj hsame] at hcapped
  exact hcapped

end Realtime

/-! ## An offline window -/

/-- `VOXTRAL_OFFLINE_MAX_DECODE`. -/
def offlineMaxDecode : ℕ := 448

/-- The offline decoder behind the encoder and the adapter of a window: `run_offline_prefill` over the prompt
and `run_offline_step` for a token at a position, each with the state it leaves, or the failure of a graph
or of the K/V plan. -/
structure OfflineDecoder (σ : Type*) where
  prefill : Option (ℤ × σ)
  step : σ → ℤ → ℕ → Option (ℤ × σ)

/-- The loop of `transcribe_offline_window` with `fuel` steps left. -/
def offlineLoop (dec : OfflineDecoder σ) : ℕ → σ → ℤ → ℕ → List ℤ → Option (List ℤ)
  | 0, _, _, _, tokens => some tokens
  | fuel + 1, state, token, position, tokens =>
    if token = tokenEos then some tokens
    else
      (dec.step state token position).bind fun out =>
        if out.1 = tokenEos then some tokens
        else offlineLoop dec fuel out.2 out.1 (position + 1) (tokens ++ [out.1])

/-- The length of the prompt around `nAudio` audio positions. -/
def offlinePromptLength (nAudio : ℕ) : ℕ := 3 + nAudio + 5

/-- The decoding of `transcribe_offline_window`: the tokens, or a failure. -/
def transcribeOfflineWindow (dec : OfflineDecoder σ) (nAudio : ℕ) (maxTokens : ℤ) : Option (List ℤ) :=
  dec.prefill.bind fun first =>
    let tokens := if first.1 ≠ tokenEos then [first.1] else []
    let cap := if 0 < maxTokens then maxTokens.toNat else offlineMaxDecode
    offlineLoop dec cap first.2 first.1 (offlinePromptLength nAudio) tokens

/-- Output number `i` of the offline decoder, and the state behind it: the prefill, and steps that are fed
the output before. -/
def OfflineDecoder.run (dec : OfflineDecoder σ) (nAudio : ℕ) : ℕ → Option (ℤ × σ)
  | 0 => dec.prefill
  | i + 1 => (dec.run nAudio i).bind fun r => dec.step r.2 r.1 (offlinePromptLength nAudio + i)

/-- Output number `i` of the offline decoder. -/
def OfflineDecoder.outputAt (dec : OfflineDecoder σ) (nAudio i : ℕ) : Option ℤ :=
  (dec.run nAudio i).map Prod.fst

section Offline

variable {dec : OfflineDecoder σ} {nAudio k : ℕ} {tokens : List ℤ} {out : ℕ → ℤ}

/-- The outputs `out` are those of the decoder, as far as it has any. -/
def OfflineDecoder.Gives (dec : OfflineDecoder σ) (nAudio : ℕ) (out : ℕ → ℤ) : Prop :=
  ∀ i t, dec.outputAt nAudio i = some t → out i = t

/-- What a run of the decoder returned is the output at its position. -/
lemma OfflineDecoder.Gives.eq (hout : dec.Gives nAudio out) {i : ℕ} {r : ℤ × σ}
    (hrun : dec.run nAudio i = some r) : out i = r.1 :=
  hout i r.1 (congrArg (Option.map Prod.fst) hrun)

/-- A limit behind the end of the text does not cut. -/
lemma cappedTokens_succ (out : ℕ → ℤ) {i n : ℕ} (hlive : ∀ m < i, out m ≠ tokenEos) (hend : out i = tokenEos)
    (hn : i < n) : cappedTokens out n = (List.range i).map out := by
  have hlen : ((List.range i).map out).length = i := by rw [List.length_map, List.length_range]
  apply cappedTokens_of_ended
  · unfold StartsWith
    rw [List.length_append, hlen, List.length_singleton, List.range_succ, List.map_append,
      List.map_singleton, hend]
  · intro t ht
    obtain ⟨m, hm, rfl⟩ := List.mem_map.mp ht
    exact hlive m (List.mem_range.mp hm)
  · rwa [hlen]

/-- Without an end of the text the limit decides. -/
lemma cappedTokens_live (out : ℕ → ℤ) {n : ℕ} (hlive : ∀ m < n, out m ≠ tokenEos) :
    cappedTokens out n = (List.range n).map out := by
  unfold cappedTokens
  rw [List.takeWhile_eq_self_iff]
  intro t ht
  obtain ⟨m, hm, rfl⟩ := List.mem_map.mp ht
  exact decide_eq_true (hlive m (List.mem_range.mp hm))

/-- The loop behind output number `i` returns the longest prefix without the end among all outputs up to
its last step. -/
lemma offlineLoop_capped (hout : dec.Gives nAudio out) (fuel i : ℕ) {r : ℤ × σ}
    (hrun : dec.run nAudio i = some r) (hlive : ∀ m < i + 1, out m ≠ tokenEos)
    (h : offlineLoop dec fuel r.2 r.1 (offlinePromptLength nAudio + i) ((List.range (i + 1)).map out) =
      some tokens) : tokens = cappedTokens out (i + 1 + fuel) := by
  induction fuel generalizing i r with
  | zero =>
    rw [← Option.some.inj h, Nat.add_zero, cappedTokens_live out hlive]
  | succ fuel ih =>
    have hr := hout.eq hrun
    have hlast := hlive i (Nat.lt_succ_self i)
    rw [hr] at hlast
    rw [offlineLoop, if_neg hlast] at h
    obtain ⟨next, hstep, h⟩ := Option.bind_eq_some_iff.mp h
    have hrun' : dec.run nAudio (i + 1) = some next := by
      rw [OfflineDecoder.run, hrun, Option.bind_some, hstep]
    have hnext := hout.eq hrun'
    split_ifs at h with heos
    · rw [← Option.some.inj h]
      exact (cappedTokens_succ out hlive (hnext.trans heos) (by omega)).symm
    · have hlive' : ∀ m < i + 1 + 1, out m ≠ tokenEos := by
        intro m hm
        rcases Nat.lt_succ_iff_lt_or_eq.mp hm with hlt | rfl
        · exact hlive m hlt
        · rw [hnext]
          exact heos
      have hmore : (List.range (i + 1 + 1)).map out = (List.range (i + 1)).map out ++ [next.1] := by
        rw [List.range_succ, List.map_append, List.map_singleton, hnext]
      rw [← hmore, Nat.add_assoc] at h
      rw [ih (i + 1) hrun' hlive' h]
      congr 1
      omega

/-- An offline window with the limit `k` returns the longest prefix without the end among the first `k + 1`
outputs. -/
theorem offline_tokens_eq (hk : 0 < k) (h : transcribeOfflineWindow dec nAudio k = some tokens)
    (hout : dec.Gives nAudio out) : tokens = cappedTokens out (k + 1) := by
  unfold transcribeOfflineWindow at h
  obtain ⟨first, hfirst, h⟩ := Option.bind_eq_some_iff.mp h
  have hcap : (if (0 : ℤ) < k then (k : ℤ).toNat else offlineMaxDecode) = k := by
    rw [if_pos (by exact_mod_cast hk), Int.toNat_natCast]
  have hrun : dec.run nAudio 0 = some first := hfirst
  have h0 := hout.eq hrun
  dsimp only at h
  rw [hcap] at h
  by_cases heos : first.1 = tokenEos
  · rw [if_neg (not_not.mpr heos)] at h
    have hnone : offlineLoop dec k first.2 first.1 (offlinePromptLength nAudio) [] = some [] := by
      obtain ⟨fuel, rfl⟩ := Nat.exists_eq_add_one_of_ne_zero hk.ne'
      rw [offlineLoop, if_pos heos]
    rw [← Option.some.inj (hnone.symm.trans h)]
    exact (cappedTokens_succ out (fun m hm => absurd hm (Nat.not_lt_zero m)) (h0.trans heos)
      (Nat.succ_pos k)).symm
  · rw [if_pos heos, ← h0] at h
    have hlive : ∀ m < 0 + 1, out m ≠ tokenEos := by
      intro m hm
      rw [Nat.lt_one_iff.mp hm, h0]
      exact heos
    have hall : tokens = cappedTokens out (0 + 1 + k) :=
      offlineLoop_capped hout k 0 hrun hlive (by rw [← h0]; exact h)
    rw [hall, Nat.zero_add, Nat.add_comm]

/-- One more output changes the longest prefix exactly when the end is not among them. -/
lemma cappedTokens_succ_eq_iff (out : ℕ → ℤ) (k : ℕ) :
    cappedTokens out (k + 1) = cappedTokens out k ↔ ∃ i ≤ k, out i = tokenEos := by
  constructor
  · intro hsame
    by_contra hnone
    push Not at hnone
    have hlong := congrArg List.length hsame
    rw [cappedTokens_live out fun m hm => hnone m (Nat.lt_succ_iff.mp hm), List.length_map,
      List.length_range] at hlong
    have hle := cappedTokens_length_le out k
    omega
  · rintro ⟨i, hi, heos⟩
    classical
    obtain ⟨j, ⟨hj, hend⟩, hfirst⟩ : ∃ j, (j ≤ k ∧ out j = tokenEos) ∧ ∀ m < j, out m ≠ tokenEos := by
      have hex : ∃ j, out j = tokenEos := ⟨i, heos⟩
      exact ⟨Nat.find hex, ⟨(Nat.find_min' hex heos).trans hi, Nat.find_spec hex⟩,
        fun m hm => Nat.find_min hex hm⟩
    rw [cappedTokens_succ out hfirst hend (Nat.lt_succ_of_le hj)]
    rcases Nat.lt_or_eq_of_le hj with hlt | rfl
    · rw [cappedTokens_succ out hfirst hend hlt]
    · rw [cappedTokens_live out hfirst]

end Offline

/-! ## The three paths -/

section Paths

variable {χ : Type*}

/-- A stream with the limit `k` keeps to it after every history, and its completed transcript is the longest
prefix without the end among the outputs of its decoder, within the limit and the positions with audio. -/
def StreamKeepsLimit [Zero α] (eng : Engine α φ ε γ (DecoderKv χ)) (k : ℕ) : Prop :=
  ∀ (params : StreamParams) (maxEvents capacity : ℕ) (silence : φ) (device : Device ε γ (DecoderKv χ))
    (history : List HistoryCall) (os : List HistoryResponse) (w : WarmStream α φ ε γ (DecoderKv χ)),
    params.maxTokens = k →
    runSteps (historyStep eng capacity silence)
      ⟨Stream.createWith params maxEvents capacity device, false⟩ history = some (w, os) →
    w.stream.decoder.tokens.length ≤ k ∧
      (w.stream.lifecycle.state = .completed → ∀ out, StartsWith out (stepTokens w.stream.trace) →
        w.stream.decoder.tokens = cappedTokens out (min k (availablePositions w.stream)))

/-- So does the decoding of a whole realtime utterance. -/
def RealtimeKeepsLimit (eng : Engine α φ ε γ κ) (k : ℕ) : Prop :=
  ∀ (rows : List ε) (r : VoxtralResult), runAdapterAndDecodeRealtime eng rows k = some r →
    r.tokens.length ≤ k ∧ r.tokens = cappedTokens (outputAt eng (rowEmbedding eng rows))
      (min k (rows.length / downsampleFactor - firstPosition))

/-- The tokens of an offline window keep to the limit `k`. -/
def OfflineKeepsLimit (dec : OfflineDecoder σ) (nAudio k : ℕ) (tokens : List ℤ) : Prop :=
  tokens.length ≤ k ∧ ∀ out, dec.Gives nAudio out → tokens = cappedTokens out k

/-- The limit `k` bounds the stream, a realtime utterance and an offline window alike exactly when the
offline decoder puts out the end among its first `k + 1` outputs, of which the prefill is the first. -/
theorem max_tokens_bounds_every_path_iff [Zero α] (eng : Engine α φ ε γ (DecoderKv χ)) (dec : OfflineDecoder σ)
    {nAudio k : ℕ} (hk : 0 < k) {tokens : List ℤ}
    (h : transcribeOfflineWindow dec nAudio k = some tokens) :
    (StreamKeepsLimit eng k ∧ RealtimeKeepsLimit eng k ∧ OfflineKeepsLimit dec nAudio k tokens) ↔
      ∃ i ≤ k, dec.outputAt nAudio i = some tokenEos := by
  have hstream : StreamKeepsLimit eng k :=
    fun _ _ _ _ _ _ _ _ hlimit hrun => stream_tokens_capped hk hlimit hrun
  have hrealtime : RealtimeKeepsLimit eng k := by
    intro rows r hr
    have hcapped := realtime_tokens_capped hk hr
    refine ⟨?_, hcapped⟩
    rw [hcapped]
    exact (cappedTokens_length_le _ _).trans (Nat.min_le_left _ _)
  constructor
  · rintro ⟨-, -, -, hoffline⟩
    -- where the decoder puts out nothing, any other token will do
    let out (i : ℕ) : ℤ := (dec.outputAt nAudio i).getD tokenBos
    have hout : dec.Gives nAudio out := by
      intro i t ht
      change (dec.outputAt nAudio i).getD tokenBos = t
      rw [ht]
      rfl
    obtain ⟨i, hi, hend⟩ := (cappedTokens_succ_eq_iff out k).mp
      ((offline_tokens_eq hk h hout).symm.trans (hoffline out hout))
    refine ⟨i, hi, ?_⟩
    change (dec.outputAt nAudio i).getD tokenBos = tokenEos at hend
    cases houtput : dec.outputAt nAudio i with
    | none =>
      rw [houtput] at hend
      exact absurd hend (by decide)
    | some t =>
      rw [houtput] at hend
      exact congrArg some hend
  · rintro ⟨i, hi, hend⟩
    have hcapped : ∀ out, dec.Gives nAudio out → tokens = cappedTokens out k := by
      intro out hout
      rw [offline_tokens_eq hk h hout, cappedTokens_succ_eq_iff]
      exact ⟨i, hi, hout i tokenEos hend⟩
    refine ⟨hstream, hrealtime, ?_, hcapped⟩
    have hgives : dec.Gives nAudio fun i => (dec.outputAt nAudio i).getD 0 := by
      intro j t ht
      dsimp only
      rw [ht]
      rfl
    rw [hcapped _ hgives]
    exact cappedTokens_length_le _ _

/-- A decoder that puts out the token 5 until the position `last`, and then the end. -/
def endingDecoder (last : ℕ) : OfflineDecoder Unit where
  prefill := some (5, ())
  step _ _ position := some (if position ≤ last then 5 else tokenEos, ())

/-- A window of 375 positions whose decoder ends behind three tokens, with room for four. -/
theorem max_tokens_bounds_every_path_ending :
    StreamKeepsLimit ringEngine 4 ∧ RealtimeKeepsLimit ringEngine 4 ∧
      OfflineKeepsLimit (endingDecoder 384) 375 4 [5, 5, 5] :=
  (max_tokens_bounds_every_path_iff ringEngine (endingDecoder 384) (by decide) (by decide)).mpr
    ⟨3, by decide, by decide⟩

/-- A decoder that does not end returns two tokens under the limit 1. -/
theorem max_tokens_offline_exceeded :
    transcribeOfflineWindow (endingDecoder 1000) 375 1 = some [5, 5] ∧
      ¬ ∀ (k : ℕ) (tokens : List ℤ), 0 < k →
        transcribeOfflineWindow (endingDecoder 1000) 375 k = some tokens → tokens.length ≤ k := by
  have htwo : transcribeOfflineWindow (endingDecoder 1000) 375 1 = some [5, 5] := by decide
  refine ⟨htwo, fun hall => ?_⟩
  exact absurd (hall 1 [5, 5] (by decide) htwo) (by decide)

end Paths

end Voxtral
