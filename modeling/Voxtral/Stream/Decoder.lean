import Voxtral.Stream.Events

/-!
# The decoder pump

`voxtral-stream-decoder.cpp`: one pass of `pump_incremental` commits the audio groups that became
complete, prefills the decoder once, delivers a token left over from an earlier pass, and runs the
decoder over every committed position, delivering each token before the next step.
-/

namespace Voxtral

variable {α φ ε γ κ : Type*}

/-- `build_prompt_ids`. -/
def promptIds : List ℤ :=
  tokenBos :: List.replicate (nLeftPadTokens + nDelayTokens) tokenStreamingPad

/-- Length of the prompt. -/
@[simp] def promptLength : ℕ := 39

/-! ## Device operations -/

/-- The four encoder rows the adapter reads for a group. -/
def adapterRows (ring : HistoryRing ε) (group : ℕ) : List (RingRow ε) :=
  (List.range downsampleFactor).map fun j => ring.read encOutRingCap (downsampleFactor * group + j)

/-- Compute the audio embedding of one group and store it in its slot. -/
def commitGroup (eng : Engine α φ ε γ κ) (s : Stream α φ ε γ κ) (group : ℕ) : Stream α φ ε γ κ :=
  let rows := adapterRows s.device.encOutRing group
  { s with
    device := { s.device with
      audioEmbRing := s.device.audioEmbRing.write aembRingCap group
        (eng.adapterGroup (rows.map RingRow.value)) }
    trace := s.trace ++ [.adapterGroup group rows] }

/-- The groups `[group, group + n)` of one adapter graph. -/
def commitGroups (eng : Engine α φ ε γ κ) (s : Stream α φ ε γ κ) (group : ℕ) :
    ℕ → Stream α φ ε γ κ
  | 0 => s
  | n + 1 => commitGroup eng (commitGroups eng s group n) (group + n)

/-- At most `fuel` iterations of the loop of `voxtral_ctx_adapter_commit` over the groups
`[group, group + n)`: 32 of them in one graph where possible, else one at a time. -/
def adapterCommitLoop (eng : Engine α φ ε γ κ) :
    ℕ → Stream α φ ε γ κ → ℕ → ℕ → Stream α φ ε γ κ × Bool
  | 0, s, _, _ => (s, true)
  | fuel + 1, s, group, n =>
    if n = 0 then (s, true)
    else
      let run := if 32 ≤ n then 32 else 1
      let (s, ran) := submitGraph eng s
      if !ran then (s, false)
      else adapterCommitLoop eng fuel (commitGroups eng s group run) (group + run) (n - run)

/-- `voxtral_ctx_adapter_commit` of at least one group. -/
def adapterCommit (eng : Engine α φ ε γ κ) (s : Stream α φ ε γ κ) (groupStart nGroups : ℕ) :
    Stream α φ ε γ κ × Bool :=
  adapterCommitLoop eng nGroups s groupStart nGroups

/-- `voxtral_ctx_decoder_prefill_incremental` over the prompt without its last token. -/
def decoderPrefill (eng : Engine α φ ε γ κ) (s : Stream α φ ε γ κ) : Stream α φ ε γ κ × Bool :=
  let (s, ran) := submitGraph eng s
  if !ran then (s, false)
  else
    let rows := (List.range (promptLength - 1)).map fun p => s.device.audioEmbRing.read aembRingCap p
    ({ s with
        device := { s.device with
          decKv := eng.prefill (promptIds.take (promptLength - 1)) (rows.map RingRow.value) }
        trace := s.trace ++ [.prefill rows] }, true)

/-- `voxtral_ctx_decoder_step_incremental` at the decoder position; `none` when the graph fails. -/
def decoderStep (eng : Engine α φ ε γ κ) (s : Stream α φ ε γ κ) :
    Stream α φ ε γ κ × Option ℤ :=
  let (s, ran) := submitGraph eng s
  if !ran then (s, none)
  else
    let position := s.decoder.decoderPosition
    let row := s.device.audioEmbRing.read aembRingCap position
    let out := eng.decoderStep s.device.decKv s.decoder.decoderPrevToken position row.value
    ({ s with
        device := { s.device with decKv := out.2 }
        trace := s.trace ++ [.decoderStep s.decoder.decoderPrevToken position row out.1] },
      some out.1)

/-! ## Detokenization -/

/-- Index behind the last byte of the first `i` bytes that is not a UTF-8 continuation byte. -/
def skipContinuations (text : Bytes) : ℕ → ℕ
  | 0 => 0
  | i + 1 => if text.getD i 0 &&& 0xC0 = 0x80 then skipContinuations text i else i + 1

/-- The number of bytes the lead byte of a code point announces (`need` of `utf8_stable_prefix`). -/
def leadWidth (lead : UInt8) : ℕ :=
  if lead &&& 0x80 = 0x00 then 1
  else if lead &&& 0xE0 = 0xC0 then 2
  else if lead &&& 0xF0 = 0xE0 then 3
  else if lead &&& 0xF8 = 0xF0 then 4
  else 1

/-- `utf8_stable_prefix`: the length of the text without a trailing incomplete code point. -/
def utf8StablePrefix (text : Bytes) : ℕ :=
  let i := skipContinuations text text.length
  if i = 0 then text.length
  else
    let need := leadWidth (text.getD (i - 1) 0)
    if i - 1 + need ≤ text.length then text.length else i - 1

/-- `append_token_to_partial`. -/
def appendTokenToPartial (eng : Engine α φ ε γ κ) (d : Decoder) (token : ℤ) : Decoder :=
  let text := d.partialText ++ tokenPiece eng.tokenizer token
  { d with partialText := text, partialStableBytes := utf8StablePrefix text }

/-! ## The pump -/

/-- Advance past a delivered token that is not the end of the stream: token history, transcript and
snapshot, then the decoder position. -/
def advanceDecoder (eng : Engine α φ ε γ κ) (s : Stream α φ ε γ κ) (p : PendingToken) :
    Stream α φ ε γ κ :=
  let s := { s with decoder :=
    appendTokenToPartial eng { s.decoder with tokens := s.decoder.tokens ++ [p.token] } p.token }
  let s := emitPartialTextEvent s p.position
  { s with decoder := { s.decoder with
      decoderTokensEmitted := s.decoder.decoderTokensEmitted + 1
      decoderPrevToken := p.token
      decoderPosition := s.decoder.decoderPosition + 1 } }

/-- `commit_pending` of `pump_incremental`: deliver the stashed token, if there is one.  The result
is `false` when its event does not fit the queue. -/
def commitPending (eng : Engine α φ ε γ κ) (s : Stream α φ ε γ κ) : Stream α φ ε γ κ × Bool :=
  match s.decoder.pending with
  | none => (s, true)
  | some p =>
    let (s, pushed) := emitTokenEvent eng s p
    if !pushed then
      ({ s with events := { s.events with decoderBackpressured := true } }, false)
    else
      let s := { s with decoder := { s.decoder with pending := none } }
      if p.token = tokenEos then
        ({ s with decoder := { s.decoder with decoderEos := true } }, true)
      else (advanceDecoder eng s p, true)

/-- Whether a token is one of the control tokens. -/
def isSpecialToken (token : ℤ) : Bool :=
  token = tokenEos ∨ token = tokenBos ∨ token = tokenStreamingPad

/-- The decoder may run a step: more positions are committed, the end was not reached, and the token
limit was not. -/
def decoderMayStep (s : Stream α φ ε γ κ) : Prop :=
  s.decoder.decoderPosition < s.decoder.adapterGroupsCommitted ∧ s.decoder.decoderEos = false ∧
    (s.params.maxTokens ≤ 0 ∨ (s.decoder.decoderTokensEmitted : ℤ) < s.params.maxTokens)

instance (s : Stream α φ ε γ κ) : Decidable (decoderMayStep s) := by
  unfold decoderMayStep
  infer_instance

/-- At most `fuel` iterations of the step loop of `pump_incremental`. -/
def pumpStepLoop (eng : Engine α φ ε γ κ) :
    ℕ → Stream α φ ε γ κ → Stream α φ ε γ κ × Status
  | 0, s => (s, .ok)
  | fuel + 1, s =>
    if ¬ decoderMayStep s then (s, .ok)
    else
      match decoderStep eng s with
      | (s, none) => (setError s .backendError "incremental decoder step failed", .backendError)
      | (s, some tok) =>
        let s := { s with decoder := { s.decoder with
          decoderSteps := s.decoder.decoderSteps + 1
          pending := some ⟨tok, s.decoder.decoderPosition, isSpecialToken tok⟩ } }
        let (s, delivered) := commitPending eng s
        if !delivered then (s, .limitExceeded) else pumpStepLoop eng fuel s

/-- The adapter stage of `pump_incremental`: commit the complete groups, as far as the audio-embedding
ring has room for positions the decoder still has to read. -/
def pumpAdapter (eng : Engine α φ ε γ κ) (s : Stream α φ ε γ κ) : Stream α φ ε γ κ × Status :=
  let availGroups := s.frontend.enc.emitted / downsampleFactor
  let consumedFloor := if s.decoder.decoderPrefillDone then s.decoder.decoderPosition else 0
  let committable := min availGroups (consumedFloor + aembRingCap)
  let committed := s.decoder.adapterGroupsCommitted
  if committed < committable then
    let (s, ran) := adapterCommit eng s committed (committable - committed)
    if !ran then (setError s .backendError "incremental adapter commit failed", .backendError)
    else
      ({ s with decoder := { s.decoder with
          adapterGroupsCommitted := committable
          adapterCommitCalls := s.decoder.adapterCommitCalls + 1 } }, .ok)
  else (s, .ok)

/-- The prefill stage of `pump_incremental`: once, as soon as the positions of the prompt are
committed. -/
def pumpPrefill (eng : Engine α φ ε γ κ) (s : Stream α φ ε γ κ) : Stream α φ ε γ κ × Status :=
  if s.decoder.decoderPrefillDone = false ∧ promptLength - 1 ≤ s.decoder.adapterGroupsCommitted then
    let (s, ran) := decoderPrefill eng s
    if !ran then (setError s .backendError "incremental decoder prefill failed", .backendError)
    else
      ({ s with decoder := { s.decoder with
          decoderPrefillDone := true
          decoderPosition := promptLength - 1
          decoderPrevToken := promptIds.getD (promptLength - 1) 0 } }, .ok)
  else (s, .ok)

/-- The decoder stage of `pump_incremental`: deliver the stashed token, then run the step loop. -/
def pumpDecoder (eng : Engine α φ ε γ κ) (s : Stream α φ ε γ κ) : Stream α φ ε γ κ × Status :=
  if s.decoder.decoderPrefillDone = false then (s, .ok)
  else
    let (s, delivered) := commitPending eng s
    if !delivered then (s, .limitExceeded)
    else
      let s := { s with events := { s.events with decoderBackpressured := false } }
      pumpStepLoop eng (s.decoder.adapterGroupsCommitted - s.decoder.decoderPosition) s

/-- `pump_incremental`. -/
def pumpIncremental (eng : Engine α φ ε γ κ) (s : Stream α φ ε γ κ) : Stream α φ ε γ κ × Status :=
  let (s, status) := pumpAdapter eng s
  if status ≠ .ok then (s, status)
  else
    let (s, status) := pumpPrefill eng s
    if status ≠ .ok then (s, status) else pumpDecoder eng s

end Voxtral
