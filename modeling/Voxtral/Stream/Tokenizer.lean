import Mathlib.Algebra.Group.Nat.Defs
import Mathlib.Data.List.Basic
import Mathlib.Data.Int.Basic

/-!
# Detokenization

The Tekken vocabulary of the model: base64 entries, the number of special tokens in front of them and
the set of special ranks.  A stream appends the piece of one token after the other; the finish-only
path decodes the whole list at once.  Here the lookups go without the cache of `token_bytes_for_id`, which
holds what they return (`Stream/Detokenize.lean`).
-/

namespace Voxtral

/-- A byte string (`std::string`). -/
abbrev Bytes := List UInt8

/-- The value of a base64 digit (`table` of `base64_decode`). -/
def base64Digit (c : UInt8) : Option ℕ :=
  let n := c.toNat
  if 65 ≤ n ∧ n ≤ 90 then some (n - 65)
  else if 97 ≤ n ∧ n ≤ 122 then some (26 + (n - 97))
  else if 48 ≤ n ∧ n ≤ 57 then some (52 + (n - 48))
  else if n = 43 then some 62
  else if n = 47 then some 63
  else none

/-- The loop of `base64_decode` with its 32-bit accumulator `acc` holding `bits` pending bits. -/
def base64Loop : Bytes → ℕ → ℕ → Bytes
  | [], _, _ => []
  | ch :: rest, acc, bits =>
    if ch = 61 then []
    else
      match base64Digit ch with
      | none => base64Loop rest acc bits
      | some val =>
        let acc := (acc * 64 + val) % 2 ^ 32
        if 8 ≤ bits + 6 then
          UInt8.ofNat (acc / 2 ^ (bits + 6 - 8) % 256) :: base64Loop rest acc (bits + 6 - 8)
        else base64Loop rest acc (bits + 6)

/-- `base64_decode`. -/
def base64Decode (input : Bytes) : Bytes := base64Loop input 0 0

/-- The tokenizer tables of `voxtral_model`. -/
structure Tokenizer where
  vocabB64 : List Bytes
  numSpecialTokens : ℤ
  specialRanks : List ℤ

/-- `token_bytes_for_id`. -/
def tokenBytesForId (t : Tokenizer) (token : ℤ) : Bytes :=
  if 0 ≤ token ∧ t.numSpecialTokens ≤ token ∧ token ∉ t.specialRanks then
    let vocabId := token - t.numSpecialTokens
    if 0 ≤ vocabId ∧ vocabId < t.vocabB64.length then
      base64Decode (t.vocabB64.getD vocabId.toNat [])
    else []
  else []

/-- `voxtral_token_piece_internal`. -/
def tokenPiece (t : Tokenizer) (token : ℤ) : Bytes :=
  if t.vocabB64 = [] then [] else tokenBytesForId t token

/-- `decode_tokens`. -/
def decodeTokens (t : Tokenizer) (tokens : List ℤ) : Bytes :=
  if t.vocabB64 = [] then []
  else
    tokens.flatMap fun token =>
      if token < t.numSpecialTokens then []
      else if token ∈ t.specialRanks then []
      else tokenBytesForId t token

/-- Appending the pieces one by one decodes the list. -/
theorem flatMap_tokenPiece (t : Tokenizer) (tokens : List ℤ) :
    tokens.flatMap (tokenPiece t) = decodeTokens t tokens := by
  unfold decodeTokens
  by_cases hvocab : t.vocabB64 = []
  · rw [if_pos hvocab, List.flatMap_eq_nil_iff]
    intro token _
    rw [tokenPiece, if_pos hvocab]
  · rw [if_neg hvocab]
    congr 1
    funext token
    rw [tokenPiece, if_neg hvocab]
    split_ifs with hspecial hrank
    · rw [tokenBytesForId, if_neg (fun h => by omega)]
    · rw [tokenBytesForId, if_neg (fun h => h.2.2 hrank)]
    · rfl

end Voxtral
