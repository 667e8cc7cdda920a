import Voxtral.Lib.Runs
import Voxtral.Stream.Tokenizer

/-!
# Detokenization behind the cache

`token_bytes_for_id` keeps what it returned in a map of the model.  Whatever was looked up before, the map
holds what the lookup would return, so the pieces of a stream add up to the text `decode_tokens` builds.
The vocabulary entries are base64, and `base64_decode` inverts the encoding.
-/

namespace Voxtral

/-! ## Base64

The encoding of RFC 4648, section 4: three bytes become four digits, and one or two bytes at the end two
or three digits, filled up to four with `=` in the padded form. -/

/-- The byte of a digit of the alphabet. -/
def base64Char (digit : ℕ) : UInt8 :=
  if digit < 26 then UInt8.ofNat (65 + digit)
  else if digit < 52 then UInt8.ofNat (97 + (digit - 26))
  else if digit < 62 then UInt8.ofNat (48 + (digit - 52))
  else if digit = 62 then 43
  else 47

/-- The bytes of the alphabet. -/
def base64Alphabet : List UInt8 := (List.range 64).map base64Char

/-- The encoding of a byte string, with or without padding. -/
def base64Encode (padded : Bool) : List UInt8 → List UInt8
  | [] => []
  | [a] =>
    base64Char (a.toNat / 4) :: base64Char (a.toNat % 4 * 16) :: if padded then [61, 61] else []
  | [a, b] =>
    base64Char (a.toNat / 4) :: base64Char (a.toNat % 4 * 16 + b.toNat / 16) ::
      base64Char (b.toNat % 16 * 4) :: if padded then [61] else []
  | a :: b :: c :: rest =>
    base64Char (a.toNat / 4) :: base64Char (a.toNat % 4 * 16 + b.toNat / 16) ::
      base64Char (b.toNat % 16 * 4 + c.toNat / 64) :: base64Char (c.toNat % 64) ::
        base64Encode padded rest

/-- Text that carries an encoding: bytes that are neither of the alphabet nor `=` may stand anywhere. -/
def CarriesBase64 (encoding text : List UInt8) : Prop :=
  text.filter (fun ch => ch ∈ base64Alphabet ∨ ch = 61) = encoding

/-- Two bytes, padded. -/
example : base64Encode true [0x4d, 0x61] = [0x54, 0x57, 0x45, 0x3d] := by decide

/-! ## Base64 entries -/

/-- The digit of a byte of the alphabet. -/
lemma base64Digit_char {digit : ℕ} (h : digit < 64) : base64Digit (base64Char digit) = some digit := by
  have hall : ∀ digit : Fin 64, base64Digit (base64Char digit) = some digit.val := by decide
  exact hall ⟨digit, h⟩

/-- No byte of the alphabet ends the text. -/
lemma base64Char_ne_pad {digit : ℕ} (h : digit < 64) : base64Char digit ≠ 61 := by
  have hall : ∀ digit : Fin 64, base64Char digit ≠ 61 := by decide
  exact hall ⟨digit, h⟩

/-- The digits are those of the alphabet. -/
lemma base64Digit_eq_none {ch : UInt8} (h : ch ∉ base64Alphabet) : base64Digit ch = none := by
  have hall : ∀ n : Fin 256, UInt8.ofNat n ∉ base64Alphabet → base64Digit (UInt8.ofNat n) = none := by
    decide +kernel
  have hch := hall ⟨ch.toNat, ch.toNat_lt⟩
  rw [UInt8.ofNat_toNat] at hch
  exact hch h

/-- The loop skips the bytes that are no digits. -/
lemma base64Loop_filter (text : Bytes) (acc bits : ℕ) :
    base64Loop (text.filter fun ch => ch ∈ base64Alphabet ∨ ch = 61) acc bits =
      base64Loop text acc bits := by
  induction text generalizing acc bits with
  | nil => rfl
  | cons ch rest ih =>
    by_cases hkept : ch ∈ base64Alphabet ∨ ch = 61
    · rw [List.filter_cons_of_pos (by simpa using hkept), base64Loop, base64Loop]
      simp only [ih]
    · rw [List.filter_cons_of_neg (by simpa using hkept), base64Loop,
        if_neg (fun h => hkept (.inr h)), base64Digit_eq_none (fun h => hkept (.inl h))]
      exact ih acc bits

/-- The loop on a digit that completes no byte. -/
lemma base64Loop_digit {digit : ℕ} (hdigit : digit < 64) (rest : Bytes) (acc : ℕ) :
    base64Loop (base64Char digit :: rest) acc 0 =
      base64Loop rest ((acc * 64 + digit) % 2 ^ 32) 6 := by
  rw [base64Loop, if_neg (base64Char_ne_pad hdigit), base64Digit_char hdigit]
  rfl

/-- The loop on a digit that completes a byte. -/
lemma base64Loop_byte {digit bits : ℕ} (hdigit : digit < 64) (hbits : 2 ≤ bits) (rest : Bytes)
    (acc : ℕ) :
    base64Loop (base64Char digit :: rest) acc bits =
      UInt8.ofNat ((acc * 64 + digit) % 2 ^ 32 / 2 ^ (bits - 2) % 256) ::
        base64Loop rest ((acc * 64 + digit) % 2 ^ 32) (bits - 2) := by
  rw [base64Loop, if_neg (base64Char_ne_pad hdigit), base64Digit_char hdigit]
  dsimp only
  rw [if_pos (by omega), show bits + 6 - 8 = bits - 2 by omega]

/-- Pending bits that are never completed, and padding, add nothing. -/
lemma base64Loop_pad (n acc bits : ℕ) : base64Loop (List.replicate n 61) acc bits = [] := by
  cases n with
  | zero => rfl
  | succ n => rfl

/-- A byte of the output is the next byte of the input when their values agree, and the rest follows. -/
lemma ofNat_cons_eq {n : ℕ} {a : UInt8} {text rest : Bytes} (hbyte : n % 256 = a.toNat)
    (hrest : text = rest) : UInt8.ofNat (n % 256) :: text = a :: rest := by
  rw [hbyte, UInt8.ofNat_toNat, hrest]

/-- Decoding an encoding gives the bytes back, whatever the accumulator held before: its upper bits run
out of the register, and a byte only reads the last fourteen. -/
lemma base64Loop_encode (padded : Bool) (b : Bytes) (acc : ℕ) :
    base64Loop (base64Encode padded b) acc 0 = b := by
  have hpad : ∀ n acc bits, base64Loop (if padded then List.replicate n 61 else []) acc bits = [] := by
    intro n acc bits
    split_ifs
    · exact base64Loop_pad n acc bits
    · rfl
  induction b using base64Encode.induct generalizing acc with
  | case1 => rfl
  | case2 a =>
    have ha := a.toNat_lt
    rw [base64Encode, base64Loop_digit (by omega), base64Loop_byte (by omega) (by omega)]
    apply ofNat_cons_eq
    · omega
    · exact hpad 2 _ _
  | case3 a b =>
    have ha := a.toNat_lt
    have hb := b.toNat_lt
    rw [base64Encode, base64Loop_digit (by omega), base64Loop_byte (by omega) (by omega),
      base64Loop_byte (by omega) (by omega)]
    apply ofNat_cons_eq
    · omega
    apply ofNat_cons_eq
    · omega
    · exact hpad 1 _ _
  | case4 a b c rest ih =>
    have ha := a.toNat_lt
    have hb := b.toNat_lt
    have hc := c.toNat_lt
    rw [base64Encode, base64Loop_digit (by omega), base64Loop_byte (by omega) (by omega),
      base64Loop_byte (by omega) (by omega), base64Loop_byte (by omega) (by omega)]
    apply ofNat_cons_eq
    · omega
    apply ofNat_cons_eq
    · omega
    apply ofNat_cons_eq
    · omega
    · exact ih _

/-- Text that carries the encoding of some bytes decodes to them. -/
lemma base64Decode_carries {padded : Bool} {b text : Bytes}
    (h : CarriesBase64 (base64Encode padded b) text) : base64Decode text = b := by
  unfold base64Decode
  rw [← base64Loop_filter, h]
  exact base64Loop_encode padded b 0

/-! ## The cache -/

/-- `tokenizer_bytes_cache`. -/
abbrev TokenCache := List (ℤ × Bytes)

/-- `token_bytes_for_id`: the entry of the cache, or the decoded bytes, which are entered. -/
def tokenBytesCached (t : Tokenizer) (cache : TokenCache) (token : ℤ) : TokenCache × Bytes :=
  match cache.lookup token with
  | some bytes => (cache, bytes)
  | none =>
    let decoded := tokenBytesForId t token
    ((token, decoded) :: cache, decoded)

/-- `voxtral_token_piece_internal`. -/
def tokenPieceCached (t : Tokenizer) (cache : TokenCache) (token : ℤ) : TokenCache × Bytes :=
  if t.vocabB64 = [] then (cache, []) else tokenBytesCached t cache token

/-- One pass of the loop of `decode_tokens`, which appends to `out`. -/
def decodeTokenCached (t : Tokenizer) (state : TokenCache × Bytes) (token : ℤ) : TokenCache × Bytes :=
  if token < t.numSpecialTokens then state
  else if token ∈ t.specialRanks then state
  else
    let r := tokenBytesCached t state.1 token
    (r.1, state.2 ++ r.2)

/-- `decode_tokens`. -/
def decodeTokensCached (t : Tokenizer) (cache : TokenCache) (tokens : List ℤ) : TokenCache × Bytes :=
  if t.vocabB64 = [] then (cache, []) else tokens.foldl (decodeTokenCached t) (cache, [])

/-- Append the pieces of a token list one after the other, as the deliveries of a stream do
(`append_token_to_partial`). -/
def appendPieces (t : Tokenizer) (cache : TokenCache) (tokens : List ℤ) : TokenCache × Bytes :=
  tokens.foldl (fun state token =>
    let r := tokenPieceCached t state.1 token
    (r.1, state.2 ++ r.2)) (cache, [])

/-- A use of the cache. -/
inductive CacheUse
  | piece (token : ℤ)
  | decode (tokens : List ℤ)

/-- Use the cache. -/
def useCache (t : Tokenizer) (cache : TokenCache) : CacheUse → TokenCache × Bytes
  | .piece token => tokenPieceCached t cache token
  | .decode tokens => decodeTokensCached t cache tokens

/-- Every entry is what the lookup returns. -/
def CacheSound (t : Tokenizer) (cache : TokenCache) : Prop :=
  ∀ token bytes, cache.lookup token = some bytes → bytes = tokenBytesForId t token

section Cache

variable {t : Tokenizer} {cache : TokenCache}

/-- With a sound cache the bytes of a token are those of the vocabulary, and the cache stays sound. -/
lemma CacheSound.bytes (h : CacheSound t cache) (token : ℤ) :
    (tokenBytesCached t cache token).2 = tokenBytesForId t token ∧
      CacheSound t (tokenBytesCached t cache token).1 := by
  unfold tokenBytesCached
  cases hlookup : cache.lookup token with
  | some bytes => exact ⟨h token bytes hlookup, h⟩
  | none =>
    refine ⟨rfl, ?_⟩
    intro other bytes hother
    rw [List.lookup_cons] at hother
    by_cases heq : other = token
    · rw [heq, beq_self_eq_true] at hother
      obtain rfl := Option.some.inj hother
      rw [heq]
    · rw [beq_false_of_ne heq] at hother
      exact h other bytes hother

/-- The same of its piece. -/
lemma CacheSound.piece (h : CacheSound t cache) (token : ℤ) :
    (tokenPieceCached t cache token).2 = tokenPiece t token ∧
      CacheSound t (tokenPieceCached t cache token).1 := by
  unfold tokenPieceCached tokenPiece
  split_ifs
  · exact ⟨rfl, h⟩
  · exact h.bytes token

/-- The deliveries append the pieces. -/
lemma CacheSound.pieces (h : CacheSound t cache) (tokens : List ℤ) (out : Bytes) :
    (tokens.foldl (fun state token =>
        let r := tokenPieceCached t state.1 token
        (r.1, state.2 ++ r.2)) (cache, out)).2 = out ++ tokens.flatMap (tokenPiece t) := by
  induction tokens generalizing cache out with
  | nil => exact (List.append_nil out).symm
  | cons token tokens ih =>
    obtain ⟨hpiece, hsound⟩ := h.piece token
    rw [List.foldl_cons, List.flatMap_cons, ← List.append_assoc, ← hpiece]
    exact ih hsound _

/-- `decode_tokens` appends the same pieces. -/
lemma CacheSound.decode (h : CacheSound t cache) (tokens : List ℤ) (out : Bytes)
    (hvocab : t.vocabB64 ≠ []) :
    (tokens.foldl (decodeTokenCached t) (cache, out)).2 = out ++ tokens.flatMap (tokenPiece t) ∧
      CacheSound t (tokens.foldl (decodeTokenCached t) (cache, out)).1 := by
  induction tokens generalizing cache out with
  | nil => exact ⟨(List.append_nil out).symm, h⟩
  | cons token tokens ih =>
    have hpiece : tokenPiece t token = tokenBytesForId t token := by rw [tokenPiece, if_neg hvocab]
    have hnone : token < t.numSpecialTokens ∨ token ∈ t.specialRanks → tokenPiece t token = [] := by
      intro hspecial
      rw [hpiece, tokenBytesForId, if_neg]
      rintro ⟨-, hle, hrank⟩
      exact hspecial.elim (fun hlt => absurd hle (by omega)) hrank
    rw [List.foldl_cons, List.flatMap_cons, ← List.append_assoc]
    unfold decodeTokenCached
    dsimp only
    by_cases hspecial : token < t.numSpecialTokens
    · rw [if_pos hspecial, hnone (.inl hspecial), List.append_nil]
      exact ih h out
    by_cases hrank : token ∈ t.specialRanks
    · rw [if_neg hspecial, if_pos hrank, hnone (.inr hrank), List.append_nil]
      exact ih h out
    · obtain ⟨hbytes, hsound⟩ := h.bytes token
      rw [if_neg hspecial, if_neg hrank, hbytes, hpiece]
      exact ih hsound _

/-- The same of a list of tokens. -/
lemma CacheSound.decodeTokens (h : CacheSound t cache) (tokens : List ℤ) :
    (decodeTokensCached t cache tokens).2 = Voxtral.decodeTokens t tokens ∧
      CacheSound t (decodeTokensCached t cache tokens).1 := by
  rw [← flatMap_tokenPiece]
  unfold decodeTokensCached
  by_cases hvocab : t.vocabB64 = []
  · rw [if_pos hvocab]
    refine ⟨?_, h⟩
    rw [flatMap_tokenPiece, Voxtral.decodeTokens, if_pos hvocab]
  · rw [if_neg hvocab]
    exact h.decode tokens [] hvocab

/-- Every use keeps the cache sound. -/
lemma CacheSound.use (h : CacheSound t cache) (uses : List CacheUse) :
    CacheSound t (runAll (useCache t) cache uses).1 := by
  induction uses generalizing cache with
  | nil => exact h
  | cons use uses ih =>
    refine ih ?_
    cases use with
    | piece token => exact (h.piece token).2
    | decode tokens => exact (h.decodeTokens tokens).2

end Cache

/-- Whatever was looked up before the deliveries and before the decoding, the pieces of a token list add
up to its decoded text; and an entry decodes to the bytes whose encoding it carries. -/
theorem incremental_detokenization_exact :
    (∀ (t : Tokenizer) (uses uses' : List CacheUse) (tokens : List ℤ),
      (appendPieces t (runAll (useCache t) [] uses).1 tokens).2 =
        (decodeTokensCached t (runAll (useCache t) [] uses').1 tokens).2) ∧
    ∀ (padded : Bool) (b text : Bytes), CarriesBase64 (base64Encode padded b) text →
      base64Decode text = b := by
  constructor
  · intro t uses uses' tokens
    have hempty : CacheSound t [] := fun _ _ h => by cases h
    have hpieces := (hempty.use uses).pieces tokens []
    rw [((hempty.use uses').decodeTokens tokens).1, ← flatMap_tokenPiece]
    exact hpieces
  · intro padded b text h
    exact base64Decode_carries h

/-- A line break and a blank in an entry. -/
theorem incremental_detokenization_exact_wrapped :
    base64Decode [0x54, 0x0a, 0x57, 0x45, 0x20, 0x3d] = [0x4d, 0x61] :=
  incremental_detokenization_exact.2 true [0x4d, 0x61] [0x54, 0x0a, 0x57, 0x45, 0x20, 0x3d] (by
    unfold CarriesBase64
    decide +kernel)

end Voxtral
