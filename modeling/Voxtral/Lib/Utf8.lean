import Mathlib.Data.List.Basic
import Mathlib.Data.Nat.Basic

/-!
# Well-formed UTF-8

A byte string is well formed if it is the UTF-8 encoding of some characters.  The lemmas `encodes_*`
recognize the encoding of one character by the ranges of its bytes, and `utf8EncodeChar_cases` gives
these ranges for every character.  Together they say that the well-formed strings are the ones the
grammar of RFC 3629 derives (`wellFormedUtf8_iff_octets`).
-/

namespace Voxtral

/-- The bytes are the encoding of a list of characters. -/
def WellFormedUtf8 (bytes : List UInt8) : Prop :=
  ∃ cs : List Char, bytes = cs.flatMap String.utf8EncodeChar

/-- The empty text is well formed. -/
lemma wellFormedUtf8_nil : WellFormedUtf8 [] := ⟨[], rfl⟩

/-- One more character. -/
lemma WellFormedUtf8.append_char {bytes : List UInt8} (h : WellFormedUtf8 bytes) (c : Char) :
    WellFormedUtf8 (bytes ++ String.utf8EncodeChar c) := by
  obtain ⟨cs, rfl⟩ := h
  exact ⟨cs ++ [c], by simp⟩

/-- A byte that continues a character. -/
def IsContinuation (b : UInt8) : Prop := 0x80 ≤ b.toNat ∧ b.toNat ≤ 0xbf

/-- Every scalar value is a character. -/
lemma exists_char {n : ℕ} (h : n.isValidChar) : ∃ c : Char, c.val.toNat = n :=
  ⟨Char.ofNatAux n h, rfl⟩

/-- A byte is determined by its value. -/
lemma ofNat_eq_of_toNat {b : UInt8} {n : ℕ} (h : n = b.toNat) : UInt8.ofNat n = b := by
  rw [h, UInt8.ofNat_toNat]

/-- One byte. -/
lemma encodes_one {a : UInt8} (ha : a.toNat ≤ 0x7f) : ∃ c, String.utf8EncodeChar c = [a] := by
  obtain ⟨c, hc⟩ := exists_char (n := a.toNat) (Or.inl (by omega))
  refine ⟨c, ?_⟩
  rw [String.utf8EncodeChar, hc, if_pos ha, ofNat_eq_of_toNat rfl]

/-- Two bytes. -/
lemma encodes_two {a b : UInt8} (ha : 0xc2 ≤ a.toNat ∧ a.toNat ≤ 0xdf) (hb : IsContinuation b) :
    ∃ c, String.utf8EncodeChar c = [a, b] := by
  obtain ⟨hb1, hb2⟩ := hb
  obtain ⟨n, hn⟩ : ∃ n, n = (a.toNat - 0xc0) * 64 + (b.toNat - 0x80) := ⟨_, rfl⟩
  obtain ⟨c, hc⟩ := exists_char (n := n) (Or.inl (by omega))
  refine ⟨c, ?_⟩
  rw [String.utf8EncodeChar, hc, if_neg (by omega), if_pos (by omega),
    ofNat_eq_of_toNat (b := a) (by omega), ofNat_eq_of_toNat (b := b) (by omega)]

/-- Three bytes: no overlong form, no surrogate. -/
lemma encodes_three {a b d : UInt8} (ha : 0xe0 ≤ a.toNat ∧ a.toNat ≤ 0xef) (hb : IsContinuation b)
    (hd : IsContinuation d) (hlong : a.toNat = 0xe0 → 0xa0 ≤ b.toNat)
    (hsurrogate : a.toNat = 0xed → b.toNat < 0xa0) :
    ∃ c, String.utf8EncodeChar c = [a, b, d] := by
  obtain ⟨hb1, hb2⟩ := hb
  obtain ⟨hd1, hd2⟩ := hd
  obtain ⟨n, hn⟩ : ∃ n, n = (a.toNat - 0xe0) * 4096 + (b.toNat - 0x80) * 64 + (d.toNat - 0x80) :=
    ⟨_, rfl⟩
  have hlow : 0x7ff < n := by omega
  have hhigh : n ≤ 0xffff := by omega
  have hvalid : n.isValidChar := by
    unfold Nat.isValidChar
    omega
  obtain ⟨c, hc⟩ := exists_char hvalid
  refine ⟨c, ?_⟩
  rw [String.utf8EncodeChar, hc, if_neg (by omega), if_neg (by omega), if_pos hhigh,
    ofNat_eq_of_toNat (b := a) (by omega), ofNat_eq_of_toNat (b := b) (by omega),
    ofNat_eq_of_toNat (b := d) (by omega)]

/-- Four bytes: no overlong form, nothing past the last plane. -/
lemma encodes_four {a b d e : UInt8} (ha : 0xf0 ≤ a.toNat ∧ a.toNat ≤ 0xf4) (hb : IsContinuation b)
    (hd : IsContinuation d) (he : IsContinuation e) (hlong : a.toNat = 0xf0 → 0x90 ≤ b.toNat)
    (hplane : a.toNat = 0xf4 → b.toNat < 0x90) :
    ∃ c, String.utf8EncodeChar c = [a, b, d, e] := by
  obtain ⟨hb1, hb2⟩ := hb
  obtain ⟨hd1, hd2⟩ := hd
  obtain ⟨he1, he2⟩ := he
  obtain ⟨n, hn⟩ : ∃ n, n = (a.toNat - 0xf0) * 262144 + (b.toNat - 0x80) * 4096 +
    (d.toNat - 0x80) * 64 + (e.toNat - 0x80) := ⟨_, rfl⟩
  have hlow : 0xffff < n := by omega
  have hvalid : n.isValidChar := Or.inr (by omega)
  obtain ⟨c, hc⟩ := exists_char hvalid
  refine ⟨c, ?_⟩
  rw [String.utf8EncodeChar, hc, if_neg (by omega), if_neg (by omega), if_neg (by omega),
    ofNat_eq_of_toNat (b := a) (by omega), ofNat_eq_of_toNat (b := b) (by omega),
    ofNat_eq_of_toNat (b := d) (by omega), ofNat_eq_of_toNat (b := e) (by omega)]

/-- The bytes of a character lie in the ranges of one of the four widths. -/
lemma utf8EncodeChar_cases (c : Char) :
    (∃ a, String.utf8EncodeChar c = [a] ∧ a.toNat ≤ 0x7f) ∨
    (∃ a b, String.utf8EncodeChar c = [a, b] ∧ (0xc2 ≤ a.toNat ∧ a.toNat ≤ 0xdf) ∧
      IsContinuation b) ∨
    (∃ a b d, String.utf8EncodeChar c = [a, b, d] ∧ (0xe0 ≤ a.toNat ∧ a.toNat ≤ 0xef) ∧
      (IsContinuation b ∧ IsContinuation d) ∧ (a.toNat = 0xe0 → 0xa0 ≤ b.toNat) ∧
      (a.toNat = 0xed → b.toNat < 0xa0)) ∨
    ∃ a b d e, String.utf8EncodeChar c = [a, b, d, e] ∧ (0xf0 ≤ a.toNat ∧ a.toNat ≤ 0xf4) ∧
      (IsContinuation b ∧ IsContinuation d ∧ IsContinuation e) ∧
      (a.toNat = 0xf0 → 0x90 ≤ b.toNat) ∧ (a.toNat = 0xf4 → b.toNat < 0x90) := by
  have hvalid : c.val.toNat < 0xd800 ∨ 0xdfff < c.val.toNat ∧ c.val.toNat < 0x110000 := c.valid
  unfold IsContinuation
  by_cases h1 : c.val.toNat ≤ 0x7f
  · refine .inl ⟨_, by rw [String.utf8EncodeChar, if_pos h1], ?_⟩
    rw [UInt8.toNat_ofNat']
    omega
  by_cases h2 : c.val.toNat ≤ 0x7ff
  · refine .inr (.inl ⟨_, _, by rw [String.utf8EncodeChar, if_neg h1, if_pos h2], ?_⟩)
    simp only [UInt8.toNat_ofNat']
    omega
  by_cases h3 : c.val.toNat ≤ 0xffff
  · refine .inr (.inr (.inl ⟨_, _, _,
      by rw [String.utf8EncodeChar, if_neg h1, if_neg h2, if_pos h3], ?_⟩))
    simp only [UInt8.toNat_ofNat']
    omega
  · refine .inr (.inr (.inr ⟨_, _, _, _,
      by rw [String.utf8EncodeChar, if_neg h1, if_neg h2, if_neg h3], ?_⟩))
    simp only [UInt8.toNat_ofNat']
    omega

/-! ## The grammar of RFC 3629 -/

/-- The least and the greatest byte that may follow a lead byte: without overlong forms, surrogates and
values past U+10FFFF. -/
def secondByteRange (lead : ℕ) : ℕ × ℕ :=
  if lead = 0xe0 then (0xa0, 0xbf)
  else if lead = 0xed then (0x80, 0x9f)
  else if lead = 0xf0 then (0x90, 0xbf)
  else if lead = 0xf4 then (0x80, 0x8f)
  else (0x80, 0xbf)

/-- The byte may follow the lead byte. -/
def FollowsLead (lead b : UInt8) : Prop :=
  (secondByteRange lead.toNat).1 ≤ b.toNat ∧ b.toNat ≤ (secondByteRange lead.toNat).2

/-- The sequences `UTF8-1` to `UTF8-4`. -/
inductive Utf8Sequence : List UInt8 → Prop
  | one {a : UInt8} (ha : a.toNat ≤ 0x7f) : Utf8Sequence [a]
  | two {a b : UInt8} (ha : 0xc2 ≤ a.toNat ∧ a.toNat ≤ 0xdf) (hb : FollowsLead a b) :
      Utf8Sequence [a, b]
  | three {a b d : UInt8} (ha : 0xe0 ≤ a.toNat ∧ a.toNat ≤ 0xef) (hb : FollowsLead a b)
      (hd : IsContinuation d) : Utf8Sequence [a, b, d]
  | four {a b d e : UInt8} (ha : 0xf0 ≤ a.toNat ∧ a.toNat ≤ 0xf4) (hb : FollowsLead a b)
      (hd : IsContinuation d) (he : IsContinuation e) : Utf8Sequence [a, b, d, e]

/-- `UTF8-octets`: sequences one after the other. -/
def Utf8Octets (bytes : List UInt8) : Prop :=
  ∃ parts : List (List UInt8), (∀ part ∈ parts, Utf8Sequence part) ∧ bytes = parts.flatten

/-- Every character is encoded as a sequence of the grammar. -/
lemma utf8Sequence_encode (c : Char) : Utf8Sequence (String.utf8EncodeChar c) := by
  rcases utf8EncodeChar_cases c with ⟨a, hc, ha⟩ | ⟨a, b, hc, ha, hb⟩ |
    ⟨a, b, d, hc, ha, ⟨hb, hd⟩, hlong, hsurrogate⟩ |
    ⟨a, b, d, e, hc, ha, ⟨hb, hd, he⟩, hlong, hplane⟩
  all_goals rw [hc]
  · exact .one ha
  · refine .two ha ?_
    unfold FollowsLead secondByteRange
    rw [if_neg (by omega), if_neg (by omega), if_neg (by omega), if_neg (by omega)]
    exact hb
  · refine .three ha ?_ hd
    unfold IsContinuation at hb
    unfold FollowsLead secondByteRange
    split_ifs <;> dsimp only <;> omega
  · refine .four ha ?_ hd he
    unfold IsContinuation at hb
    unfold FollowsLead secondByteRange
    split_ifs <;> dsimp only <;> omega

/-- A sequence of the grammar encodes a character. -/
lemma Utf8Sequence.exists_char {part : List UInt8} (h : Utf8Sequence part) :
    ∃ c, String.utf8EncodeChar c = part := by
  cases h with
  | one ha => exact encodes_one ha
  | @two a b ha hb =>
    have hcont : IsContinuation b := by
      unfold FollowsLead secondByteRange at hb
      unfold IsContinuation
      split_ifs at hb <;> dsimp only at hb <;> omega
    exact encodes_two ha hcont
  | @three a b d ha hb hd =>
    unfold FollowsLead secondByteRange at hb
    have hcont : IsContinuation b := by
      unfold IsContinuation
      split_ifs at hb <;> dsimp only at hb <;> omega
    refine encodes_three ha hcont hd (fun hlead => ?_) fun hlead => ?_
    · rw [if_pos hlead] at hb
      exact hb.1
    · rw [if_neg (by omega), if_pos hlead] at hb
      exact Nat.lt_succ_of_le hb.2
  | @four a b d e ha hb hd he =>
    unfold FollowsLead secondByteRange at hb
    have hcont : IsContinuation b := by
      unfold IsContinuation
      split_ifs at hb <;> dsimp only at hb <;> omega
    refine encodes_four ha hcont hd he (fun hlead => ?_) fun hlead => ?_
    · rw [if_neg (by omega), if_neg (by omega), if_pos hlead] at hb
      exact hb.1
    · rw [if_neg (by omega), if_neg (by omega), if_neg (by omega), if_pos hlead] at hb
      exact Nat.lt_succ_of_le hb.2

/-- The grammar derives the encodings of the character lists. -/
lemma wellFormedUtf8_iff_octets (bytes : List UInt8) : WellFormedUtf8 bytes ↔ Utf8Octets bytes := by
  constructor
  · rintro ⟨cs, rfl⟩
    refine ⟨cs.map String.utf8EncodeChar, ?_, List.flatMap_def⟩
    intro part hpart
    obtain ⟨c, -, rfl⟩ := List.mem_map.mp hpart
    exact utf8Sequence_encode c
  · rintro ⟨parts, hparts, rfl⟩
    induction parts with
    | nil => exact wellFormedUtf8_nil
    | cons part parts ih =>
      obtain ⟨c, hc⟩ := (hparts part (List.mem_cons_self ..)).exists_char
      obtain ⟨cs, hcs⟩ := ih fun p hp => hparts p (List.mem_cons_of_mem _ hp)
      refine ⟨c :: cs, ?_⟩
      rw [List.flatten_cons, hcs, ← hc, List.flatMap_cons]

end Voxtral
