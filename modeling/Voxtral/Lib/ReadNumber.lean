import Mathlib.Data.List.TakeWhile
import Mathlib.Algebra.Group.Nat.Defs
import Mathlib.Algebra.Group.Int.Defs

/-!
# Reading decimal numbers as the C library does

`strtol` and `strtoull` skip leading white space, take a sign, read as many digits as there are and
saturate; `strtoull` negates modulo `2 ^ 64`.  A text is read to its end exactly when it is white space,
an optional sign and digits (`strtoull_eq_some_iff`), which is more than the texts of digits.
-/

namespace Voxtral

/-- `isspace` in the C locale. -/
def isSpace (c : UInt8) : Bool := c == 0x20 || (0x09 ≤ c && c ≤ 0x0D)

/-- `isdigit`. -/
def isDigit (c : UInt8) : Bool := 0x30 ≤ c && c ≤ 0x39

/-- Read decimal digits behind a number read so far. -/
def readDigits : ℕ → List UInt8 → ℕ × List UInt8
  | value, [] => (value, [])
  | value, c :: text =>
    if 0x30 ≤ c ∧ c ≤ 0x39 then readDigits (10 * value + (c.toNat - 0x30)) text
    else (value, c :: text)

/-- `std::strtol` to base 10 with the rest of the text, if a number was read at all. -/
def strtol (text : List UInt8) : Option (ℤ × List UInt8) :=
  let body := text.dropWhile isSpace
  let (sign, digits) : ℤ × List UInt8 :=
    match body with
    | 0x2D :: digits => (-1, digits)
    | 0x2B :: digits => (1, digits)
    | digits => (1, digits)
  let (value, rest) := readDigits 0 digits
  if rest.length = digits.length then none
  else some (max (-(2 ^ 63)) (min (2 ^ 63 - 1) (sign * value)), rest)

/-- Whether a minus sign stands at the start of the text, and the text behind an optional sign. -/
def readSign : List UInt8 → Bool × List UInt8
  | 0x2D :: text => (true, text)
  | 0x2B :: text => (false, text)
  | text => (false, text)

/-- `std::strtoull` to base 10: the number, the rest of the text and whether `errno` became `ERANGE`, if
a number was read at all. -/
def strtoull (text : List UInt8) : Option (ℕ × List UInt8 × Bool) :=
  let (negative, digits) := readSign (text.dropWhile isSpace)
  let (value, rest) := readDigits 0 digits
  if rest.length = digits.length then none
  else if 2 ^ 64 ≤ value then some (2 ^ 64 - 1, rest, true)
  else some (if negative then (2 ^ 64 - value) % 2 ^ 64 else value, rest, false)

/-! ## Digits -/

/-- The number a text of digits denotes. -/
def decimalValue (digits : List UInt8) : ℕ :=
  digits.foldl (fun value c => 10 * value + (c.toNat - 0x30)) 0

/-- The digits in front are read, up to the first other byte. -/
lemma readDigits_eq (value : ℕ) (text : List UInt8) :
    readDigits value text =
      ((text.takeWhile isDigit).foldl (fun value c => 10 * value + (c.toNat - 0x30)) value,
        text.dropWhile isDigit) := by
  induction text generalizing value with
  | nil => rfl
  | cons c text ih =>
    rw [readDigits, List.takeWhile_cons, List.dropWhile_cons]
    by_cases hc : isDigit c = true
    · have hrange : 0x30 ≤ c ∧ c ≤ 0x39 := by simpa [isDigit] using hc
      rw [if_pos hrange, if_pos hc, if_pos hc, ih]
      rfl
    · have hrange : ¬ (0x30 ≤ c ∧ c ≤ 0x39) := by simpa [isDigit] using hc
      rw [if_neg hrange, if_neg hc, if_neg hc]
      rfl

/-- A digit is no white space. -/
lemma not_isSpace_of_isDigit {c : UInt8} (h : isDigit c = true) : isSpace c = false := by
  have hrange : 0x30 ≤ c ∧ c ≤ 0x39 := by simpa [isDigit] using h
  have hlo : 48 ≤ c.toNat := hrange.1
  have hspace : isSpace c ≠ true := by
    intro hs
    rcases Bool.or_eq_true_iff.mp hs with heq | hctl
    · have h32 : c = 0x20 := by simpa using heq
      rw [h32] at hlo
      exact absurd hlo (by decide)
    · have hhi : c ≤ 0x0D := by simpa using (Bool.and_eq_true_iff.mp hctl).2
      have hhi' : c.toNat ≤ 13 := hhi
      omega
  exact Bool.eq_false_iff.mpr hspace

/-! ## The texts that are read to their end -/

/-- A sign, or none. -/
def IsSign (sign : List UInt8) : Prop := sign = [] ∨ sign = [0x2B] ∨ sign = [0x2D]

/-- White space, an optional sign, and digits. -/
structure IsNumeral (text blanks sign digits : List UInt8) : Prop where
  parts : text = blanks ++ sign ++ digits
  blank : ∀ c ∈ blanks, isSpace c = true
  sign : IsSign sign
  digit : ∀ c ∈ digits, isDigit c = true
  nonempty : digits ≠ []

/-- The value of signed digits in 64-bit unsigned arithmetic. -/
def signedValue (sign digits : List UInt8) : ℕ :=
  if sign = [0x2D] then (2 ^ 64 - decimalValue digits) % 2 ^ 64 else decimalValue digits

/-- A sign is told from a digit. -/
lemma readSign_append {sign digits : List UInt8} (hsign : IsSign sign)
    (hdigit : ∀ c ∈ digits, isDigit c = true) :
    readSign (sign ++ digits) = (decide (sign = [0x2D]), digits) := by
  rcases hsign with rfl | rfl | rfl
  · cases digits with
    | nil => rfl
    | cons c digits =>
      have hc := hdigit c List.mem_cons_self
      have hminus : c ≠ 0x2D := by
        rintro rfl
        exact absurd hc (by decide)
      have hplus : c ≠ 0x2B := by
        rintro rfl
        exact absurd hc (by decide)
      rw [List.nil_append, readSign]
      · rfl
      · rintro text htext
        exact hminus (List.cons.inj htext).1
      · rintro text htext
        exact hplus (List.cons.inj htext).1
  · rfl
  · rfl

/-- What stands behind the white space is a sign, or none, and the text behind it. -/
lemma exists_sign (text : List UInt8) :
    ∃ sign, IsSign sign ∧ text = sign ++ (readSign text).2 ∧
      (readSign text).1 = decide (sign = [0x2D]) := by
  unfold readSign
  split
  · exact ⟨[0x2D], Or.inr (Or.inr rfl), rfl, rfl⟩
  · exact ⟨[0x2B], Or.inr (Or.inl rfl), rfl, rfl⟩
  · exact ⟨[], Or.inl rfl, rfl, rfl⟩

/-- Neither a sign nor a digit is white space. -/
lemma IsNumeral.dropWhile_isSpace {text blanks sign digits : List UInt8}
    (h : IsNumeral text blanks sign digits) : text.dropWhile isSpace = sign ++ digits := by
  rw [h.parts, List.append_assoc, List.dropWhile_append_of_pos h.blank]
  rcases h.sign with rfl | rfl | rfl
  · obtain ⟨c, rest, rfl⟩ := List.exists_cons_of_ne_nil h.nonempty
    rw [List.nil_append, List.dropWhile_cons,
      if_neg (by rw [not_isSpace_of_isDigit (h.digit c List.mem_cons_self)]; decide)]
  · rfl
  · rfl

/-- `strtoull` reads a text to its end without overflow exactly when it is a numeral below `2 ^ 64`. -/
lemma strtoull_eq_some_iff {text : List UInt8} {n : ℕ} :
    strtoull text = some (n, [], false) ↔ ∃ blanks sign digits,
      IsNumeral text blanks sign digits ∧ decimalValue digits < 2 ^ 64 ∧
        n = signedValue sign digits := by
  constructor
  · intro h
    obtain ⟨sign, hsign, hparts, hneg⟩ := exists_sign (text.dropWhile isSpace)
    unfold strtoull at h
    dsimp only at h
    rw [readDigits_eq, hneg] at h
    generalize (readSign (text.dropWhile isSpace)).2 = digits at h hparts
    dsimp only at h
    by_cases hnone : (digits.dropWhile isDigit).length = digits.length
    · rw [if_pos hnone] at h
      exact absurd h (by simp)
    rw [if_neg hnone] at h
    generalize hfold : (digits.takeWhile isDigit).foldl _ 0 = value at h
    by_cases hrange : 2 ^ 64 ≤ value
    · rw [if_pos hrange] at h
      exact absurd (Prod.mk.inj (Prod.mk.inj (Option.some.inj h)).2).2 (by decide)
    rw [if_neg hrange] at h
    obtain ⟨hvalue, hrest⟩ := Prod.mk.inj (Option.some.inj h)
    have hdrop : digits.dropWhile isDigit = [] := (Prod.mk.inj hrest).1
    have hdigit : ∀ c ∈ digits, isDigit c = true := List.dropWhile_eq_nil_iff.mp hdrop
    have htake : digits.takeWhile isDigit = digits := List.takeWhile_eq_self_iff.mpr hdigit
    rw [htake] at hfold
    have hdecimal : decimalValue digits = value := hfold
    refine ⟨text.takeWhile isSpace, sign, digits, ⟨?_, ?_, hsign, hdigit, ?_⟩, ?_, ?_⟩
    · rw [List.append_assoc, ← hparts, List.takeWhile_append_dropWhile]
    · intro c hc
      exact List.mem_takeWhile_imp hc
    · rintro rfl
      exact hnone rfl
    · rw [hdecimal]
      exact not_le.mp hrange
    · rw [← hvalue, signedValue, hdecimal]
      simp only [decide_eq_true_eq]
  · rintro ⟨blanks, sign, digits, hnum, hlt, rfl⟩
    have htake : digits.takeWhile isDigit = digits := List.takeWhile_eq_self_iff.mpr hnum.digit
    have hdrop : digits.dropWhile isDigit = [] := List.dropWhile_eq_nil_iff.mpr hnum.digit
    have hlen : ([] : List UInt8).length ≠ digits.length := by
      intro h
      exact hnum.nonempty (List.length_eq_zero_iff.mp h.symm)
    have hlt' : digits.foldl (fun value c => 10 * value + (c.toNat - 0x30)) 0 < 2 ^ 64 := hlt
    unfold strtoull
    rw [hnum.dropWhile_isSpace, readSign_append hnum.sign hnum.digit]
    dsimp only
    rw [readDigits_eq, htake, hdrop]
    dsimp only
    rw [if_neg hlen, if_neg (not_le.mpr hlt'), signedValue, decimalValue]
    simp only [decide_eq_true_eq]

end Voxtral
