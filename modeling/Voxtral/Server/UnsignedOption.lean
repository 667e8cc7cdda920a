import Voxtral.Lib.ReadNumber
import Voxtral.Stream.Tokenizer

/-!
# Numeric options

`parse_unsigned` of `server-config.cpp` reads the value of a numeric option with `strtoull`.  It
refuses a sign in front, but not white space, behind which `strtoull` takes a sign: the accepted
texts are the texts of digits, and the numerals behind white space.
-/

namespace Voxtral

/-- The bytes of a text of the source. -/
def literal (s : String) : Bytes := s.toUTF8.data.toList

/-- `parse_unsigned`: the value, or the message of the `ConfigError`. -/
def parseUnsigned (value name : Bytes) (minimum maximum : ℕ) : Except Bytes ℕ :=
  if value = [] ∨ value.head? = some 0x2D ∨ value.head? = some 0x2B then
    .error (name ++ literal " must be an unsigned integer")
  else
    let outside := name ++ literal " must be between " ++ literal (toString minimum) ++
      literal " and " ++ literal (toString maximum)
    match strtoull value with
    | none => .error outside
    | some (parsed, rest, range) =>
      -- `*end` is the NUL behind the string when everything was read
      if range = true ∨ rest.headD 0 ≠ 0 ∨ parsed < minimum ∨ maximum < parsed then .error outside
      else .ok parsed

/-- A number in decimal digits and nothing else, within the bounds. -/
def StrictNumber (v : Bytes) (minimum maximum n : ℕ) : Prop :=
  v ≠ [] ∧ (∀ c ∈ v, isDigit c = true) ∧ decimalValue v = n ∧ minimum ≤ n ∧ n ≤ maximum

/-- A numeral behind white space whose value, in 64-bit unsigned arithmetic, is within the bounds. -/
def PaddedNumber (v : Bytes) (minimum maximum : ℕ) : Prop :=
  ∃ blanks sign digits, IsNumeral v blanks sign digits ∧ blanks ≠ [] ∧
    decimalValue digits < 2 ^ 64 ∧ minimum ≤ signedValue sign digits ∧
      signedValue sign digits ≤ maximum

section Parse

variable {v name : Bytes} {minimum maximum n : ℕ}

/-- Without a NUL in the string, the number was read up to the end of the string. -/
lemma headD_eq_zero_iff {rest : Bytes} (hnul : (0 : UInt8) ∉ rest) : rest.headD 0 = 0 ↔ rest = [] := by
  constructor
  · intro h
    cases rest with
    | nil => rfl
    | cons c rest =>
      rw [List.headD_cons] at h
      exact absurd List.mem_cons_self (h ▸ hnul)
  · rintro rfl
    rfl

/-- What is left behind the digits is the end of the text. -/
lemma readDigits_suffix (value : ℕ) (text : Bytes) : (readDigits value text).2 <:+ text := by
  rw [readDigits_eq]
  exact List.dropWhile_suffix _

/-- The rest `strtoull` leaves is part of the string. -/
lemma strtoull_suffix {parsed : ℕ} {rest : Bytes} {range : Bool}
    (h : strtoull v = some (parsed, rest, range)) : rest <:+ v := by
  have hrest : (readDigits 0 (readSign (v.dropWhile isSpace)).2).2 = rest := by
    unfold strtoull at h
    dsimp only at h
    split_ifs at h <;> exact congrArg (fun r => r.2.1) (Option.some.inj h)
  obtain ⟨sign, -, hparts, -⟩ := exists_sign (v.dropWhile isSpace)
  rw [← hrest]
  refine (readDigits_suffix _ _).trans (List.IsSuffix.trans ?_ (List.dropWhile_suffix isSpace))
  exact ⟨sign, hparts.symm⟩

/-- The check of the first character refuses the numerals that start with a sign. -/
lemma IsNumeral.refused_iff {blanks sign digits : Bytes} (h : IsNumeral v blanks sign digits) :
    (v = [] ∨ v.head? = some 0x2D ∨ v.head? = some 0x2B) ↔ blanks = [] ∧ sign ≠ [] := by
  have hparts := h.parts
  cases blanks with
  | nil =>
    rcases h.sign with rfl | rfl | rfl
    · obtain ⟨c, rest, rfl⟩ := List.exists_cons_of_ne_nil h.nonempty
      have hc := h.digit c List.mem_cons_self
      have hminus : c ≠ 0x2D := by
        rintro rfl
        exact absurd hc (by decide)
      have hplus : c ≠ 0x2B := by
        rintro rfl
        exact absurd hc (by decide)
      simp [hparts, hminus, hplus]
    · simp [hparts]
    · simp [hparts]
  | cons c blanks =>
    have hc := h.blank c List.mem_cons_self
    have hminus : c ≠ 0x2D := by
      rintro rfl
      exact absurd hc (by decide)
    have hplus : c ≠ 0x2B := by
      rintro rfl
      exact absurd hc (by decide)
    simp [hparts, hminus, hplus]

/-- The accepted strings: numerals within the bounds that do not start with a sign. -/
lemma parseUnsigned_eq_ok_iff (hnul : (0 : UInt8) ∉ v) :
    parseUnsigned v name minimum maximum = .ok n ↔
      ∃ blanks sign digits, IsNumeral v blanks sign digits ∧ (blanks = [] → sign = []) ∧
        decimalValue digits < 2 ^ 64 ∧ n = signedValue sign digits ∧ minimum ≤ n ∧
          n ≤ maximum := by
  constructor
  · intro h
    unfold parseUnsigned at h
    by_cases hrefused : v = [] ∨ v.head? = some 0x2D ∨ v.head? = some 0x2B
    · rw [if_pos hrefused] at h
      exact absurd h nofun
    rw [if_neg hrefused] at h
    cases hread : strtoull v with
    | none =>
      rw [hread] at h
      exact absurd h nofun
    | some r =>
      obtain ⟨parsed, rest, range⟩ := r
      rw [hread] at h
      dsimp only at h
      split_ifs at h with hbad
      obtain ⟨hrange, hend, hlo, hhi⟩ := by simpa only [not_or] using hbad
      have hrest : rest = [] := by
        refine (headD_eq_zero_iff fun hmem => hnul ?_).mp (not_not.mp hend)
        exact (strtoull_suffix hread).subset hmem
      rw [hrest, Bool.eq_false_iff.mpr hrange] at hread
      obtain ⟨blanks, sign, digits, hnum, hlt, hvalue⟩ := strtoull_eq_some_iff.mp hread
      have hn : parsed = n := Except.ok.inj h
      refine ⟨blanks, sign, digits, hnum, ?_, hlt, hn ▸ hvalue, by omega, by omega⟩
      intro hblanks
      by_contra hsign
      exact hrefused (hnum.refused_iff.mpr ⟨hblanks, hsign⟩)
  · rintro ⟨blanks, sign, digits, hnum, hfirst, hlt, hn, hlo, hhi⟩
    have hread : strtoull v = some (n, [], false) :=
      strtoull_eq_some_iff.mpr ⟨blanks, sign, digits, hnum, hlt, hn⟩
    have hrefused : ¬ (v = [] ∨ v.head? = some 0x2D ∨ v.head? = some 0x2B) := by
      intro h
      obtain ⟨hblanks, hsign⟩ := hnum.refused_iff.mp h
      exact hsign (hfirst hblanks)
    have hbad : ¬ (false = true ∨ ([] : Bytes).headD 0 ≠ 0 ∨ n < minimum ∨ maximum < n) := by
      rintro (h | h | h | h)
      · exact Bool.false_ne_true h
      · exact h rfl
      · omega
      · omega
    unfold parseUnsigned
    rw [if_neg hrefused, hread]
    exact if_neg hbad

/-- A strict number below `2 ^ 64` is a numeral without white space and sign, and accepted. -/
lemma StrictNumber.accepted (h : StrictNumber v minimum maximum n) (hmax : maximum < 2 ^ 64)
    (hnul : (0 : UInt8) ∉ v) : parseUnsigned v name minimum maximum = .ok n := by
  obtain ⟨hne, hdigit, hvalue, hlo, hhi⟩ := h
  apply (parseUnsigned_eq_ok_iff hnul).mpr
  refine ⟨[], [], v, ⟨rfl, nofun, Or.inl rfl, hdigit, hne⟩, fun _ => rfl, by omega, ?_, hlo, hhi⟩
  rw [signedValue, if_neg (by simp), hvalue]

/-- **Strict numbers.**  `parse_unsigned` accepts the strict numbers and nothing else, except where white
space stands in front of a numeral within the bounds. -/
theorem parseUnsigned_strict_iff (v name : Bytes) (minimum maximum : ℕ) (hmax : maximum < 2 ^ 64)
    (hnul : (0 : UInt8) ∉ v) :
    (∀ n, parseUnsigned v name minimum maximum = .ok n ↔ StrictNumber v minimum maximum n) ↔
      ¬ PaddedNumber v minimum maximum := by
  constructor
  · rintro hstrict ⟨blanks, sign, digits, hnum, hblanks, hlt, hlo, hhi⟩
    have hok : parseUnsigned v name minimum maximum = .ok (signedValue sign digits) :=
      (parseUnsigned_eq_ok_iff hnul).mpr
        ⟨blanks, sign, digits, hnum, fun h => absurd h hblanks, hlt, rfl, hlo, hhi⟩
    obtain ⟨-, hdigit, -⟩ := (hstrict _).mp hok
    obtain ⟨c, rest, rfl⟩ := List.exists_cons_of_ne_nil hblanks
    have hspace := hnum.blank c List.mem_cons_self
    have hc : c ∈ v := by
      rw [hnum.parts]
      simp
    rw [not_isSpace_of_isDigit (hdigit c hc)] at hspace
    exact Bool.false_ne_true hspace
  · intro hpadded n
    constructor
    · intro hok
      obtain ⟨blanks, sign, digits, hnum, hfirst, hlt, rfl, hlo, hhi⟩ :=
        (parseUnsigned_eq_ok_iff hnul).mp hok
      have hblanks : blanks = [] := by
        by_contra hblanks
        exact hpadded ⟨blanks, sign, digits, hnum, hblanks, hlt, hlo, hhi⟩
      obtain rfl := hfirst hblanks
      have hv : v = digits := by rw [hnum.parts, hblanks]; rfl
      subst hv
      refine ⟨hnum.nonempty, hnum.digit, ?_, hlo, hhi⟩
      rw [signedValue, if_neg (by simp)]
    · intro hstrict
      exact hstrict.accepted hmax hnul

end Parse

/-- A port in digits alone is parsed strictly. -/
theorem parseUnsigned_strict_iff_port :
    parseUnsigned (literal "8123") (literal "--port") 1 65535 = .ok 8123 ∧
      StrictNumber (literal "8123") 1 65535 8123 := by
  have hstrict : ∀ n, parseUnsigned (literal "8123") (literal "--port") 1 65535 = .ok n ↔
      StrictNumber (literal "8123") 1 65535 n := by
    refine (parseUnsigned_strict_iff _ _ _ _ (by decide) (by decide)).mpr ?_
    rintro ⟨blanks, sign, digits, hnum, hblanks, -⟩
    obtain ⟨c, rest, rfl⟩ := List.exists_cons_of_ne_nil hblanks
    have hspace := hnum.blank c List.mem_cons_self
    have hdigits : ∀ d ∈ literal "8123", isSpace d = false := by decide +kernel
    have hc : c ∈ literal "8123" := by
      rw [hnum.parts]
      simp
    rw [hdigits c hc] at hspace
    exact Bool.false_ne_true hspace
  have hport : parseUnsigned (literal "8123") (literal "--port") 1 65535 = .ok 8123 := by decide +kernel
  exact ⟨hport, (hstrict 8123).mp hport⟩

/-- A port behind a blank is accepted. -/
theorem parseUnsigned_accepts_padded :
    ¬ ∀ (v name : Bytes) (minimum maximum : ℕ), minimum ≤ maximum → maximum < 2 ^ 64 →
      (0 : UInt8) ∉ v →
        ∀ n, parseUnsigned v name minimum maximum = .ok n ↔ StrictNumber v minimum maximum n := by
  intro hall
  have hport := hall (literal " 5") (literal "--port") 1 65535 (by decide) (by decide)
    (by decide) 5
  have hok : parseUnsigned (literal " 5") (literal "--port") 1 65535 = .ok 5 := by decide
  obtain ⟨-, hdigit, -⟩ := hport.mp hok
  exact absurd (hdigit 0x20 (by decide)) (by decide)

/-- Minus one behind a tab is the largest number. -/
example : parseUnsigned (literal "\t-1") (literal "--max") 1 (2 ^ 64 - 1) = .ok (2 ^ 64 - 1) := by
  decide

end Voxtral
