import Mathlib.Data.List.Range
import Mathlib.Data.Nat.NthRoot.Defs
import Mathlib.Data.Nat.Prime.Basic

/-!
# SHA-256

The hash of FIPS 180-4 for messages of whole bytes: the functions of section 4.1.2, the constants of
sections 4.2.2 and 5.3.3, the padding of section 5.1.1 and the computation of section 6.2.2.

The constants are the first 32 bits of the fractional parts of the roots of the first primes.  The message
schedule is the recurrence of the standard, and a message is compressed block after block.
-/

namespace Voxtral

/-- The eight 32-bit words of a hash value, which are also the working variables. -/
@[ext]
structure HashWords where
  a : UInt32
  b : UInt32
  c : UInt32
  d : UInt32
  e : UInt32
  f : UInt32
  g : UInt32
  h : UInt32
  deriving DecidableEq

namespace HashWords

/-- The words in order. -/
def toList (v : HashWords) : List UInt32 := [v.a, v.b, v.c, v.d, v.e, v.f, v.g, v.h]

/-- Word by word addition modulo `2 ^ 32`. -/
def add (v w : HashWords) : HashWords where
  a := v.a + w.a
  b := v.b + w.b
  c := v.c + w.c
  d := v.d + w.d
  e := v.e + w.e
  f := v.f + w.f
  g := v.g + w.g
  h := v.h + w.h

end HashWords

namespace Sha256Spec

/-! ## Functions -/

/-- `ROTR^n`. -/
def rotr (n : UInt32) (x : UInt32) : UInt32 := (x >>> n) ||| (x <<< (32 - n))

/-- `Ch`. -/
def ch (x y z : UInt32) : UInt32 := (x &&& y) ^^^ (~~~x &&& z)

/-- `Maj`. -/
def maj (x y z : UInt32) : UInt32 := (x &&& y) ^^^ (x &&& z) ^^^ (y &&& z)

/-- `Σ0`. -/
def bigSigma0 (x : UInt32) : UInt32 := rotr 2 x ^^^ rotr 13 x ^^^ rotr 22 x

/-- `Σ1`. -/
def bigSigma1 (x : UInt32) : UInt32 := rotr 6 x ^^^ rotr 11 x ^^^ rotr 25 x

/-- `σ0`. -/
def smallSigma0 (x : UInt32) : UInt32 := rotr 7 x ^^^ rotr 18 x ^^^ (x >>> 3)

/-- `σ1`. -/
def smallSigma1 (x : UInt32) : UInt32 := rotr 17 x ^^^ rotr 19 x ^^^ (x >>> 10)

/-! ## Constants -/

/-- The first 32 bits of the fractional part of the `n`-th root of `p`. -/
def rootFraction (n p : ℕ) : UInt32 := UInt32.ofNat (Nat.nthRoot n (p * 2 ^ (32 * n)))

/-- The first 64 primes. -/
def primes : List ℕ := (List.range 312).filter Nat.Prime

/-- `K`: from the cube roots of the first 64 primes. -/
def constants : List UInt32 := primes.map (rootFraction 3)

/-- `H⁽⁰⁾`: from the square roots of the first eight primes. -/
def initial : HashWords where
  a := rootFraction 2 2
  b := rootFraction 2 3
  c := rootFraction 2 5
  d := rootFraction 2 7
  e := rootFraction 2 11
  f := rootFraction 2 13
  g := rootFraction 2 17
  h := rootFraction 2 19

/-! ## Padding -/

/-- The zero bytes between the byte `0x80` and the length: the fewest that make whole blocks. -/
def zeroBytes (n : ℕ) : ℕ := (119 - n % 64) % 64

/-- The length of a message in bits as a 64-bit big-endian number. -/
def lengthBytes (n : ℕ) : List UInt8 :=
  (List.range 8).map fun i => UInt8.ofNat (8 * n / 256 ^ (7 - i))

/-- The padded message. -/
def pad (m : List UInt8) : List UInt8 :=
  m ++ 0x80 :: (List.replicate (zeroBytes m.length) 0 ++ lengthBytes m.length)

/-! ## Computation -/

/-- The word of a block at index `t`. -/
def wordOf (block : List UInt8) (t : ℕ) : UInt32 :=
  UInt32.ofNat ((block.getD (4 * t) 0).toNat * 2 ^ 24 + (block.getD (4 * t + 1) 0).toNat * 2 ^ 16 +
    (block.getD (4 * t + 2) 0).toNat * 2 ^ 8 + (block.getD (4 * t + 3) 0).toNat)

/-- `W_t`. -/
def schedule (block : List UInt8) (t : ℕ) : UInt32 :=
  if t < 16 then wordOf block t
  else
    smallSigma1 (schedule block (t - 2)) + schedule block (t - 7) +
      smallSigma0 (schedule block (t - 15)) + schedule block (t - 16)
termination_by t

/-- One round, on the constant `k` and the word `w` of the schedule. -/
def round (k w : UInt32) (v : HashWords) : HashWords :=
  let t1 := v.h + bigSigma1 v.e + ch v.e v.f v.g + k + w
  let t2 := bigSigma0 v.a + maj v.a v.b v.c
  { a := t1 + t2, b := v.a, c := v.b, d := v.c, e := v.d + t1, f := v.e, g := v.f, h := v.g }

/-- The working variables after the rounds below `n`. -/
def rounds (block : List UInt8) (v : HashWords) : ℕ → HashWords
  | 0 => v
  | t + 1 => round (constants.getD t 0) (schedule block t) (rounds block v t)

/-- The hash value after one more block. -/
def compress (v : HashWords) (block : List UInt8) : HashWords := v.add (rounds block v 64)

/-- The block of a message at index `i`. -/
def blockAt (m : List UInt8) (i : ℕ) : List UInt8 := (m.drop (64 * i)).take 64

/-- The hash value after the blocks below `n` of a message. -/
def chain (m : List UInt8) : ℕ → HashWords
  | 0 => initial
  | i + 1 => compress (chain m i) (blockAt m i)

/-- The hash value of a message. -/
def hash (m : List UInt8) : HashWords := chain (pad m) ((pad m).length / 64)

/-- A word in eight hexadecimal digits. -/
def hexWord (w : UInt32) : List Char :=
  (List.range 8).map fun i => Nat.digitChar (w.toNat / 16 ^ (7 - i) % 16)

/-- The digest of a message in hexadecimal digits. -/
def hexDigest (m : List UInt8) : List Char := (hash m).toList.flatMap hexWord

/-! ## Chaining -/

/-- The blocks of a message are not changed by what follows them. -/
lemma chain_append (m m' : List UInt8) {n : ℕ} (hn : 64 * n ≤ m.length) :
    chain (m ++ m') n = chain m n := by
  induction n with
  | zero => rfl
  | succ n ih =>
    have hblock : blockAt (m ++ m') n = blockAt m n := by
      unfold blockAt
      rw [List.drop_append_of_le_length (by omega), List.take_append_of_le_length]
      rw [List.length_drop]
      omega
    rw [chain, chain, hblock, ih (by omega)]

end Sha256Spec

end Voxtral
