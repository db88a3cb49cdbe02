import ArkForge.Lib.Bytes
import Mathlib.Data.Nat.NthRoot.Defs

/-! # The secure hash standard

SHA-256 as FIPS 180-4 defines it, on messages of whole bytes, and HMAC as RFC 2104 defines it for any
hash. The constants are the standard's own: bits of the roots of the first primes. A length of `2 ^ 64`
bits or more, which the standard does not admit, is taken modulo `2 ^ 64`. -/

namespace ArkForge.Lib.SecureHash

open Bytes

abbrev Word : Type := BitVec 32

/-! ### Functions and constants -/

def ch (x y z : Word) : Word := (x &&& y) ^^^ (~~~x &&& z)

def maj (x y z : Word) : Word := (x &&& y) ^^^ (x &&& z) ^^^ (y &&& z)

def bigSigma0 (x : Word) : Word := x.rotateRight 2 ^^^ x.rotateRight 13 ^^^ x.rotateRight 22

def bigSigma1 (x : Word) : Word := x.rotateRight 6 ^^^ x.rotateRight 11 ^^^ x.rotateRight 25

def smallSigma0 (x : Word) : Word := x.rotateRight 7 ^^^ x.rotateRight 18 ^^^ (x >>> 3)

def smallSigma1 (x : Word) : Word := x.rotateRight 17 ^^^ x.rotateRight 19 ^^^ (x >>> 10)

def primes : List ℕ :=
  (List.range 312).filter fun n => 2 ≤ n ∧ ∀ d ∈ List.range n, 2 ≤ d → n % d ≠ 0

/-- The first 32 bits of the fractional part of the `k`th root of `p`. -/
def rootFraction (k p : ℕ) : Word := BitVec.ofNat 32 (Nat.nthRoot k (p * 2 ^ (32 * k)))

def constant (t : ℕ) : Word := rootFraction 3 (primes.getD t 0)

/-! ### Preprocessing -/

/-- The least number of zero bytes with which a message and its length fill whole blocks. -/
def paddingZeros (length : ℕ) : ℕ := (119 - length % 64) % 64

def pad (message : List UInt8) : List UInt8 :=
  message ++ 0x80 :: (List.replicate (paddingZeros message.length) 0 ++ beBytes 8 (8 * message.length))

/-! ### Computation -/

def schedule (block : List UInt8) (t : ℕ) : Word :=
  if t < 16 then BitVec.ofNat 32 (beNat ((block.drop (4 * t)).take 4))
  else smallSigma1 (schedule block (t - 2)) + schedule block (t - 7) +
    smallSigma0 (schedule block (t - 15)) + schedule block (t - 16)

/-- The eight working variables, or the eight words of a hash value. -/
structure Variables where
  a : Word
  b : Word
  c : Word
  d : Word
  e : Word
  f : Word
  g : Word
  h : Word

def initial : Variables where
  a := rootFraction 2 2
  b := rootFraction 2 3
  c := rootFraction 2 5
  d := rootFraction 2 7
  e := rootFraction 2 11
  f := rootFraction 2 13
  g := rootFraction 2 17
  h := rootFraction 2 19

def round (v : Variables) (k w : Word) : Variables :=
  let t1 := v.h + bigSigma1 v.e + ch v.e v.f v.g + k + w
  let t2 := bigSigma0 v.a + maj v.a v.b v.c
  { a := t1 + t2, b := v.a, c := v.b, d := v.c, e := v.d + t1, f := v.e, g := v.f, h := v.g }

def rounds (v : Variables) (block : List UInt8) : ℕ → Variables
  | 0 => v
  | t + 1 => round (rounds v block t) (constant t) (schedule block t)

def nextHash (v : Variables) (block : List UInt8) : Variables :=
  let w := rounds v block 64
  { a := w.a + v.a, b := w.b + v.b, c := w.c + v.c, d := w.d + v.d, e := w.e + v.e, f := w.f + v.f,
    g := w.g + v.g, h := w.h + v.h }

def hashValue (message : List UInt8) : ℕ → Variables
  | 0 => initial
  | n + 1 => nextHash (hashValue message n) ((message.drop (64 * n)).take 64)

def Variables.toBytes (v : Variables) : List UInt8 :=
  [v.a, v.b, v.c, v.d, v.e, v.f, v.g, v.h].flatMap fun x => beBytes 4 x.toNat

def sha256 (message : List UInt8) : List UInt8 :=
  (hashValue (pad message) ((pad message).length / 64)).toBytes

/-- HMAC over a hash with blocks of `B` bytes. -/
def hmac (hash : List UInt8 → List UInt8) (B : ℕ) (key text : List UInt8) : List UInt8 :=
  let short := if key.length ≤ B then key else hash key
  let block := short ++ List.replicate (B - short.length) 0
  hash (block.map (· ^^^ 0x5c) ++ hash (block.map (· ^^^ 0x36) ++ text))

end ArkForge.Lib.SecureHash
