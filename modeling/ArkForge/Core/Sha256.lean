import ArkForge.Lib.Bytes

/-! # SHA-256

The streaming hash of FIPS 180-4 as the source keeps it: eight words of state, the bytes waiting for
a full block, and the bit length, which wraps at `2 ^ 64`. The buffer of the source has 64 places of
which only the first `buffered` are ever read; here it is those bytes alone, fewer than 64 between
calls. -/

namespace ArkForge.Core.Digest

open Lib.Bytes

def K : List UInt32 := [
  0x428a2f98, 0x71374491, 0xb5c0fbcf, 0xe9b5dba5, 0x3956c25b, 0x59f111f1, 0x923f82a4, 0xab1c5ed5,
  0xd807aa98, 0x12835b01, 0x243185be, 0x550c7dc3, 0x72be5d74, 0x80deb1fe, 0x9bdc06a7, 0xc19bf174,
  0xe49b69c1, 0xefbe4786, 0x0fc19dc6, 0x240ca1cc, 0x2de92c6f, 0x4a7484aa, 0x5cb0a9dc, 0x76f988da,
  0x983e5152, 0xa831c66d, 0xb00327c8, 0xbf597fc7, 0xc6e00bf3, 0xd5a79147, 0x06ca6351, 0x14292967,
  0x27b70a85, 0x2e1b2138, 0x4d2c6dfc, 0x53380d13, 0x650a7354, 0x766a0abb, 0x81c2c92e, 0x92722c85,
  0xa2bfe8a1, 0xa81a664b, 0xc24b8b70, 0xc76c51a3, 0xd192e819, 0xd6990624, 0xf40e3585, 0x106aa070,
  0x19a4c116, 0x1e376c08, 0x2748774c, 0x34b0bcb5, 0x391c0cb3, 0x4ed8aa4a, 0x5b9cca4f, 0x682e6ff3,
  0x748f82ee, 0x78a5636f, 0x84c87814, 0x8cc70208, 0x90befffa, 0xa4506ceb, 0xbef9a3f7, 0xc67178f2]

structure Words where
  a : UInt32
  b : UInt32
  c : UInt32
  d : UInt32
  e : UInt32
  f : UInt32
  g : UInt32
  h : UInt32
  deriving DecidableEq

def IV : Words where
  a := 0x6a09e667
  b := 0xbb67ae85
  c := 0x3c6ef372
  d := 0xa54ff53a
  e := 0x510e527f
  f := 0x9b05688c
  g := 0x1f83d9ab
  h := 0x5be0cd19

@[ext] structure Sha256Digest where
  bytes : List UInt8
  length_eq : bytes.length = 32
  deriving DecidableEq

def rotateRight (x : UInt32) (n : UInt32) : UInt32 := (x >>> n) ||| (x <<< (32 - n))

/-- The message schedule, one word longer. -/
def scheduleStep (w : List UInt32) : List UInt32 :=
  let index := w.length
  let x := w.getD (index - 15) 0
  let y := w.getD (index - 2) 0
  let s0 := rotateRight x 7 ^^^ rotateRight x 18 ^^^ (x >>> 3)
  let s1 := rotateRight y 17 ^^^ rotateRight y 19 ^^^ (y >>> 10)
  w ++ [w.getD (index - 16) 0 + s0 + w.getD (index - 7) 0 + s1]

def schedule (block : List UInt8) : List UInt32 :=
  scheduleStep^[48]
    ((List.range 16).map fun index => UInt32.ofNat (beNat ((block.drop (index * 4)).take 4)))

def round (v : Words) (kw : UInt32 × UInt32) : Words :=
  let s1 := rotateRight v.e 6 ^^^ rotateRight v.e 11 ^^^ rotateRight v.e 25
  let ch := (v.e &&& v.f) ^^^ (~~~v.e &&& v.g)
  let temp1 := v.h + s1 + ch + kw.1 + kw.2
  let s0 := rotateRight v.a 2 ^^^ rotateRight v.a 13 ^^^ rotateRight v.a 22
  let maj := (v.a &&& v.b) ^^^ (v.a &&& v.c) ^^^ (v.b &&& v.c)
  let temp2 := s0 + maj
  { a := temp1 + temp2, b := v.a, c := v.b, d := v.c, e := v.d + temp1, f := v.e, g := v.f,
    h := v.g }

def compress (state : Words) (block : List UInt8) : Words :=
  let v := (K.zip (schedule block)).foldl round state
  { a := state.a + v.a, b := state.b + v.b, c := state.c + v.c, d := state.d + v.d,
    e := state.e + v.e, f := state.f + v.f, g := state.g + v.g, h := state.h + v.h }

/-- The loop over the full blocks of `data`: the state behind them, and the bytes left. -/
def compressBlocks (state : Words) (data : List UInt8) : Words × List UInt8 :=
  if 64 ≤ data.length then compressBlocks (compress state (data.take 64)) (data.drop 64)
  else (state, data)
termination_by data.length
decreasing_by rw [List.length_drop]; omega

theorem compressBlocks_rest_lt (state : Words) (data : List UInt8) :
    (compressBlocks state data).2.length < 64 := by
  fun_induction compressBlocks state data with
  | case1 state data h ih => exact ih
  | case2 state data h => exact Nat.lt_of_not_le h

theorem compressBlocks_append (state : Words) (a b : List UInt8) :
    compressBlocks state (a ++ b) =
      compressBlocks (compressBlocks state a).1 ((compressBlocks state a).2 ++ b) := by
  fun_induction compressBlocks state a with
  | case1 state a h ih =>
    rw [← ih, compressBlocks, if_pos (by rw [List.length_append]; omega),
      List.take_append_of_le_length h, List.drop_append_of_le_length h]
  | case2 state a h => rfl

/-- Fills a buffer that already holds something, and compresses it once it is full: the state, the
bytes still buffered, and the data left. -/
def fillBuffer (state : Words) (buffer data : List UInt8) : Words × List UInt8 × List UInt8 :=
  if buffer = [] then (state, [], data)
  else
    let filled := buffer ++ data.take (64 - buffer.length)
    let rest := data.drop (64 - buffer.length)
    if filled.length = 64 then (compress state filled, [], rest) else (state, filled, rest)

/-- The buffer first, then the full blocks, and what is left goes to the buffer. -/
def absorb (state : Words) (buffer data : List UInt8) : Words × List UInt8 :=
  let (state, buffer, data) := fillBuffer state buffer data
  let (state, data) := compressBlocks state data
  (state, if data = [] then buffer else data)

theorem keep_rest (p : Words × List UInt8) : (p.1, if p.2 = [] then [] else p.2) = p := by
  by_cases h : p.2 = []
  · rw [if_pos h, ← h]
  · rw [if_neg h]

theorem absorb_eq {state : Words} {buffer data : List UInt8} (hb : buffer.length < 64) :
    absorb state buffer data = compressBlocks state (buffer ++ data) := by
  by_cases hnil : buffer = []
  · simp [absorb, fillBuffer, hnil, keep_rest]
  by_cases hfull : 64 ≤ buffer.length + data.length
  · have hfilled : (buffer ++ data.take (64 - buffer.length)).length = 64 := by
      rw [List.length_append, List.length_take]; omega
    have htake : (buffer ++ data).take 64 = buffer ++ data.take (64 - buffer.length) := by
      rw [List.take_append, List.take_of_length_le hb.le]
    have hdrop : (buffer ++ data).drop 64 = data.drop (64 - buffer.length) := by
      rw [List.drop_append, List.drop_of_length_le hb.le, List.nil_append]
    rw [compressBlocks, if_pos (by rwa [List.length_append]), htake, hdrop]
    simp only [absorb, fillBuffer, if_neg hnil, if_pos hfilled, keep_rest]
  · -- the data ends inside the buffer
    have htake : data.take (64 - buffer.length) = data := List.take_of_length_le (by omega)
    have hdrop : data.drop (64 - buffer.length) = [] := List.drop_of_length_le (by omega)
    have hne : ¬ (buffer ++ data).length = 64 := by rw [List.length_append]; omega
    have hlt : ¬ 64 ≤ (buffer ++ data).length := by rwa [List.length_append]
    have hnone : compressBlocks state [] = (state, []) := by
      rw [compressBlocks, if_neg (by decide)]
    rw [compressBlocks, if_neg hlt]
    simp only [absorb, fillBuffer, if_neg hnil, htake, hdrop, if_neg hne, hnone, if_pos]

@[ext] structure Sha256 where
  state : Words
  buffer : List UInt8
  lengthBits : UInt64
  buffered_lt : buffer.length < 64

namespace Sha256

def new : Sha256 where
  state := IV
  buffer := []
  lengthBits := 0
  buffered_lt := by decide

def addLength (h : Sha256) (data : List UInt8) : UInt64 :=
  h.lengthBits + UInt64.ofNat data.length * 8

def update (h : Sha256) (data : List UInt8) : Sha256 where
  state := (absorb h.state h.buffer data).1
  buffer := (absorb h.state h.buffer data).2
  lengthBits := h.addLength data
  buffered_lt := by
    rw [absorb_eq h.buffered_lt]
    exact compressBlocks_rest_lt _ _

@[simp] theorem update_nil (h : Sha256) : h.update [] = h := by
  have hblocks : absorb h.state h.buffer [] = (h.state, h.buffer) := by
    rw [absorb_eq h.buffered_lt, List.append_nil, compressBlocks, if_neg (Nat.not_le.mpr h.buffered_lt)]
  refine Sha256.ext (congrArg Prod.fst hblocks) (congrArg Prod.snd hblocks) ?_
  change h.lengthBits + 0 * 8 = h.lengthBits
  rw [UInt64.zero_mul, UInt64.add_zero]

theorem update_append (h : Sha256) (a b : List UInt8) :
    h.update (a ++ b) = (h.update a).update b := by
  have hblocks : absorb h.state h.buffer (a ++ b) =
      absorb (h.update a).state (h.update a).buffer b := by
    rw [absorb_eq h.buffered_lt, absorb_eq (h.update a).buffered_lt, ← List.append_assoc,
      compressBlocks_append, ← absorb_eq h.buffered_lt]
    rfl
  refine Sha256.ext (congrArg Prod.fst hblocks) (congrArg Prod.snd hblocks) ?_
  change h.lengthBits + UInt64.ofNat (a ++ b).length * 8 =
    h.lengthBits + UInt64.ofNat a.length * 8 + UInt64.ofNat b.length * 8
  rw [List.length_append, UInt64.ofNat_add, UInt64.add_mul, UInt64.add_assoc]

/-- The padding `finalize` feeds behind the message: `0x80`, zeros, and the bit length. -/
def padding (h : Sha256) : List UInt8 :=
  let padLen := if h.buffer.length < 56 then 56 - h.buffer.length else 120 - h.buffer.length
  0x80 :: List.replicate (padLen - 1) 0 ++ beBytes 8 h.lengthBits.toNat

/-- The digest of what was taken in. -/
def finalize (h : Sha256) : Sha256Digest where
  bytes :=
    let w := (compressBlocks h.state (h.buffer ++ h.padding)).1
    [w.a, w.b, w.c, w.d, w.e, w.f, w.g, w.h].flatMap fun x => beBytes 4 x.toNat
  length_eq := by simp

end Sha256

def sha256 (data : List UInt8) : Sha256Digest := (Sha256.new.update data).finalize

namespace Sha256Digest

def hexNibble (value : UInt8) : Char :=
  if value ≤ 9 then Char.ofNat (48 + value.toNat) else Char.ofNat (87 + value.toNat)

/-- The lowercase hexadecimal form, which is also how a digest is displayed. -/
def toHex (d : Sha256Digest) : String :=
  String.ofList (d.bytes.flatMap fun byte : UInt8 =>
    [hexNibble (byte >>> (4 : UInt8)), hexNibble (byte &&& (0x0f : UInt8))])

theorem toHex_ne_empty (d : Sha256Digest) : d.toHex ≠ "" := by
  intro h
  have hl := congrArg (fun s => s.toList.length) h
  simp [toHex, d.length_eq] at hl

end Sha256Digest

-- the published one-block vector
example : (sha256 [97, 98, 99]).toHex =
    "ba7816bf8f01cfea414140de5dae2223b00361a396177a9cb410ff61f20015ad" := by
  decide +kernel

end ArkForge.Core.Digest
