import ArkForge.Core.Digest
import ArkForge.Lib.SecureHash

/-! # The hash is the standard's

The streaming hash, fed in any parts, gives the SHA-256 of the joined parts; the constants typed into
the source are the roots the standard asks for. HMAC is that of RFC 2104, and a digest is read back
from its hexadecimal form and from no other text. -/

namespace ArkForge.Core.HashStandard

open Lib.Bytes Lib.Result
open Cbor Digest
open Lib

/-! ### Blocks -/

def asVariables (w : Words) : SecureHash.Variables where
  a := w.a.toBitVec
  b := w.b.toBitVec
  c := w.c.toBitVec
  d := w.d.toBitVec
  e := w.e.toBitVec
  f := w.f.toBitVec
  g := w.g.toBitVec
  h := w.h.toBitVec

theorem K_eq : K = (List.range 64).map fun t => ⟨SecureHash.constant t⟩ := by decide +kernel

theorem asVariables_IV : asVariables IV = SecureHash.initial := by
  have hroots : [IV.a.toBitVec, IV.b.toBitVec, IV.c.toBitVec, IV.d.toBitVec, IV.e.toBitVec,
      IV.f.toBitVec, IV.g.toBitVec, IV.h.toBitVec] =
      [2, 3, 5, 7, 11, 13, 17, 19].map (SecureHash.rootFraction 2) := by decide +kernel
  simp only [List.map_cons, List.cons.injEq] at hroots
  obtain ⟨ha, hb, hc, hd, he, hf, hg, hh, -⟩ := hroots
  simp only [asVariables, SecureHash.initial, ha, hb, hc, hd, he, hf, hg, hh]

/-- The schedule of the standard, as words of the machine. -/
def word (block : List UInt8) (t : ℕ) : UInt32 := ⟨SecureHash.schedule block t⟩

theorem scheduleStep_map {block : List UInt8} {n : ℕ} (hn : 16 ≤ n) :
    scheduleStep ((List.range n).map (word block)) = (List.range (n + 1)).map (word block) := by
  have hget : ∀ i < n, ((List.range n).map (word block)).getD i 0 = word block i := by
    intro i hi
    simp [hi]
  have hnew : word block n = word block (n - 16) +
      (rotateRight (word block (n - 15)) 7 ^^^ rotateRight (word block (n - 15)) 18 ^^^
        (word block (n - 15) >>> 3)) + word block (n - 7) +
      (rotateRight (word block (n - 2)) 17 ^^^ rotateRight (word block (n - 2)) 19 ^^^
        (word block (n - 2) >>> 10)) := by
    refine UInt32.toBitVec_inj.mp ?_
    show SecureHash.schedule block n = SecureHash.schedule block (n - 16) +
      SecureHash.smallSigma0 (SecureHash.schedule block (n - 15)) +
      SecureHash.schedule block (n - 7) + SecureHash.smallSigma1 (SecureHash.schedule block (n - 2))
    rw [SecureHash.schedule, if_neg (by omega)]
    ac_rfl
  unfold scheduleStep
  simp only [List.length_map, List.length_range]
  rw [hget _ (by omega), hget _ (by omega), hget _ (by omega), hget _ (by omega), ← hnew,
    List.range_succ, List.map_append, List.map_singleton]

theorem schedule_eq (block : List UInt8) : schedule block = (List.range 64).map (word block) := by
  have hsteps : ∀ k, scheduleStep^[k] ((List.range 16).map (word block)) =
      (List.range (16 + k)).map (word block) := by
    intro k
    induction k with
    | zero => rfl
    | succ k ih => rw [Function.iterate_succ_apply', ih, scheduleStep_map (by omega), Nat.add_assoc]
  have hfirst : ((List.range 16).map fun index =>
      UInt32.ofNat (beNat ((block.drop (index * 4)).take 4))) = (List.range 16).map (word block) := by
    refine List.map_congr_left fun t ht => ?_
    unfold word SecureHash.schedule
    rw [if_pos (List.mem_range.mp ht), Nat.mul_comm]
    rfl
  rw [schedule, hfirst, hsteps]

theorem rounds_eq (state : Words) (block : List UInt8) (n : ℕ) :
    asVariables (((List.range n).map fun t => ((⟨SecureHash.constant t⟩ : UInt32), word block t)).foldl
      round state) = SecureHash.rounds (asVariables state) block n := by
  induction n with
  | zero => rfl
  | succ n ih =>
    rw [List.range_succ, List.map_append, List.foldl_append, SecureHash.rounds, ← ih]
    rfl

theorem asVariables_compress (state : Words) (block : List UInt8) :
    asVariables (compress state block) = SecureHash.nextHash (asVariables state) block := by
  have hzip : K.zip (schedule block) =
      (List.range 64).map fun t => (⟨SecureHash.constant t⟩, word block t) := by
    rw [K_eq, schedule_eq, List.zip_map']
  unfold SecureHash.nextHash compress
  rw [hzip, ← rounds_eq state block 64]
  simp only [asVariables, UInt32.toBitVec_add, BitVec.add_comm]

/-! ### Messages -/

theorem compressBlocks_take {message : List UInt8} : ∀ {n : ℕ}, 64 * n ≤ message.length →
    ∃ state, compressBlocks IV (message.take (64 * n)) = (state, []) ∧
      asVariables state = SecureHash.hashValue message n
  | 0, _ => ⟨IV, by rw [List.take_zero, compressBlocks, if_neg (by decide)], asVariables_IV⟩
  | n + 1, h => by
    obtain ⟨state, hstate, hvalue⟩ := @compressBlocks_take message n (by omega)
    have hblock : ((message.drop (64 * n)).take 64).length = 64 := by
      rw [List.length_take, List.length_drop]
      omega
    have hone : compressBlocks state ((message.drop (64 * n)).take 64) =
        (compress state ((message.drop (64 * n)).take 64), []) := by
      rw [compressBlocks, if_pos hblock.ge, List.take_of_length_le hblock.le,
        List.drop_of_length_le hblock.le, compressBlocks, if_neg (by decide)]
    refine ⟨compress state ((message.drop (64 * n)).take 64), ?_, ?_⟩
    · rw [Nat.mul_add_one, List.take_add, compressBlocks_append, hstate, List.nil_append, hone]
    · rw [asVariables_compress, hvalue, SecureHash.hashValue]

theorem length_rest (state : Words) (data : List UInt8) :
    (compressBlocks state data).2.length = data.length % 64 := by
  fun_induction compressBlocks state data with
  | case1 state data h ih =>
    rw [ih, List.length_drop]
    omega
  | case2 state data h => exact (Nat.mod_eq_of_lt (Nat.lt_of_not_le h)).symm

theorem beBytes_mod (n : ℕ) : beBytes 8 (n % 2 ^ 64) = beBytes 8 n := by
  have hsplit := beBytes_add_mul 8 (n / 2 ^ 64) 8 (n % 2 ^ 64) le_rfl
  rw [show n / 2 ^ 64 * 256 ^ 8 + n % 2 ^ 64 = n by omega] at hsplit
  exact hsplit.symm

/-- The padding of a message that was taken in is the standard's. -/
theorem padding_eq (data : List UInt8) :
    data ++ (Sha256.new.update data).padding = SecureHash.pad data := by
  have hbuffer : (Sha256.new.update data).buffer.length = data.length % 64 := by
    show (absorb IV [] data).2.length = _
    rw [absorb_eq (by decide), List.nil_append, length_rest]
  have hlength : (Sha256.new.update data).lengthBits.toNat = 8 * data.length % 2 ^ 64 := by
    show ((0 : UInt64) + UInt64.ofNat data.length * 8).toNat = _
    rw [UInt64.zero_add, UInt64.toNat_mul, UInt64.toNat_ofNat', show (8 : UInt64).toNat = 8 from rfl]
    omega
  have hzeros : (if data.length % 64 < 56 then 56 - data.length % 64 else 120 - data.length % 64) - 1 =
      SecureHash.paddingZeros data.length := by
    unfold SecureHash.paddingZeros
    split_ifs <;> omega
  unfold Sha256.padding SecureHash.pad
  simp only [hbuffer, hlength, beBytes_mod, hzeros, List.cons_append]

theorem length_pad (data : List UInt8) : 64 * ((SecureHash.pad data).length / 64) =
    (SecureHash.pad data).length := by
  simp only [SecureHash.pad, SecureHash.paddingZeros, List.length_append, List.length_cons,
    List.length_replicate, length_beBytes]
  omega

theorem compressBlocks_padding (data : List UInt8) : compressBlocks (Sha256.new.update data).state
    ((Sha256.new.update data).buffer ++ (Sha256.new.update data).padding) =
      compressBlocks IV (SecureHash.pad data) := by
  have habsorb : absorb IV [] data = compressBlocks IV data := absorb_eq (by decide)
  have hstate : (Sha256.new.update data).state = (compressBlocks IV data).1 :=
    congrArg Prod.fst habsorb
  have hbuffer : (Sha256.new.update data).buffer = (compressBlocks IV data).2 :=
    congrArg Prod.snd habsorb
  rw [← padding_eq, compressBlocks_append IV data, hstate, hbuffer]

theorem sha256_eq (data : List UInt8) : (sha256 data).bytes = SecureHash.sha256 data := by
  have hfinal : ∀ h : Sha256, h.finalize.bytes =
      (asVariables (compressBlocks h.state (h.buffer ++ h.padding)).1).toBytes := fun _ => rfl
  obtain ⟨state, hstate, hvalue⟩ := compressBlocks_take (length_pad data).le
  rw [length_pad, List.take_of_length_le le_rfl] at hstate
  rw [sha256, hfinal, compressBlocks_padding, hstate, hvalue, SecureHash.sha256]

theorem foldl_update (h : Sha256) (parts : List (List UInt8)) :
    parts.foldl Sha256.update h = h.update parts.flatten := by
  induction parts generalizing h with
  | nil => exact h.update_nil.symm
  | cons part parts ih => rw [List.foldl_cons, ih, List.flatten_cons, Sha256.update_append]

theorem hmac_eq (key message : List UInt8) :
    (hmacSha256 key message).bytes = SecureHash.hmac SecureHash.sha256 64 key message := by
  have hjoin : ∀ a b, ((Sha256.new.update a).update b).finalize = sha256 (a ++ b) := fun a b => by
    rw [sha256, Sha256.update_append]
  have hkey : paddedKey key =
      (if key.length ≤ 64 then key else SecureHash.sha256 key) ++
        List.replicate (64 - (if key.length ≤ 64 then key else SecureHash.sha256 key).length) 0 := by
    unfold paddedKey
    by_cases hlong : 64 < key.length
    · rw [if_pos hlong, if_neg (by omega), ← sha256_eq, (sha256 key).length_eq]
    · rw [if_neg hlong, if_pos (by omega)]
  unfold hmacSha256 SecureHash.hmac
  simp only [hjoin, sha256_eq, ← hkey]

/-! ### Hexadecimal -/

inductive DigestParseError where
  | length (found : ℕ)
  | character (found : Char)
  deriving DecidableEq

def hexValue (byte : UInt8) : Except DigestParseError UInt8 :=
  if 48 ≤ byte ∧ byte ≤ 57 then .ok (byte - 48)
  else if 97 ≤ byte ∧ byte ≤ 102 then .ok (byte - 97 + 10)
  else .error (.character (Char.ofNat byte.toNat))

/-- The loop of `parse_hex`, over two bytes at a time. -/
def hexPairs : (n : ℕ) → (bytes : List UInt8) → bytes.length = 2 * n →
    Except DigestParseError {out : List UInt8 // out.length = n}
  | 0, _, _ => .ok ⟨[], rfl⟩
  | n + 1, high :: low :: rest, h => do
    let high ← hexValue high
    let low ← hexValue low
    let out ← hexPairs n rest (by simp only [List.length_cons] at h; omega)
    return ⟨(high <<< 4 ||| low) :: out.1, by rw [List.length_cons, out.2]⟩

def parseHex (text : String) : Except DigestParseError Sha256Digest :=
  if h : (utf8 text).length = 64 then do
    let out ← hexPairs 32 (utf8 text) h
    return ⟨out.1, out.2⟩
  else .error (.length (utf8 text).length)

/-- The byte of a digit. -/
def nibbleByte (value : UInt8) : UInt8 := if value ≤ 9 then 48 + value else 87 + value

theorem hexValue_eq_ok {byte value : UInt8} :
    hexValue byte = .ok value ↔ value ≤ 15 ∧ byte = nibbleByte value := by
  have hread : ∀ byte, (hexValue byte).toOption.all fun v => v ≤ 15 ∧ byte = nibbleByte v := by
    decide +kernel
  have hwritten : ∀ v ≤ 15, hexValue (nibbleByte v) = .ok v := by
    decide +kernel
  constructor
  · intro h
    have hbyte := hread byte
    rw [h] at hbyte
    exact of_decide_eq_true hbyte
  · rintro ⟨hle, rfl⟩
    exact hwritten value hle

def digits (bytes : List UInt8) : List UInt8 :=
  bytes.flatMap fun byte : UInt8 => [nibbleByte (byte >>> 4), nibbleByte (byte &&& 0x0f)]

theorem nibbles : ∀ high : UInt8, high ≤ 15 → ∀ low : UInt8, low ≤ 15 →
    (high <<< 4 ||| low) >>> 4 = high ∧ (high <<< 4 ||| low) &&& 0x0f = low := by
  decide +kernel

theorem join_nibbles : ∀ byte : UInt8, (byte >>> 4) <<< 4 ||| (byte &&& 0x0f) = byte ∧
    byte >>> 4 ≤ 15 ∧ byte &&& 0x0f ≤ 15 := by
  decide +kernel

theorem hexPairs_eq_ok : ∀ {n : ℕ} {bytes : List UInt8} {h : bytes.length = 2 * n}
    {out : {out : List UInt8 // out.length = n}},
    hexPairs n bytes h = .ok out ↔ bytes = digits out.1
  | 0, bytes, h, out => by
    obtain rfl : bytes = [] := List.length_eq_zero_iff.mp h
    have hout : out.1 = [] := List.length_eq_zero_iff.mp out.2
    rw [hout]
    exact iff_of_true (congrArg Except.ok (Subtype.ext hout.symm)) rfl
  | n + 1, [], h, out => absurd h (by simp)
  | n + 1, [_], h, out => absurd h (by simp; omega)
  | n + 1, high :: low :: rest, h, ⟨byte :: out, hout⟩ => by
    have ih := fun out' => @hexPairs_eq_ok n rest (by simp only [List.length_cons] at h; omega) out'
    simp only [hexPairs, bind_eq_ok, ih, hexValue_eq_ok]
    constructor
    · rintro ⟨h', ⟨hh', rfl⟩, l', ⟨hl', rfl⟩, out', rfl, hsame⟩
      obtain ⟨rfl, rfl⟩ := List.cons.inj (Subtype.ext_iff.mp (Except.ok.inj hsame))
      obtain ⟨hhigh, hlow⟩ := nibbles h' hh' l' hl'
      simp only [digits, List.flatMap_cons, hhigh, hlow, List.cons_append, List.nil_append]
    · intro hbytes
      obtain ⟨rfl, rfl, rfl⟩ := hbytes
      obtain ⟨hjoin, hhigh, hlow⟩ := join_nibbles byte
      exact ⟨_, ⟨hhigh, rfl⟩, _, ⟨hlow, rfl⟩, ⟨out, Nat.succ.inj hout⟩, rfl,
        congrArg Except.ok (Subtype.ext (by rw [hjoin]))⟩
  | n + 1, _ :: _ :: _, _, ⟨[], hout⟩ => absurd hout (by simp)

theorem utf8_toHex (d : Sha256Digest) : utf8 d.toHex = digits d.bytes := by
  have hnibble : ∀ value ≤ 15,
      String.utf8EncodeChar (Sha256Digest.hexNibble value) = [nibbleByte value] := by
    decide +kernel
  have hall : ∀ bytes : List UInt8, utf8 (String.ofList (bytes.flatMap fun byte : UInt8 =>
      [Sha256Digest.hexNibble (byte >>> 4), Sha256Digest.hexNibble (byte &&& 0x0f)])) =
        digits bytes := by
    intro bytes
    induction bytes with
    | nil => rfl
    | cons byte bytes ih =>
      obtain ⟨-, hhigh, hlow⟩ := join_nibbles byte
      have htwo : utf8 (String.ofList [Sha256Digest.hexNibble (byte >>> 4),
          Sha256Digest.hexNibble (byte &&& 0x0f)]) =
            [nibbleByte (byte >>> 4), nibbleByte (byte &&& 0x0f)] := by
        simp [utf8, List.utf8Encode, hnibble _ hhigh, hnibble _ hlow]
      rw [List.flatMap_cons, String.ofList_append, utf8_append, htwo, ih]
      rfl
  exact hall d.bytes

theorem length_utf8_toHex (d : Sha256Digest) : (utf8 d.toHex).length = 64 := by
  rw [utf8_toHex]
  simp [digits, d.length_eq]

theorem parseHex_eq_ok {text : String} {d : Sha256Digest} : parseHex text = .ok d ↔ text = d.toHex := by
  unfold parseHex
  constructor
  · intro h
    split_ifs at h with hlen
    obtain ⟨out, hout, hsame⟩ := bind_eq_ok.mp h
    obtain rfl := Except.ok.inj hsame
    exact utf8_injective ((hexPairs_eq_ok.mp hout).trans (utf8_toHex ⟨out.1, out.2⟩).symm)
  · rintro rfl
    rw [dif_pos (length_utf8_toHex d), bind_eq_ok]
    exact ⟨⟨d.bytes, d.length_eq⟩, hexPairs_eq_ok.mpr (utf8_toHex d), rfl⟩

theorem toHex_injective : Function.Injective Sha256Digest.toHex := by
  intro d d' h
  have hparse := parseHex_eq_ok.mpr h
  rw [parseHex_eq_ok.mpr rfl] at hparse
  exact Except.ok.inj hparse

/-- A lowercase hexadecimal digit, as a byte. -/
def HexDigit (byte : UInt8) : Prop := 48 ≤ byte ∧ byte ≤ 57 ∨ 97 ≤ byte ∧ byte ≤ 102

theorem exists_hexValue {byte : UInt8} : (∃ value, hexValue byte = .ok value) ↔ HexDigit byte := by
  unfold hexValue HexDigit
  split_ifs with hdecimal hletter
  · exact iff_of_true ⟨_, rfl⟩ (.inl hdecimal)
  · exact iff_of_true ⟨_, rfl⟩ (.inr hletter)
  · exact iff_of_false (by rintro ⟨_, ⟨⟩⟩) (not_or.mpr ⟨hdecimal, hletter⟩)

theorem exists_hexPairs : ∀ {n : ℕ} {bytes : List UInt8} {h : bytes.length = 2 * n},
    (∃ out, hexPairs n bytes h = .ok out) ↔ ∀ byte ∈ bytes, HexDigit byte
  | 0, bytes, h => by
    obtain rfl : bytes = [] := List.length_eq_zero_iff.mp h
    exact iff_of_true ⟨_, rfl⟩ (List.forall_mem_nil _)
  | n + 1, [], h => absurd h (by simp)
  | n + 1, [_], h => absurd h (by simp; omega)
  | n + 1, high :: low :: rest, h => by
    rw [List.forall_mem_cons, List.forall_mem_cons, ← exists_hexValue, ← exists_hexValue,
      ← @exists_hexPairs n rest (by simp only [List.length_cons] at h; omega)]
    simp only [hexPairs, bind_eq_ok]
    constructor
    · rintro ⟨_, hi, hhi, lo, hlo, out, hout, -⟩
      exact ⟨⟨hi, hhi⟩, ⟨lo, hlo⟩, out, hout⟩
    · rintro ⟨⟨hi, hhi⟩, ⟨lo, hlo⟩, out, hout⟩
      exact ⟨_, hi, hhi, lo, hlo, out, hout, rfl⟩

theorem exists_parseHex {text : String} : (∃ d, parseHex text = .ok d) ↔
    (utf8 text).length = 64 ∧ ∀ byte ∈ utf8 text, HexDigit byte := by
  unfold parseHex
  by_cases hlen : (utf8 text).length = 64
  · rw [dif_pos hlen, ← @exists_hexPairs 32 (utf8 text) hlen]
    constructor
    · rintro ⟨d, hd⟩
      obtain ⟨out, hout, -⟩ := bind_eq_ok.mp hd
      exact ⟨hlen, out, hout⟩
    · rintro ⟨-, out, hout⟩
      exact ⟨⟨out.1, out.2⟩, bind_eq_ok.mpr ⟨out, hout, rfl⟩⟩
  · rw [dif_neg hlen]
    exact iff_of_false (by rintro ⟨_, ⟨⟩⟩) fun h => hlen h.1

/-- **Hashing is the standard's.** Fed in any parts the streaming hash returns the SHA-256 of the
joined parts; HMAC is that of RFC 2104 for keys of every length; and `parse_hex` reads the hexadecimal
form of a digest, and accepts the texts of 64 lowercase hexadecimal digits and no other. -/
theorem hash_is_standard :
    (∀ parts : List (List UInt8),
      (parts.foldl Sha256.update .new).finalize.bytes = SecureHash.sha256 parts.flatten) ∧
    (∀ key message, (hmacSha256 key message).bytes =
      SecureHash.hmac SecureHash.sha256 64 key message) ∧
    (∀ text d, parseHex text = .ok d ↔ text = d.toHex) ∧
    ∀ text, (∃ d, parseHex text = .ok d) ↔
      (utf8 text).length = 64 ∧ ∀ byte ∈ utf8 text, HexDigit byte := by
  refine ⟨fun parts => ?_, hmac_eq, fun _ _ => parseHex_eq_ok, fun _ => exists_parseHex⟩
  rw [foldl_update]
  exact sha256_eq parts.flatten

end ArkForge.Core.HashStandard
