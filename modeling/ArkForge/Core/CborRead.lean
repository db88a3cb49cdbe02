import ArkForge.Core.Cbor

/-! # Canonical CBOR: the decoder

`decodeCanonical` reads one value and refuses everything that is merely valid CBOR: a head that is
not the shortest, map keys that do not ascend, bytes left over. The cursor is the unread part of the
input. The nesting limit is the recursion: `readValue budget` is `read_value` at depth
`maxDepth + 1 - budget`, so a value below depth `maxDepth` finds no budget left.

Two facts about the reader carry everything else. `readValue_sound`: what is read is exactly an
encoding of the value returned. `readValue_append`: on the encoding of a value, followed by anything,
the reader returns the value with its map entries sorted and leaves what follows. -/

namespace ArkForge.Core.CborRead

open Lib.Result Lib.Bytes Lib.KeySort
open Cbor Cbor.CborValue

/-- The depth of the deepest value the decoder enters. -/
def maxDepth : ℕ := 64

/-! ### The cursor -/

/-- The next `count` bytes, and what follows them. -/
def take (count : ℕ) (input : List UInt8) : Except CborError (List UInt8 × List UInt8) :=
  if input.length < count then .error .truncated else .ok (input.take count, input.drop count)

theorem take_append {w rest : List UInt8} {n : ℕ} (h : w.length = n) :
    take n (w ++ rest) = .ok (w, rest) := by
  subst h
  rw [take, if_neg (by simp), List.take_left, List.drop_left]

theorem take_eq_ok {n : ℕ} {input w rest : List UInt8} (h : take n input = .ok (w, rest)) :
    input = w ++ rest ∧ w.length = n := by
  unfold take at h
  split_ifs at h with hn
  cases h
  exact ⟨(List.take_append_drop n input).symm, by rw [List.length_take]; omega⟩

/-- An argument of `width` bytes, refused below `minimum`: a shorter head would hold it. -/
def readArgument (width minimum : ℕ) (input : List UInt8) :
    Except CborError (UInt64 × List UInt8) := do
  let (raw, rest) ← take width input
  if beNat raw < minimum then .error .nonCanonicalHead
  else .ok (UInt64.ofNat (beNat raw), rest)

/-- The argument the additional information of a head announces. -/
def readAdditional (additional : UInt8) (input : List UInt8) :
    Except CborError (UInt64 × List UInt8) :=
  if additional.toNat < 24 then .ok (additional.toUInt64, input)
  else if additional = 24 then readArgument 1 24 input
  else if additional = 25 then readArgument 2 (2 ^ 8) input
  else if additional = 26 then readArgument 4 (2 ^ 16) input
  else if additional = 27 then readArgument 8 (2 ^ 32) input
  else if additional = 31 then .error .indefiniteLength
  else .error .nonCanonicalHead

/-- The major type and the argument of the next item. -/
def readHead : List UInt8 → Except CborError (UInt8 × UInt64 × List UInt8)
  | [] => .error .truncated
  | byte :: input => do
    let (argument, rest) ← readAdditional (byte &&& 0x1f) input
    .ok (byte >>> 5, argument, rest)

/-! ### Values -/

section

variable (read : List UInt8 → Except CborError (CborValue × List UInt8))

/-- The loop over the elements of an array, reading each one with `read`. -/
def readArray : ℕ → List UInt8 → Except CborError (List CborValue × List UInt8)
  | 0, input => .ok ([], input)
  | count + 1, input => do
    let (value, input) ← read input
    let (values, input) ← readArray count input
    .ok (value :: values, input)

/-- The loop over the entries of a map. A key must be above the one before it. -/
def readMap : Option (List UInt8) → ℕ → List UInt8 →
    Except CborError (List (CborValue × CborValue) × List UInt8)
  | _, 0, input => .ok ([], input)
  | previousKey, count + 1, input => do
    let (key, afterKey) ← read input
    let keyBytes := input.take (input.length - afterKey.length)
    if previousKey.any fun previous => keyBytes ≤ previous then .error .unsortedMapKeys
    else
      let (value, afterValue) ← read afterKey
      let (entries, rest) ← readMap (some keyBytes) count afterValue
      .ok ((key, value) :: entries, rest)

end

/-- The next value, with `budget` levels of nesting left. -/
def readValue : ℕ → List UInt8 → Except CborError (CborValue × List UInt8)
  | 0, _ => .error .depthLimit
  | budget + 1, input => do
    let (major, argument, input) ← readHead input
    match major.toNat with
    | 0 => .ok (.unsigned argument, input)
    | 1 =>
      if -(argument.toNat : ℤ) - 1 < -2 ^ 63 then .error (.unsupportedMajorType 1)
      else .ok (.negative (Int64.ofInt (-(argument.toNat : ℤ) - 1)), input)
    | 2 => do
      let (raw, input) ← take argument.toNat input
      .ok (.bytes raw, input)
    | 3 => do
      let (raw, input) ← take argument.toNat input
      match fromUtf8 raw with
      | none => .error .invalidUtf8
      | some value => .ok (.text value, input)
    | 4 => do
      let (values, input) ← readArray (readValue budget) argument.toNat input
      .ok (.array values, input)
    | 5 => do
      let (entries, input) ← readMap (readValue budget) none argument.toNat input
      .ok (.map entries, input)
    | 7 =>
      match argument.toNat with
      | 20 => .ok (.bool false, input)
      | 21 => .ok (.bool true, input)
      | 22 => .ok (.null, input)
      | _ => .error (.unsupportedSimpleValue argument.toUInt8)
    | _ => .error (.unsupportedMajorType major)

def decodeCanonical (input : List UInt8) : Except CborError CborValue := do
  let (value, rest) ← readValue (maxDepth + 1) input
  if rest ≠ [] then .error (.trailingBytes rest.length) else .ok value

/-! ### Heads -/

variable {major : UInt8}

theorem headByte_toNat {x : UInt8} (hm : major.toNat < 8) (hx : x.toNat < 32) :
    ((major <<< 5) ||| x).toNat = major.toNat * 32 + x.toNat := by
  have h : major.toNat <<< ((5 : UInt8).toNat % 8) % 2 ^ 8 = major.toNat <<< 5 := by
    show major.toNat <<< 5 % 2 ^ 8 = _
    rw [Nat.shiftLeft_eq]; omega
  rw [UInt8.toNat_or, UInt8.toNat_shiftLeft, h, ← Nat.shiftLeft_add_eq_or_of_lt (by omega),
    Nat.shiftLeft_eq]

theorem toNat_shiftRight_five (byte : UInt8) : (byte >>> 5).toNat = byte.toNat / 32 := by
  show byte.toNat >>> 5 = _
  rw [Nat.shiftRight_eq_div_pow]

theorem toNat_and_31 (byte : UInt8) : (byte &&& 0x1f).toNat = byte.toNat % 32 := by
  exact Nat.and_two_pow_sub_one_eq_mod _ 5

theorem headByte_major {x : UInt8} (hm : major.toNat < 8) (hx : x.toNat < 32) :
    ((major <<< 5) ||| x) >>> 5 = major := by
  rw [← UInt8.toNat_inj, toNat_shiftRight_five, headByte_toNat hm hx]; omega

/-- The byte of a head gives back its additional information. -/
theorem headByte_additional {x : UInt8} (hm : major.toNat < 8) (hx : x.toNat < 32) :
    ((major <<< 5) ||| x) &&& 0x1f = x := by
  rw [← UInt8.toNat_inj, toNat_and_31, headByte_toNat hm hx]; omega

theorem major_lt (byte : UInt8) : (byte >>> 5).toNat < 8 := by
  have := byte.toNat_lt
  rw [toNat_shiftRight_five]; omega

theorem headByte_parts (byte : UInt8) : ((byte >>> 5) <<< 5) ||| (byte &&& 0x1f) = byte := by
  have hx : (byte &&& 0x1f).toNat < 32 := by rw [toNat_and_31]; omega
  rw [← UInt8.toNat_inj, headByte_toNat (major_lt byte) hx, toNat_shiftRight_five, toNat_and_31]
  omega

variable {a : UInt64}

theorem readArgument_append {w m : ℕ} (hm : m ≤ a.toNat) (ha : a.toNat < 256 ^ w)
    (rest : List UInt8) : readArgument w m (beBytes w a.toNat ++ rest) = .ok (a, rest) := by
  rw [readArgument, take_append (length_beBytes _ _), ok_bind]
  simp only [beNat_beBytes ha]
  rw [if_neg (by omega), UInt64.ofNat_toNat]

theorem readArgument_sound {w m : ℕ} {input rest : List UInt8} (hw : w ≤ 8)
    (h : readArgument w m input = .ok (a, rest)) :
    input = beBytes w a.toNat ++ rest ∧ m ≤ a.toNat ∧ a.toNat < 256 ^ w := by
  simp only [readArgument, bind_eq_ok] at h
  obtain ⟨⟨raw, r⟩, ht, h⟩ := h
  obtain ⟨rfl, rfl⟩ := take_eq_ok ht
  have hraw := beNat_lt raw
  have h64 : 256 ^ raw.length ≤ 2 ^ 64 := by
    calc 256 ^ raw.length ≤ 256 ^ 8 := Nat.pow_le_pow_right (by decide) hw
      _ = 2 ^ 64 := by decide
  split_ifs at h with hm
  cases h
  dsimp only at hm
  have hn : (UInt64.ofNat (beNat raw)).toNat = beNat raw := by
    rw [UInt64.toNat_ofNat']; exact Nat.mod_eq_of_lt (by omega)
  rw [hn, beBytes_beNat]
  exact ⟨rfl, by omega, hraw⟩

/-- **The reader takes a head off its encoding.** -/
theorem readHead_append (hm : major.toNat < 8) (a : UInt64) (rest : List UInt8) :
    readHead (encodeHead major a ++ rest) = .ok (major, a, rest) := by
  have ha := a.toNat_lt
  unfold encodeHead
  split_ifs with h24 h8 h16 h32
  · have hx : a.toUInt8.toNat = a.toNat := by rw [UInt64.toNat_toUInt8]; omega
    rw [List.singleton_append, readHead, headByte_additional hm (by omega),
      headByte_major hm (by omega), readAdditional, hx, if_pos h24, ok_bind]
    simp only [Except.ok.injEq, Prod.mk.injEq, true_and, and_true]
    rw [← UInt64.toNat_inj, UInt8.toNat_toUInt64, hx]
  all_goals
    rw [List.cons_append, readHead, headByte_additional hm (by decide),
      headByte_major hm (by decide), readAdditional, if_neg (by decide)]
  · rw [if_pos rfl, readArgument_append (by omega) (by omega), ok_bind]
  · rw [if_neg (by decide), if_pos rfl, readArgument_append (by omega) (by omega), ok_bind]
  · rw [if_neg (by decide), if_neg (by decide), if_pos rfl,
      readArgument_append (by omega) (by omega), ok_bind]
  · rw [if_neg (by decide), if_neg (by decide), if_neg (by decide), if_pos rfl,
      readArgument_append (by omega) (by omega), ok_bind]

/-- **What is read as a head is the shortest encoding of that head.** -/
theorem readHead_sound {input rest : List UInt8} (h : readHead input = .ok (major, a, rest)) :
    major.toNat < 8 ∧ input = encodeHead major a ++ rest := by
  rcases input with _ | ⟨byte, input⟩
  · cases h
  simp only [readHead, bind_eq_ok] at h
  obtain ⟨⟨a', r⟩, h, he⟩ := h
  cases he
  refine ⟨major_lt byte, ?_⟩
  have hb := headByte_parts byte
  dsimp only
  unfold encodeHead
  unfold readAdditional at h
  split_ifs at h with h24 e24 e25 e26 e27
  · cases h
    have hx : (byte &&& 0x1f).toUInt64.toNat = (byte &&& 0x1f).toNat := UInt8.toNat_toUInt64 _
    have hxx : (byte &&& 0x1f).toUInt64.toUInt8 = byte &&& 0x1f := by
      rw [← UInt8.toNat_inj, UInt64.toNat_toUInt8]; omega
    rw [if_pos (by rw [hx]; exact h24), hxx, hb, List.singleton_append]
  · obtain ⟨rfl, h1, h2⟩ := readArgument_sound (by decide) h
    rw [if_neg (by omega), if_pos (by omega), ← e24, hb, List.cons_append]
  · obtain ⟨rfl, h1, h2⟩ := readArgument_sound (by decide) h
    rw [if_neg (by omega), if_neg (by omega), if_pos (by omega), ← e25, hb, List.cons_append]
  · obtain ⟨rfl, h1, h2⟩ := readArgument_sound (by decide) h
    rw [if_neg (by omega), if_neg (by omega), if_neg (by omega), if_pos (by omega), ← e26, hb,
      List.cons_append]
  · obtain ⟨rfl, h1, h2⟩ := readArgument_sound (by decide) h
    rw [if_neg (by omega), if_neg (by omega), if_neg (by omega), if_neg (by omega), ← e27, hb,
      List.cons_append]

/-! ### What is read is an encoding -/

/-- What `read` consumes is an encoding of what it returns. -/
def Sound (read : List UInt8 → Except CborError (CborValue × List UInt8)) : Prop :=
  ∀ input v rest, read input = .ok (v, rest) →
    ∃ b, v.toCanonicalBytes = .ok b ∧ input = b ++ rest

variable {read : List UInt8 → Except CborError (CborValue × List UInt8)}

theorem readArray_sound (hr : Sound read) : ∀ {n : ℕ} {input rest : List UInt8}
    {vs : List CborValue}, readArray read n input = .ok (vs, rest) → vs.length = n ∧
      ∃ bs, List.Forall₂ (fun v b => v.toCanonicalBytes = .ok b) vs bs ∧
        input = bs.flatten ++ rest
  | 0, input, rest, vs, h => by
    cases h
    exact ⟨rfl, [], .nil, rfl⟩
  | n + 1, input, rest, vs, h => by
    simp only [readArray, bind_eq_ok] at h
    obtain ⟨⟨v, r⟩, hv, ⟨vs', r'⟩, hvs, h⟩ := h
    cases h
    obtain ⟨b, hb, rfl⟩ := hr _ _ _ hv
    obtain ⟨hn, bs, hbs, hrest⟩ := readArray_sound hr hvs
    dsimp only at hn hbs hrest ⊢
    exact ⟨by simp [hn], b :: bs, .cons hb hbs, by rw [hrest]; simp⟩

/-- The keys a map is read with ascend, from the key before the first one on. -/
theorem readMap_sound (hr : Sound read) : ∀ {n : ℕ} {previous : Option (List UInt8)}
    {input rest : List UInt8} {es : List (CborValue × CborValue)},
    readMap read previous n input = .ok (es, rest) → es.length = n ∧
      ∃ ps, List.Forall₂ EncodesEntry es ps ∧ ps.Pairwise (fun p q => p.1 < q.1) ∧
        (∀ k, previous = some k → ∀ p ∈ ps, k < p.1) ∧
        input = (ps.flatMap fun p => p.1 ++ p.2) ++ rest
  | 0, previous, input, rest, es, h => by
    cases h
    exact ⟨rfl, [], .nil, .nil, by simp, rfl⟩
  | n + 1, previous, input, rest, es, h => by
    simp only [readMap, bind_eq_ok] at h
    obtain ⟨⟨k, r⟩, hk, h⟩ := h
    obtain ⟨kb, hkb, rfl⟩ := hr _ _ _ hk
    rw [List.length_append, Nat.add_sub_cancel, List.take_left] at h
    split_ifs at h with hp
    simp only [bind_eq_ok] at h
    obtain ⟨⟨v, r'⟩, hv, ⟨es', r''⟩, hes, h⟩ := h
    cases h
    obtain ⟨vb, hvb, rfl⟩ := hr _ _ _ hv
    obtain ⟨hn, ps, hps, hasc, hfst, hrest⟩ := readMap_sound hr hes
    dsimp only at hn hps hrest ⊢
    have hlt : ∀ p ∈ ps, kb < p.1 := hfst kb rfl
    refine ⟨by simp [hn], (kb, vb) :: ps, .cons ⟨hkb, hvb⟩ hps, .cons hlt hasc, ?_, ?_⟩
    · rintro k' rfl
      have hk' : k' < kb := by simpa using hp
      exact List.forall_mem_cons.mpr ⟨hk', fun p hp' => Std.lt_trans hk' (hlt p hp')⟩
    · rw [hrest]; simp

/-- **What is read is exactly an encoding of the value returned.** -/
theorem readValue_sound : ∀ budget : ℕ, Sound (readValue budget)
  | 0, input, v, rest, h => by cases h
  | budget + 1, input, v, rest, h => by
    have ih := readValue_sound budget
    simp only [readValue, bind_eq_ok] at h
    obtain ⟨⟨major, a, r⟩, hh, h⟩ := h
    obtain ⟨hm, rfl⟩ := readHead_sound hh
    have hmajor : ∀ m : UInt8, major.toNat = m.toNat → major = m := fun m => UInt8.toNat_inj.mp
    dsimp only at h
    split at h
    · next e =>
      cases h
      exact ⟨_, rfl, by rw [hmajor 0 e]⟩
    · next e =>
      split_ifs at h with hlt
      cases h
      have hi : (Int64.ofInt (-(a.toNat : ℤ) - 1)).toInt = -(a.toNat : ℤ) - 1 :=
        Int64.toInt_ofInt_of_le (by omega) (by omega)
      refine ⟨encodeHead 1 a, ?_, by rw [hmajor 1 e]⟩
      rw [toCanonicalBytes, hi, if_neg (by omega)]
      rw [show (-(-(a.toNat : ℤ) - 1) - 1).toNat = a.toNat by omega, UInt64.ofNat_toNat]
    · next e =>
      rw [bind_eq_ok] at h
      obtain ⟨⟨raw, r'⟩, ht, h⟩ := h
      cases h
      obtain ⟨rfl, hl⟩ := take_eq_ok ht
      refine ⟨encodeHead 2 a ++ raw, ?_, by rw [hmajor 2 e, List.append_assoc]⟩
      rw [toCanonicalBytes, hl, UInt64.ofNat_toNat]
    · next e =>
      rw [bind_eq_ok] at h
      obtain ⟨⟨raw, r'⟩, ht, h⟩ := h
      obtain ⟨rfl, hl⟩ := take_eq_ok ht
      split at h
      · cases h
      · next s hs =>
        cases h
        refine ⟨encodeHead 3 a ++ raw, ?_, by rw [hmajor 3 e, List.append_assoc]⟩
        rw [toCanonicalBytes, utf8_of_fromUtf8 hs, hl, UInt64.ofNat_toNat]
    · next e =>
      rw [bind_eq_ok] at h
      obtain ⟨⟨vs, r'⟩, ht, h⟩ := h
      cases h
      obtain ⟨hn, bs, hbs, rfl⟩ := readArray_sound ih ht
      refine ⟨encodeHead 4 a ++ bs.flatten, ?_, by rw [hmajor 4 e, List.append_assoc]⟩
      exact toCanonicalBytes_array.mpr ⟨bs, hbs, by rw [hn, UInt64.ofNat_toNat]⟩
    · next e =>
      rw [bind_eq_ok] at h
      obtain ⟨⟨es, r'⟩, ht, h⟩ := h
      cases h
      obtain ⟨hn, ps, hps, hasc, -, rfl⟩ := readMap_sound ih ht
      refine ⟨encodeHead 5 a ++ entryBytes ps, ?_, ?_⟩
      · exact toCanonicalBytes_map.mpr
          ⟨ps, hps, nodup_of_pairwise_lt hasc, by rw [hn, UInt64.ofNat_toNat]⟩
      · rw [hmajor 5 e, entryBytes, sortByKey_of_pairwise hasc, List.append_assoc]
    · next e =>
      -- The simple values have their argument in the head byte.
      split at h <;> cases h
      all_goals
        next ea =>
        have : a = UInt64.ofNat a.toNat := UInt64.ofNat_toNat.symm
        rw [hmajor 7 e, this, ea]
        exact ⟨_, rfl, rfl⟩
    · cases h

/-! ### The encoding of a value is read back -/

/-- On `b`, whatever follows, `read` returns `v` and stops behind `b`. -/
def ReadsAs (read : List UInt8 → Except CborError (CborValue × List UInt8)) (v : CborValue)
    (b : List UInt8) : Prop :=
  ∀ rest, read (b ++ rest) = .ok (v, rest)

theorem readArray_append {ws : List CborValue} {bs : List (List UInt8)}
    (h : List.Forall₂ (ReadsAs read) ws bs) (rest : List UInt8) :
    readArray read ws.length (bs.flatten ++ rest) = .ok (ws, rest) := by
  induction h with
  | nil => rfl
  | @cons w b ws bs hw _ ih =>
    rw [List.flatten_cons, List.append_assoc, List.length_cons, readArray, hw, ok_bind]
    dsimp only
    rw [ih, ok_bind]

theorem readMap_append {fs : List (CborValue × CborValue)} {qs : List (List UInt8 × List UInt8)}
    (h : List.Forall₂ (fun e p => ReadsAs read e.1 p.1 ∧ ReadsAs read e.2 p.2) fs qs)
    (rest : List UInt8) :
    ∀ previous : Option (List UInt8), qs.Pairwise (fun p q => p.1 < q.1) →
      (∀ k, previous = some k → ∀ q ∈ qs, k < q.1) →
      readMap read previous fs.length ((qs.flatMap fun p => p.1 ++ p.2) ++ rest) = .ok (fs, rest) := by
  induction h with
  | nil => intro _ _ _; rfl
  | @cons e p fs qs he _ ih =>
    intro previous hasc hprev
    rw [List.pairwise_cons] at hasc
    have hp : ¬ (previous.any fun k => decide (p.1 ≤ k)) = true := by
      rcases previous with _ | k
      · simp
      · simpa using hprev k rfl p (by simp)
    rw [List.flatMap_cons, List.append_assoc, List.append_assoc, List.length_cons, readMap, he.1,
      ok_bind]
    dsimp only
    rw [List.length_append, Nat.add_sub_cancel, List.take_left, if_neg hp, he.2, ok_bind]
    rw [ih (some p.1) hasc.2 (fun k hk q hq => by cases hk; exact hasc.1 q hq), ok_bind]

/-- **The encoding of a value is read back**, with the entries of its maps sorted. -/
theorem readValue_append (v : CborValue) : ∀ {n : ℕ} {b : List UInt8}, v.depth ≤ n → v.Fits →
    v.toCanonicalBytes = .ok b → ReadsAs (readValue (n + 1)) v.sortKeys b := by
  induction v using CborValue.induct with
  | unsigned a =>
    intro n b _ _ hb rest
    cases hb
    rw [readValue, readHead_append (by decide)]; rfl
  | negative i =>
    intro n b _ _ hb rest
    have hlo := i.le_toInt
    rw [toCanonicalBytes] at hb
    split_ifs at hb with hi
    cases hb
    have hn : (UInt64.ofNat (-i.toInt - 1).toNat).toNat = (-i.toInt - 1).toNat := by
      rw [UInt64.toNat_ofNat']; exact Nat.mod_eq_of_lt (by omega)
    rw [readValue, readHead_append (by decide)]
    show (if _ then _ else _) = _
    rw [hn, if_neg (by omega), show (-((-i.toInt - 1).toNat : ℤ) - 1) = i.toInt by omega,
      Int64.ofInt_toInt]
    rfl
  | bytes raw =>
    intro n b _ hf hb rest
    cases hb
    have hl : (UInt64.ofNat raw.length).toNat = raw.length := UInt64.toNat_ofNat_of_lt' hf
    rw [List.append_assoc, readValue, readHead_append (by decide)]
    show (take _ _ >>= _) = _
    rw [hl, take_append rfl]; rfl
  | text s =>
    intro n b _ hf hb rest
    cases hb
    have hl : (UInt64.ofNat (utf8 s).length).toNat = (utf8 s).length := UInt64.toNat_ofNat_of_lt' hf
    rw [List.append_assoc, readValue, readHead_append (by decide)]
    show (take _ _ >>= _) = _
    rw [hl, take_append rfl, ok_bind]
    dsimp only
    rw [fromUtf8_utf8]; rfl
  | array vs ih =>
    intro n b hd hf hb rest
    rw [depth_array_le] at hd
    obtain ⟨hlen, hf⟩ := fits_array.mp hf
    obtain ⟨bs, hbs, rfl⟩ := toCanonicalBytes_array.mp hb
    have hl : (UInt64.ofNat vs.length).toNat = vs.length := UInt64.toNat_ofNat_of_lt' hlen
    have hread : List.Forall₂ (ReadsAs (readValue n)) (vs.map sortKeys) bs := by
      rw [List.forall₂_map_left_iff]
      refine ((List.forall₂_and_left _ _).mpr ⟨fun v hv => hv, hbs⟩).imp ?_
      rintro v b ⟨hv, hb⟩
      obtain ⟨m, rfl⟩ : ∃ m, n = m + 1 := ⟨n - 1, by have := hd v hv; omega⟩
      exact ih v hv (by have := hd v hv; omega) (hf v hv) hb
    rw [List.append_assoc, readValue, readHead_append (by decide), sortKeys_array]
    show (readArray _ _ _ >>= _) = _
    have := readArray_append hread rest
    rw [List.length_map] at this
    rw [hl, this, ok_bind]
  | map es ih =>
    intro n b hd hf hb rest
    rw [depth_map_le] at hd
    obtain ⟨hlen, hf⟩ := fits_map.mp hf
    obtain ⟨ps, hps, hnd, rfl⟩ := toCanonicalBytes_map.mp hb
    have hl : (UInt64.ofNat es.length).toNat = es.length := UInt64.toNat_ofNat_of_lt' hlen
    -- The entries of the sorted map against their bytes, before the sort: each is read back, and
    -- soundness says that a sorted key still encodes to the bytes it is sorted by.
    have hread : List.Forall₂ (fun e p => encodedKey e.1 = p.1 ∧
        ReadsAs (readValue n) e.1 p.1 ∧ ReadsAs (readValue n) e.2 p.2)
        (es.map fun e => (e.1.sortKeys, e.2.sortKeys)) ps := by
      rw [List.forall₂_map_left_iff]
      refine ((List.forall₂_and_left _ _).mpr ⟨fun e he => he, hps⟩).imp ?_
      rintro e p ⟨he, hk, hv⟩
      obtain ⟨m, rfl⟩ : ∃ m, n = m + 1 := ⟨n - 1, by have := (hd e he).1; omega⟩
      have hkr := (ih e he).1 (n := m) (by have := (hd e he).1; omega) (hf e he).1 hk
      have hvr := (ih e he).2 (n := m) (by have := (hd e he).2; omega) (hf e he).2 hv
      obtain ⟨kb, hkb, hkeq⟩ := readValue_sound _ _ _ _ (hkr [])
      rw [List.append_nil, List.append_nil] at hkeq
      subst hkeq
      refine ⟨?_, hkr, hvr⟩
      rw [encodedKey, hkb]; rfl
    have hsorted := forall₂_sortByKey (fun e => encodedKey e.1) Prod.fst (fun _ _ h => h.1) hread
    rw [List.append_assoc, readValue, readHead_append (by decide), sortKeys_map]
    show (readMap _ _ _ _ >>= _) = _
    have := readMap_append (hsorted.imp fun _ _ h => h.2) rest none
      (sortByKey_pairwise_lt hnd) (by simp)
    rw [length_sortByKey, List.length_map] at this
    rw [hl, entryBytes, this, ok_bind]
  | bool t =>
    intro n b _ _ hb rest
    cases hb
    cases t <;> rfl
  | null =>
    intro n b _ _ hb rest
    cases hb
    rfl

end ArkForge.Core.CborRead
