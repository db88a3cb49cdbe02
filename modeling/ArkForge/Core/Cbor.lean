import ArkForge.Lib.Result
import ArkForge.Lib.Bytes
import ArkForge.Lib.KeySort

/-! # Canonical CBOR: values and the encoder

`CborValue` is the subset of CBOR the digests are taken over: no float, no tag, no indefinite length.
`toCanonicalBytes` is the deterministic encoder of RFC 8949 4.2: shortest heads, and the entries of a
map sorted by their encoded keys. It refuses a `negative` that holds no negative number and a map in
which two keys have one encoding.

The model keeps the source's machine integers. The lengths of its lists and strings are unbounded
where a `Vec` is not, so statements about lengths are made for the values that fit in memory
(`Fits`: every length is a `usize`). -/

namespace ArkForge.Core.Cbor

open Lib.Result Lib.Bytes Lib.KeySort

/-! ### Text -/

def utf8 (s : String) : List UInt8 := s.toByteArray.data.toList

def fromUtf8 (raw : List UInt8) : Option String := String.fromUTF8? ⟨raw.toArray⟩

theorem fromUtf8_utf8 (s : String) : fromUtf8 (utf8 s) = some s := by
  simp [fromUtf8, utf8, String.fromUTF8?, s.isValidUTF8, String.fromUTF8]

theorem utf8_of_fromUtf8 {raw : List UInt8} {s : String} (h : fromUtf8 raw = some s) :
    utf8 s = raw := by
  simp only [fromUtf8, String.fromUTF8?] at h
  split at h
  · cases h; rfl
  · cases h

theorem utf8_injective : Function.Injective utf8 := by
  intro s t h
  have hs := fromUtf8_utf8 s
  rw [h, fromUtf8_utf8] at hs
  exact (Option.some.inj hs).symm

theorem utf8_append (s t : String) : utf8 (s ++ t) = utf8 s ++ utf8 t := by
  simp [utf8]

/-! ### Values -/

inductive CborValue where
  | unsigned (value : UInt64)
  /-- Holds the negative number itself. -/
  | negative (value : Int64)
  | bytes (value : List UInt8)
  | text (value : String)
  | array (values : List CborValue)
  | map (entries : List (CborValue × CborValue))
  | bool (value : Bool)
  | null

inductive CborError where
  | modelViolation (message : String)
  | negativeNotNegative (value : Int64)
  | duplicateMapKey (key : List UInt8)
  | truncated
  | nonCanonicalHead
  | unsupportedMajorType (major : UInt8)
  | unsupportedSimpleValue (value : UInt8)
  | indefiniteLength
  | unsortedMapKeys
  | invalidUtf8
  | trailingBytes (count : ℕ)
  | depthLimit
  deriving DecidableEq

namespace CborValue

/-- A map whose keys are the given texts. -/
def textMap (entries : List (String × CborValue)) : CborValue :=
  .map (entries.map fun e => (.text e.1, e.2))

/-- Induction over a value: a property holds of an array or a map if it holds of its parts. -/
@[elab_as_elim]
theorem induct {P : CborValue → Prop} (unsigned : ∀ n, P (.unsigned n))
    (negative : ∀ n, P (.negative n)) (bytes : ∀ b, P (.bytes b)) (text : ∀ s, P (.text s))
    (array : ∀ vs, (∀ v ∈ vs, P v) → P (.array vs))
    (map : ∀ es, (∀ e ∈ es, P e.1 ∧ P e.2) → P (.map es)) (bool : ∀ b, P (.bool b))
    (null : P .null) (v : CborValue) : P v := by
  refine @CborValue.rec P (fun vs => ∀ v ∈ vs, P v) (fun es => ∀ e ∈ es, P e.1 ∧ P e.2)
    (fun e => P e.1 ∧ P e.2) unsigned negative bytes text array map bool null ?_ ?_ ?_ ?_ ?_ v
  · simp
  · exact fun v vs hv hvs => List.forall_mem_cons.mpr ⟨hv, hvs⟩
  · simp
  · exact fun e es he hes => List.forall_mem_cons.mpr ⟨he, hes⟩
  · intro k v hk hv
    exact ⟨hk, hv⟩

end CborValue

open CborValue

/-! ### The encoder -/

def encodeHead (major : UInt8) (argument : UInt64) : List UInt8 :=
  if argument.toNat < 24 then [(major <<< 5) ||| argument.toUInt8]
  else if argument.toNat < 2 ^ 8 then ((major <<< 5) ||| 24) :: beBytes 1 argument.toNat
  else if argument.toNat < 2 ^ 16 then ((major <<< 5) ||| 25) :: beBytes 2 argument.toNat
  else if argument.toNat < 2 ^ 32 then ((major <<< 5) ||| 26) :: beBytes 4 argument.toNat
  else ((major <<< 5) ||| 27) :: beBytes 8 argument.toNat

mutual
/-- `to_canonical_bytes`: the bytes `encode_into` appends for the value, or why there are none. -/
def CborValue.toCanonicalBytes : CborValue → Except CborError (List UInt8)
  | .unsigned value => .ok (encodeHead 0 value)
  | .negative value =>
    if 0 ≤ value.toInt then .error (.negativeNotNegative value)
    else .ok (encodeHead 1 (UInt64.ofNat (-value.toInt - 1).toNat))
  | .bytes value => .ok (encodeHead 2 (UInt64.ofNat value.length) ++ value)
  | .text value => .ok (encodeHead 3 (UInt64.ofNat (utf8 value).length) ++ utf8 value)
  | .array values => do
    let out ← encodeValues values
    .ok (encodeHead 4 (UInt64.ofNat values.length) ++ out)
  | .map entries => do
    let encoded ← encodeEntries entries
    match firstRepeat [] ((sortByKey Prod.fst encoded).map Prod.fst) with
    | some key => .error (.duplicateMapKey key)
    | none => .ok (encodeHead 5 (UInt64.ofNat encoded.length) ++
        (sortByKey Prod.fst encoded).flatMap fun e => e.1 ++ e.2)
  | .bool value => .ok [0xe0 ||| if value then 21 else 20]
  | .null => .ok [0xf6]

def encodeValues : List CborValue → Except CborError (List UInt8)
  | [] => .ok []
  | value :: values => do
    let out ← value.toCanonicalBytes
    let rest ← encodeValues values
    .ok (out ++ rest)

def encodeEntries : List (CborValue × CborValue) → Except CborError (List (List UInt8 × List UInt8))
  | [] => .ok []
  | (key, value) :: entries => do
    let keyBytes ← key.toCanonicalBytes
    let valueBytes ← value.toCanonicalBytes
    let rest ← encodeEntries entries
    .ok ((keyBytes, valueBytes) :: rest)
end

example : (CborValue.textMap
    [("b", .array [.unsigned 2, .unsigned 300]), ("a", .negative (-1))]).toCanonicalBytes
    = .ok [0xa2, 0x61, 0x61, 0x20, 0x61, 0x62, 0x82, 0x02, 0x19, 0x01, 0x2c] := by decide

def CborValue.Encodes (v : CborValue) : Prop := ∃ b, v.toCanonicalBytes = .ok b

@[simp] theorem encodes_null : CborValue.null.Encodes := ⟨_, rfl⟩

@[simp] theorem encodes_bool (b : Bool) : (CborValue.bool b).Encodes := ⟨_, rfl⟩

@[simp] theorem encodes_unsigned (n : UInt64) : (CborValue.unsigned n).Encodes := ⟨_, rfl⟩

@[simp] theorem encodes_bytes (b : List UInt8) : (CborValue.bytes b).Encodes := ⟨_, rfl⟩

@[simp] theorem encodes_text (s : String) : (CborValue.text s).Encodes := ⟨_, rfl⟩

/-- The pair of byte strings is the encoding of the entry. -/
def EncodesEntry (e : CborValue × CborValue) (p : List UInt8 × List UInt8) : Prop :=
  e.1.toCanonicalBytes = .ok p.1 ∧ e.2.toCanonicalBytes = .ok p.2

theorem encodeValues_eq_ok : ∀ {vs : List CborValue} {b : List UInt8}, encodeValues vs = .ok b ↔
    ∃ bs, List.Forall₂ (fun v b => v.toCanonicalBytes = .ok b) vs bs ∧ b = bs.flatten
  | [], b => by
    simp only [encodeValues, List.forall₂_nil_left_iff, Except.ok.injEq]
    constructor
    · rintro rfl; exact ⟨[], rfl, rfl⟩
    · rintro ⟨_, rfl, rfl⟩; rfl
  | v :: vs, b => by
    simp only [encodeValues, bind_eq_ok, encodeValues_eq_ok, Except.ok.injEq]
    constructor
    · rintro ⟨b1, h1, b2, ⟨bs, h, rfl⟩, rfl⟩
      exact ⟨b1 :: bs, .cons h1 h, rfl⟩
    · rintro ⟨_, h, rfl⟩
      rcases h with _ | ⟨h1, h⟩
      exact ⟨_, h1, _, ⟨_, h, rfl⟩, rfl⟩

theorem encodeEntries_eq_ok : ∀ {es : List (CborValue × CborValue)}
    {ps : List (List UInt8 × List UInt8)}, encodeEntries es = .ok ps ↔
      List.Forall₂ EncodesEntry es ps
  | [], ps => by
    simp only [encodeEntries, List.forall₂_nil_left_iff, Except.ok.injEq, eq_comm]
  | (k, v) :: es, ps => by
    simp only [encodeEntries, bind_eq_ok, encodeEntries_eq_ok, Except.ok.injEq]
    constructor
    · rintro ⟨kb, hk, vb, hv, ps', h, rfl⟩
      exact .cons ⟨hk, hv⟩ h
    · rintro (_ | ⟨⟨hk, hv⟩, h⟩)
      exact ⟨_, hk, _, hv, _, h, rfl⟩

variable {vs : List CborValue} {b : List UInt8}

theorem toCanonicalBytes_array : (array vs).toCanonicalBytes = .ok b ↔
      ∃ bs, List.Forall₂ (fun v b => v.toCanonicalBytes = .ok b) vs bs ∧
        b = encodeHead 4 (UInt64.ofNat vs.length) ++ bs.flatten := by
  simp only [toCanonicalBytes, bind_eq_ok, encodeValues_eq_ok, Except.ok.injEq]
  constructor
  · rintro ⟨_, ⟨bs, h, rfl⟩, rfl⟩; exact ⟨bs, h, rfl⟩
  · rintro ⟨bs, h, rfl⟩; exact ⟨_, ⟨bs, h, rfl⟩, rfl⟩

/-- The bytes of the entries of a map, in ascending order of the key. -/
def entryBytes (ps : List (List UInt8 × List UInt8)) : List UInt8 :=
  (sortByKey Prod.fst ps).flatMap fun p => p.1 ++ p.2

variable {es : List (CborValue × CborValue)}

theorem toCanonicalBytes_map : (CborValue.map es).toCanonicalBytes = .ok b ↔
      ∃ ps, List.Forall₂ EncodesEntry es ps ∧ (ps.map Prod.fst).Nodup ∧
        b = encodeHead 5 (UInt64.ofNat es.length) ++ entryBytes ps := by
  simp only [toCanonicalBytes, bind_eq_ok, encodeEntries_eq_ok]
  constructor
  · rintro ⟨ps, h, hb⟩
    split at hb
    · cases hb
    · next hn =>
      rw [firstRepeat_nil_eq_none, nodup_sortByKey_iff] at hn
      cases hb
      exact ⟨ps, h, hn, by rw [h.length_eq, entryBytes]⟩
  · rintro ⟨ps, h, hn, rfl⟩
    refine ⟨ps, h, ?_⟩
    rw [firstRepeat_nil_eq_none.mpr (nodup_sortByKey_iff.mpr hn), h.length_eq, entryBytes]

/-! ### Values that fit in memory, and how deep they nest -/

mutual
/-- Every length in the value is a `usize`, as it is for a value the program can hold. -/
def CborValue.Fits : CborValue → Prop
  | .bytes value => value.length < 2 ^ 64
  | .text value => (utf8 value).length < 2 ^ 64
  | .array values => values.length < 2 ^ 64 ∧ FitValues values
  | .map entries => entries.length < 2 ^ 64 ∧ FitEntries entries
  | _ => True

def FitValues : List CborValue → Prop
  | [] => True
  | value :: values => value.Fits ∧ FitValues values

def FitEntries : List (CborValue × CborValue) → Prop
  | [] => True
  | (key, value) :: entries => key.Fits ∧ value.Fits ∧ FitEntries entries
end

theorem fitValues_iff : ∀ {vs : List CborValue}, FitValues vs ↔ ∀ v ∈ vs, v.Fits
  | [] => by simp [FitValues]
  | v :: vs => by simp [FitValues, fitValues_iff]

theorem fitEntries_iff : ∀ {es : List (CborValue × CborValue)},
    FitEntries es ↔ ∀ e ∈ es, e.1.Fits ∧ e.2.Fits
  | [] => by simp [FitEntries]
  | (k, v) :: es => by simp [FitEntries, fitEntries_iff, and_assoc]

theorem fits_array : (array vs).Fits ↔ vs.length < 2 ^ 64 ∧ ∀ v ∈ vs, v.Fits := by
  rw [Fits, fitValues_iff]

theorem fits_map :
    (CborValue.map es).Fits ↔ es.length < 2 ^ 64 ∧ ∀ e ∈ es, e.1.Fits ∧ e.2.Fits := by
  rw [Fits, fitEntries_iff]

mutual
/-- How deep the value nests: the depth of its deepest part, the value itself being at depth 0. -/
def CborValue.depth : CborValue → ℕ
  | .array values => depthValues values
  | .map entries => depthEntries entries
  | _ => 0

def depthValues : List CborValue → ℕ
  | [] => 0
  | value :: values => max (value.depth + 1) (depthValues values)

def depthEntries : List (CborValue × CborValue) → ℕ
  | [] => 0
  | (key, value) :: entries => max (max (key.depth + 1) (value.depth + 1)) (depthEntries entries)
end

variable {n : ℕ}

theorem depthValues_le : ∀ {vs : List CborValue},
    depthValues vs ≤ n ↔ ∀ v ∈ vs, v.depth + 1 ≤ n
  | [] => by simp [depthValues]
  | v :: vs => by simp [depthValues, depthValues_le]

theorem depthEntries_le : ∀ {es : List (CborValue × CborValue)},
    depthEntries es ≤ n ↔ ∀ e ∈ es, e.1.depth + 1 ≤ n ∧ e.2.depth + 1 ≤ n
  | [] => by simp [depthEntries]
  | (k, v) :: es => by
    rw [depthEntries, max_le_iff, max_le_iff, depthEntries_le, List.forall_mem_cons]

theorem depth_array_le : (array vs).depth ≤ n ↔ ∀ v ∈ vs, v.depth + 1 ≤ n := by
  rw [depth, depthValues_le]

theorem depth_map_le :
    (CborValue.map es).depth ≤ n ↔ ∀ e ∈ es, e.1.depth + 1 ≤ n ∧ e.2.depth + 1 ≤ n := by
  rw [depth, depthEntries_le]

/-! ### The order of map entries -/

/-- The bytes a key is sorted by. -/
def encodedKey (key : CborValue) : List UInt8 := key.toCanonicalBytes.toOption.getD []

mutual
/-- The value with the entries of every map in it, at every level, sorted by their encoded keys. -/
def CborValue.sortKeys : CborValue → CborValue
  | .array values => .array (sortKeysValues values)
  | .map entries => .map (sortByKey (fun e => encodedKey e.1) (sortKeysEntries entries))
  | v => v

def sortKeysValues : List CborValue → List CborValue
  | [] => []
  | value :: values => value.sortKeys :: sortKeysValues values

def sortKeysEntries : List (CborValue × CborValue) → List (CborValue × CborValue)
  | [] => []
  | (key, value) :: entries => (key.sortKeys, value.sortKeys) :: sortKeysEntries entries
end

theorem sortKeysValues_eq : ∀ vs : List CborValue, sortKeysValues vs = vs.map sortKeys
  | [] => rfl
  | v :: vs => by rw [sortKeysValues, sortKeysValues_eq vs, List.map_cons]

theorem sortKeysEntries_eq : ∀ es : List (CborValue × CborValue),
    sortKeysEntries es = es.map fun e => (e.1.sortKeys, e.2.sortKeys)
  | [] => rfl
  | (k, v) :: es => by rw [sortKeysEntries, sortKeysEntries_eq es, List.map_cons]

theorem sortKeys_array (vs : List CborValue) : (array vs).sortKeys = array (vs.map sortKeys) := by
  rw [sortKeys, sortKeysValues_eq]

theorem sortKeys_map (es : List (CborValue × CborValue)) :
    (CborValue.map es).sortKeys = .map (sortByKey (fun e => encodedKey e.1)
      (es.map fun e => (e.1.sortKeys, e.2.sortKeys))) := by
  rw [sortKeys, sortKeysEntries_eq]

/-- **Equality up to the order of map entries**: the congruence generated by permuting the entries of
a map. -/
inductive MapOrderEq : CborValue → CborValue → Prop where
  | refl (v : CborValue) : MapOrderEq v v
  | symm {v w : CborValue} : MapOrderEq v w → MapOrderEq w v
  | trans {u v w : CborValue} : MapOrderEq u v → MapOrderEq v w → MapOrderEq u w
  | element {v w : CborValue} (pre post : List CborValue) : MapOrderEq v w →
      MapOrderEq (array (pre ++ v :: post)) (array (pre ++ w :: post))
  | entry {k l v w : CborValue} (pre post : List (CborValue × CborValue)) : MapOrderEq k l →
      MapOrderEq v w → MapOrderEq (.map (pre ++ (k, v) :: post)) (.map (pre ++ (l, w) :: post))
  | permute {es fs : List (CborValue × CborValue)} : es.Perm fs → MapOrderEq (.map es) (.map fs)

end ArkForge.Core.Cbor
