import ArkForge.Core.CborMap
import ArkForge.Core.Digest
import ArkForge.Core.Ids

/-! # Fields of a known shape

A decoder looks up each field of a map by its name and accepts one shape of value for it. A `Shape`
says how a value of a type is written and which values are read back as it; the two are inverse to
each other, so a field reads as `a` exactly when the map holds what is written for `a`
(`readField_eq_ok`). The fields of a map survive its encoding (`field_sortKeys`,
`decode_textMap`). -/

namespace ArkForge.Core.CborFields

open Lib.KeySort
open Cbor CborRead CborCanon CborMap
open Digest Ids

variable {l es : List (String × CborValue)}

/-! ### Shapes -/

/-- One way to hold a value of type `α` in a field. -/
structure Shape (α : Type) where
  write : α → CborValue
  read : CborValue → Option α
  read_eq_some : ∀ {v : CborValue} {a : α}, read v = some a ↔ v = write a

namespace Shape

def unsigned : Shape UInt64 where
  write := .unsigned
  read
    | .unsigned value => some value
    | _ => none
  read_eq_some {v a} := by cases v <;> simp

def bool : Shape Bool where
  write := .bool
  read
    | .bool value => some value
    | _ => none
  read_eq_some {v a} := by cases v <;> simp

/-- The thirty-two bytes of a digest. -/
def digest : Shape Sha256Digest where
  write := Sha256Digest.toCbor
  read
    | .bytes value => if h : value.length = 32 then some ⟨value, h⟩ else none
    | _ => none
  read_eq_some {v d} := by
    obtain ⟨bytes, hlen⟩ := d
    rcases v with _ | _ | value | _ | _ | _ | _ | _ <;> simp [Sha256Digest.toCbor]
    rintro rfl
    exact hlen

/-- A text that conforms. -/
def id : Shape OpaqueId where
  write := OpaqueId.toCbor
  read
    | .text value => (OpaqueId.new value).toOption
    | _ => none
  read_eq_some {v o} := by
    rcases v with _ | _ | _ | value | _ | _ | _ | _ <;> try simp [OpaqueId.toCbor]
    show (OpaqueId.new value).toOption = some o ↔ value = o.value
    rw [eq_comm (a := value), ← OpaqueId.new_eq_ok]
    cases OpaqueId.new value <;> simp [Except.toOption]

end Shape

def readField {ε α : Type} (entries : List (CborValue × CborValue)) (name : String)
    (shape : Shape α) (malformed : ε) : Except ε α :=
  match (field entries name).bind shape.read with
  | some a => .ok a
  | none => .error malformed

theorem readField_eq_ok {ε α : Type} {entries : List (CborValue × CborValue)} {name : String}
    {shape : Shape α} {malformed : ε} {a : α} :
    readField entries name shape malformed = .ok a ↔
      field entries name = some (shape.write a) := by
  have hread : (field entries name).bind shape.read = some a ↔
      field entries name = some (shape.write a) := by
    simp only [Option.bind_eq_some_iff, shape.read_eq_some, exists_eq_right]
  rw [← hread]
  unfold readField
  split
  · next b hb => rw [hb, Option.some.injEq, Except.ok.injEq]
  · next hb => rw [hb]; simp

/-! ### The fields of an encoded map -/

/-- The fields of a map of texts, as decoding gives them. -/
def sortedFields (es : List (String × CborValue)) : List (String × CborValue) :=
  sortByKey (fun e => textBytes e.1) (es.map fun e => (e.1, e.2.sortKeys))

def sortedEntries (es : List (String × CborValue)) : List (CborValue × CborValue) :=
  (sortedFields es).map fun e => (.text e.1, e.2)

theorem sortKeys_textMap (es : List (String × CborValue)) :
    (CborValue.textMap es).sortKeys = .textMap (sortedFields es) := by
  have hsort : (sortedFields es).map (fun e => (CborValue.text e.1, e.2)) =
      sortByKey (fun e => encodedKey e.1)
        ((es.map fun e => (e.1, e.2.sortKeys)).map fun e => (CborValue.text e.1, e.2)) :=
    map_sortByKey fun _ _ => rfl
  rw [CborValue.textMap, sortKeys_map, CborValue.textMap, hsort, List.map_map, List.map_map]
  rfl

theorem textMap_injective : Function.Injective CborValue.textMap := by
  have hentry : Function.Injective fun e : String × CborValue => (CborValue.text e.1, e.2) := by
    rintro ⟨k, v⟩ ⟨k', v'⟩ h
    simpa using h
  intro es fs h
  exact List.map_injective_iff.mpr hentry (CborValue.map.inj h)

theorem nodup_sortedFields (hn : (es.map Prod.fst).Nodup) :
    ((sortedFields es).map Prod.fst).Nodup := by
  refine (((sortByKey_perm _).map Prod.fst).nodup_iff).mpr ?_
  rwa [List.map_map]

theorem mem_sortedFields {e : String × CborValue} (he : e ∈ es) :
    (e.1, e.2.sortKeys) ∈ sortedFields es := by
  rw [sortedFields, mem_sortByKey]
  exact List.mem_map_of_mem he

theorem field_sortKeys (hn : (es.map Prod.fst).Nodup) {e : String × CborValue} (he : e ∈ es) :
    field (sortedEntries es) e.1 = some e.2.sortKeys := by
  refine (field_eq_some (nodup_textEntries.mpr (nodup_sortedFields hn))).mpr ?_
  exact List.mem_map_of_mem
    (mem_sortedFields he)

/-- Two records with one sorted form have the same fields, sorted. -/
theorem sortKeys_eq_of_fields {es fs : List (String × CborValue)}
    (h : (CborValue.textMap es).sortKeys = (CborValue.textMap fs).sortKeys) (name : String)
    {v w : CborValue} (hv : (name, v) ∈ es := by simp) (hw : (name, w) ∈ fs := by simp)
    (hes : (es.map Prod.fst).Nodup := by simp) (hfs : (fs.map Prod.fst).Nodup := by simp) :
    v.sortKeys = w.sortKeys := by
  rw [sortKeys_textMap, sortKeys_textMap] at h
  have hfield := field_sortKeys hes hv
  rw [sortedEntries, CborValue.map.inj h] at hfield
  exact Option.some.inj (hfield.symm.trans (field_sortKeys hfs hw))

theorem fits_textMap (hlen : l.length < 2 ^ 64)
    (hfits : ∀ e ∈ l, (utf8 e.1).length < 2 ^ 64 ∧ e.2.Fits) : (CborValue.textMap l).Fits := by
  refine fits_map.mpr ⟨by rwa [List.length_map], fun e he => ?_⟩
  obtain ⟨p, hp, rfl⟩ := List.mem_map.mp he
  exact hfits p hp

attribute [simp] CborValue.depth

@[simp] theorem depth_digest (d : Sha256Digest) : d.toCbor.depth = 0 := by
  simp [Sha256Digest.toCbor]

@[simp] theorem depth_id (o : OpaqueId) : o.toCbor.depth = 0 := by
  simp [OpaqueId.toCbor]

@[simp] theorem depth_textMap_succ_le {n : ℕ} :
    (CborValue.textMap l).depth ≤ n + 1 ↔ ∀ e ∈ l, e.2.depth ≤ n := by
  rw [CborValue.textMap, depth_map_le, List.forall_mem_map]
  simp only [Nat.add_le_add_iff_right, CborValue.depth, Nat.zero_le, true_and]

theorem depth_textMap_le {n : ℕ} (h : ∀ e ∈ l, e.2.depth ≤ n) :
    (CborValue.textMap l).depth ≤ n + 1 :=
  depth_textMap_succ_le.mpr h

/-- Maps whose fields are equal up to the order of map entries. -/
theorem mapOrderEq_textMap {fs : List (String × CborValue)}
    (h : List.Forall₂ (fun e f => e.1 = f.1 ∧ MapOrderEq e.2 f.2) es fs) :
    MapOrderEq (.textMap es) (.textMap fs) := by
  refine mapOrderEq_map ?_ []
  rw [List.forall₂_map_left_iff, List.forall₂_map_right_iff]
  exact h.imp fun e f hef => ⟨hef.1 ▸ .refl _, hef.2⟩

/-- **What a map of texts decodes to**: its fields, with the maps in them sorted. -/
theorem decode_textMap {b : List UInt8} (hd : (CborValue.textMap l).depth ≤ maxDepth)
    (hf : (CborValue.textMap l).Fits) (h : (CborValue.textMap l).toCanonicalBytes = .ok b) :
    decodeCanonical b = .ok (.textMap (sortedFields l)) := by
  rw [decode_toCanonicalBytes hd hf h, sortKeys_textMap]

end ArkForge.Core.CborFields
