import ArkForge.Core.CborCanon

/-! # Reading the fields of a map

A record is stored as a map from texts to values and read back field by field. The keys of a map that
was decoded are distinct, so a field holds a value exactly when the map has that entry, wherever it
stands; and two canonical maps with the same entries are the same bytes. -/

namespace ArkForge.Core.CborMap

open Lib.Result Lib.KeySort
open Cbor CborRead CborCanon CborValue

variable {v : CborValue} {b : List UInt8} {name : String} {es : List (CborValue × CborValue)}

/-! ### Encodings that fit in memory -/

theorem encodeHead_length_pos (major : UInt8) (argument : UInt64) :
    0 < (encodeHead major argument).length := by
  unfold encodeHead
  split_ifs <;> simp

theorem encodeHead_length_le (major : UInt8) (argument : UInt64) :
    (encodeHead major argument).length ≤ 9 := by
  unfold encodeHead
  split_ifs <;> simp

theorem toCanonicalBytes_length_pos (h : v.toCanonicalBytes = .ok b) : 0 < b.length := by
  cases v with
  | array vs =>
    obtain ⟨bs, -, rfl⟩ := toCanonicalBytes_array.mp h
    have := encodeHead_length_pos 4 (UInt64.ofNat vs.length)
    rw [List.length_append]; omega
  | map es =>
    obtain ⟨ps, -, -, rfl⟩ := toCanonicalBytes_map.mp h
    have := encodeHead_length_pos 5 (UInt64.ofNat es.length)
    rw [List.length_append]; omega
  | negative n =>
    rw [toCanonicalBytes] at h
    split_ifs at h
    cases h
    exact encodeHead_length_pos _ _
  | bytes b =>
    cases h
    have := encodeHead_length_pos 2 (UInt64.ofNat b.length)
    rw [List.length_append]; omega
  | text s =>
    cases h
    have := encodeHead_length_pos 3 (UInt64.ofNat (utf8 s).length)
    rw [List.length_append]; omega
  | unsigned n => cases h; exact encodeHead_length_pos _ _
  | bool b => cases h; exact Nat.one_pos
  | null => cases h; exact Nat.one_pos

/-- The concatenation of non-empty parts is at least as long as the list of them, and as each of
them. -/
theorem length_le_flatMap {α β : Type} {R : α → β → Prop} {f : β → List UInt8}
    (hpos : ∀ a b, R a b → 0 < (f b).length) {l : List α} {m : List β} (h : List.Forall₂ R l m) :
    l.length ≤ (m.flatMap f).length ∧
      ∀ a ∈ l, ∃ b, R a b ∧ (f b).length ≤ (m.flatMap f).length := by
  induction h with
  | nil => simp
  | @cons a b l m hab h ih =>
    have hb := hpos a b hab
    simp only [List.length_cons, List.flatMap_cons, List.length_append, List.forall_mem_cons]
    refine ⟨by have := ih.1; omega, ⟨b, hab, by omega⟩, fun a' ha' => ?_⟩
    obtain ⟨b', hr, hle⟩ := ih.2 a' ha'
    exact ⟨b', hr, by omega⟩

theorem entryBytes_length (ps : List (List UInt8 × List UInt8)) :
    (entryBytes ps).length = (ps.flatMap fun p => p.1 ++ p.2).length :=
  ((sortByKey_perm ps).flatMap_right _).length_eq

theorem fits_of_length (v : CborValue) : ∀ {b : List UInt8}, v.toCanonicalBytes = .ok b →
    b.length < 2 ^ 64 → v.Fits := by
  induction v using CborValue.induct with
  | bytes value =>
    intro b h hb
    cases h
    rw [List.length_append] at hb
    rw [Fits]; omega
  | text value =>
    intro b h hb
    cases h
    rw [List.length_append] at hb
    rw [Fits]; omega
  | array vs ih =>
    intro b h hb
    obtain ⟨bs, hbs, rfl⟩ := toCanonicalBytes_array.mp h
    obtain ⟨hlen, hparts⟩ := length_le_flatMap (f := id) (fun _ _ => toCanonicalBytes_length_pos) hbs
    rw [List.flatMap_id] at hlen hparts
    rw [List.length_append] at hb
    refine fits_array.mpr ⟨by omega, fun v hv => ?_⟩
    obtain ⟨c, hc, hle⟩ := hparts v hv
    have hlt : c.length < 2 ^ 64 := by rw [id] at hle; omega
    exact ih v hv hc hlt
  | map es ih =>
    intro b h hb
    obtain ⟨ps, hps, -, rfl⟩ := toCanonicalBytes_map.mp h
    have hpos : ∀ e p, EncodesEntry e p → 0 < (p.1 ++ p.2).length := by
      intro e p he
      have := toCanonicalBytes_length_pos he.1
      rw [List.length_append]; omega
    obtain ⟨hlen, hparts⟩ := length_le_flatMap hpos hps
    rw [List.length_append, entryBytes_length] at hb
    refine fits_map.mpr ⟨by omega, fun e he => ?_⟩
    obtain ⟨p, hp, hle⟩ := hparts e he
    rw [List.length_append] at hle
    exact ⟨(ih e he).1 hp.1 (by omega), (ih e he).2 hp.2 (by omega)⟩
  | _ => intro b _ _; trivial

/-! ### Fields -/

/-- The value of the first entry whose key is the text. -/
def field (entries : List (CborValue × CborValue)) (name : String) : Option CborValue :=
  (entries.find? fun e => match e.1 with | .text t => t = name | _ => false).map Prod.snd

variable {entries : List (CborValue × CborValue)}

theorem field_eq_some (hn : (entries.map Prod.fst).Nodup) :
    field entries name = some v ↔ (.text name, v) ∈ entries := by
  have htext : ∀ e : CborValue × CborValue,
      (match e.1 with | .text t => decide (t = name) | _ => false) = true ↔ e.1 = .text name := by
    rintro ⟨k, w⟩
    cases k <;> simp
  exact (find?_eq_some_iff hn (fun _ _ h h' => h.trans h'.symm) htext).trans exists_eq_left

theorem nodup_keys_of_encodes (h : (CborValue.map es).toCanonicalBytes = .ok b) :
    (es.map Prod.fst).Nodup := by
  obtain ⟨ps, hps, hn, -⟩ := toCanonicalBytes_map.mp h
  have hmap : (es.map Prod.fst).map encodedKey = ps.map Prod.fst := by
    clear hn h
    induction hps with
    | nil => rfl
    | cons he _ ih => rw [List.map_cons, List.map_cons, ih, encodedKey, he.1]; rfl
  -- equal keys would have equal encodings
  exact List.Nodup.of_map encodedKey (hmap ▸ hn)

theorem nodup_keys_of_decode (h : decodeCanonical b = .ok (.map es)) : (es.map Prod.fst).Nodup :=
  nodup_keys_of_encodes (toCanonicalBytes_of_decode h)

/-- A permutation of the entries of a map has the same encoding. -/
theorem toCanonicalBytes_perm {fs : List (CborValue × CborValue)} (h : es.Perm fs) :
    (CborValue.map es).toCanonicalBytes = .ok b ↔ (CborValue.map fs).toCanonicalBytes = .ok b :=
  toCanonicalBytes_congr (.permute h) b

/-! ### Maps of texts -/

def textBytes (s : String) : List UInt8 :=
  encodeHead 3 (UInt64.ofNat (utf8 s).length) ++ utf8 s

theorem toCanonicalBytes_text (s : String) : (text s).toCanonicalBytes = .ok (textBytes s) := rfl

theorem textBytes_injective : Function.Injective textBytes := by
  intro s t h
  have hs := readHead_append (by decide : (3 : UInt8).toNat < 8) (UInt64.ofNat (utf8 s).length) (utf8 s)
  have ht := readHead_append (by decide : (3 : UInt8).toNat < 8) (UInt64.ofNat (utf8 t).length) (utf8 t)
  rw [textBytes, textBytes] at h
  rw [h, ht] at hs
  injection hs with hs
  exact utf8_injective (Prod.mk.inj (Prod.mk.inj hs).2).2.symm

variable {es : List (String × CborValue)}

theorem nodup_textEntries :
    ((es.map fun e => (CborValue.text e.1, e.2)).map Prod.fst).Nodup ↔ (es.map Prod.fst).Nodup := by
  have htext : Function.Injective CborValue.text := fun _ _ h => CborValue.text.inj h
  rw [← List.nodup_map_iff htext, List.map_map, List.map_map]
  rfl

/-- A map of texts can be encoded exactly when the texts are distinct and the values can be. -/
@[simp] theorem textMap_encodes :
    (CborValue.textMap es).Encodes ↔ (es.map Prod.fst).Nodup ∧ ∀ e ∈ es, e.2.Encodes := by
  constructor
  · rintro ⟨b, h⟩
    obtain ⟨ps, hps, -, -⟩ := toCanonicalBytes_map.mp h
    refine ⟨nodup_textEntries.mp (nodup_keys_of_encodes h), fun e he => ?_⟩
    rw [List.forall₂_map_left_iff] at hps
    obtain ⟨p, -, hp⟩ := exists_of_forall₂ hps he
    exact ⟨p.2, hp.2⟩
  · rintro ⟨hn, hv⟩
    choose! f hf using hv
    have hps : List.Forall₂ EncodesEntry (es.map fun e => (CborValue.text e.1, e.2))
        (es.map fun e => (textBytes e.1, f e)) := by
      rw [List.forall₂_map_left_iff, List.forall₂_map_right_iff, List.forall₂_same]
      exact fun e he => ⟨toCanonicalBytes_text e.1, hf e he⟩
    refine ⟨_, toCanonicalBytes_map.mpr ⟨_, hps, ?_, rfl⟩⟩
    have hkeys := (List.nodup_map_iff textBytes_injective).mpr hn
    rwa [List.map_map] at hkeys ⊢

/-- An array can be encoded if its elements can be. -/
@[simp] theorem array_encodes {vs : List CborValue} (h : ∀ v ∈ vs, v.Encodes) :
    (CborValue.array vs).Encodes := by
  choose! f hf using h
  refine ⟨_, toCanonicalBytes_array.mpr ⟨vs.map f, ?_, rfl⟩⟩
  rw [List.forall₂_map_right_iff, List.forall₂_same]
  exact hf

end ArkForge.Core.CborMap
