import ArkForge.Core.CborRead
import Mathlib.Data.List.Perm.Basic

/-! # Canonical CBOR: a bijection onto the accepted strings

Decoding and encoding are inverse to each other up to the order of map entries, which the encoder
ignores. So the bytes of a value determine the value up to that order (`toCanonicalBytes_eq_iff`),
and no encoding continues another one (`toCanonicalBytes_prefix_free`). -/

namespace ArkForge.Core.CborCanon

open Lib.Result Lib.KeySort
open Cbor Cbor.CborValue CborRead

variable {v w : CborValue} {b : List UInt8}

/-! ### Decoding and encoding -/

/-- **An accepted string is the encoding of what it decodes to.** -/
theorem toCanonicalBytes_of_decode (h : decodeCanonical b = .ok v) :
    v.toCanonicalBytes = .ok b := by
  simp only [decodeCanonical, bind_eq_ok] at h
  obtain ⟨⟨w, rest⟩, hr, h⟩ := h
  dsimp only at h
  split_ifs at h with hrest
  cases h
  obtain ⟨c, hc, hb⟩ := readValue_sound _ _ _ _ hr
  rw [not_not.mp hrest, List.append_nil] at hb
  exact hb ▸ hc

/-- **The encoding of a value decodes to it**, with the entries of its maps sorted. -/
theorem decode_toCanonicalBytes (hd : v.depth ≤ maxDepth) (hf : v.Fits)
    (h : v.toCanonicalBytes = .ok b) : decodeCanonical b = .ok v.sortKeys := by
  have hr := readValue_append v hd hf h []
  rw [List.append_nil] at hr
  simp [decodeCanonical, hr]

theorem toCanonicalBytes_prefix_free {c : List UInt8} (hv : v.Fits) (hw : w.Fits)
    (hb : v.toCanonicalBytes = .ok b) (hc : w.toCanonicalBytes = .ok c) (h : b <+: c) : b = c := by
  obtain ⟨t, rfl⟩ := h
  have h1 := readValue_append v (le_max_left v.depth w.depth) hv hb t
  have h2 := readValue_append w (le_max_right v.depth w.depth) hw hc []
  rw [List.append_nil, h1] at h2
  injection h2 with h2
  rw [(Prod.mk.inj h2).2, List.append_nil]

/-! ### Values equal up to the order of map entries -/

/-- An array whose elements are equal up to the order of map entries. -/
theorem mapOrderEq_array {vs ws : List CborValue} (h : List.Forall₂ MapOrderEq vs ws) :
    ∀ pre : List CborValue, MapOrderEq (array (pre ++ vs)) (array (pre ++ ws)) := by
  induction h with
  | nil => intro pre; exact .refl _
  | @cons v w vs ws hv _ ih =>
    intro pre
    have := ih (pre ++ [w])
    rw [List.append_assoc, List.append_assoc] at this
    exact (MapOrderEq.element pre vs hv).trans this

/-- A map whose entries are equal up to the order of map entries inside them. -/
theorem mapOrderEq_map {es fs : List (CborValue × CborValue)}
    (h : List.Forall₂ (fun e f => MapOrderEq e.1 f.1 ∧ MapOrderEq e.2 f.2) es fs) :
    ∀ pre : List (CborValue × CborValue),
      MapOrderEq (.map (pre ++ es)) (.map (pre ++ fs)) := by
  induction h with
  | nil => intro pre; exact .refl _
  | @cons e f es fs he _ ih =>
    intro pre
    have := ih (pre ++ [f])
    rw [List.append_assoc, List.append_assoc] at this
    exact (MapOrderEq.entry pre es he.1 he.2).trans this

/-- A value equals its sorted form up to the order of map entries. -/
theorem mapOrderEq_sortKeys (v : CborValue) : MapOrderEq v v.sortKeys := by
  induction v using CborValue.induct with
  | array vs ih =>
    rw [sortKeys_array]
    refine mapOrderEq_array ?_ []
    rw [List.forall₂_map_right_iff, List.forall₂_same]
    exact ih
  | map es ih =>
    rw [sortKeys_map]
    refine MapOrderEq.trans (mapOrderEq_map ?_ []) (.permute (sortByKey_perm _).symm)
    rw [List.forall₂_map_right_iff, List.forall₂_same]
    exact ih
  | _ => exact .refl _

/-- A list of encodings, with one of the values exchanged for one that encodes alike. -/
theorem forall₂_exchange {α β : Type} {R : α → β → Prop} {v w : α} (h : ∀ b, R v b ↔ R w b)
    (post : List α) : ∀ (pre : List α) (bs : List β),
      List.Forall₂ R (pre ++ v :: post) bs ↔ List.Forall₂ R (pre ++ w :: post) bs
  | [], bs => by
    simp only [List.nil_append, List.forall₂_cons_left_iff, h]
  | a :: pre, bs => by
    simp only [List.cons_append, List.forall₂_cons_left_iff, forall₂_exchange h post pre]

/-- Values equal up to the order of map entries have the same encoding, or none. -/
theorem toCanonicalBytes_congr (h : MapOrderEq v w) :
    ∀ b, v.toCanonicalBytes = .ok b ↔ w.toCanonicalBytes = .ok b := by
  induction h with
  | refl v => exact fun b => Iff.rfl
  | symm _ ih => exact fun b => (ih b).symm
  | trans _ _ ih1 ih2 => exact fun b => (ih1 b).trans (ih2 b)
  | @element v w pre post _ ih =>
    intro b
    have hex := forall₂_exchange (R := fun v b => v.toCanonicalBytes = .ok b) ih post pre
    simp only [toCanonicalBytes_array, hex, List.length_append, List.length_cons]
  | @entry k l v w pre post _ _ ihk ihv =>
    intro b
    have hent : ∀ p, EncodesEntry (k, v) p ↔ EncodesEntry (l, w) p :=
      fun p => and_congr (ihk p.1) (ihv p.2)
    simp only [toCanonicalBytes_map, forall₂_exchange hent, List.length_append, List.length_cons]
  | @permute es fs hperm =>
    -- One direction suffices: the other is the inverse permutation.
    have key : ∀ {es fs : List (CborValue × CborValue)}, es.Perm fs → ∀ b,
        (CborValue.map es).toCanonicalBytes = .ok b → (CborValue.map fs).toCanonicalBytes = .ok b := by
      intro es fs hperm b hb
      obtain ⟨ps, hps, hn, rfl⟩ := toCanonicalBytes_map.mp hb
      obtain ⟨qs, hqs, hqp⟩ := List.perm_comp_forall₂ hperm.symm hps
      refine toCanonicalBytes_map.mpr ⟨qs, hqs, ?_, ?_⟩
      · exact (hqp.map Prod.fst).nodup_iff.mpr hn
      · rw [hperm.length_eq, entryBytes, entryBytes, sortByKey_eq_of_perm hqp.symm hn]
    exact fun b => ⟨key hperm b, key hperm.symm b⟩

/-- Values with the same encoding have the same sorted form. -/
theorem sortKeys_eq_of_encodes (hv : v.Fits) (hw : w.Fits) (hb : v.toCanonicalBytes = .ok b)
    (hc : w.toCanonicalBytes = .ok b) : v.sortKeys = w.sortKeys := by
  have h1 := readValue_append v (le_max_left v.depth w.depth) hv hb []
  have h2 := readValue_append w (le_max_right v.depth w.depth) hw hc []
  rw [h1] at h2
  injection h2 with h2
  exact (Prod.mk.inj h2).1

/-- **The bytes of a value determine it** up to the order of map entries, and nothing more. -/
theorem toCanonicalBytes_eq_iff (hv : v.Fits) (hw : w.Fits) (hb : v.toCanonicalBytes = .ok b) :
    w.toCanonicalBytes = .ok b ↔ MapOrderEq v w := by
  constructor
  · intro hc
    have hs := sortKeys_eq_of_encodes hv hw hb hc
    exact (mapOrderEq_sortKeys v).trans (hs ▸ (mapOrderEq_sortKeys w).symm)
  · intro h
    exact (toCanonicalBytes_congr h b).mp hb

/-- **Canonical CBOR is a bijection onto its accepted language.** An accepted string re-encodes to
itself. A value nested at most 64 deep that has an encoding decodes from it, with the entries of its
maps sorted by encoded key at every level. Two values have one encoding exactly when they are equal
up to the order of map entries, and no encoding is a proper prefix of another. -/
theorem canonical_bijection :
    (∀ (b : List UInt8) (v : CborValue),
      decodeCanonical b = .ok v → v.toCanonicalBytes = .ok b) ∧
    (∀ (v : CborValue) (b : List UInt8), v.Fits → v.depth ≤ 64 → v.toCanonicalBytes = .ok b →
      decodeCanonical b = .ok v.sortKeys) ∧
    (∀ (v w : CborValue) (b : List UInt8), v.Fits → w.Fits → v.toCanonicalBytes = .ok b →
      (w.toCanonicalBytes = .ok b ↔ MapOrderEq v w)) ∧
    (∀ (v w : CborValue) (b c : List UInt8), v.Fits → w.Fits → v.toCanonicalBytes = .ok b →
      w.toCanonicalBytes = .ok c → b <+: c → b = c) := by
  refine ⟨fun b v h => toCanonicalBytes_of_decode h, fun v b hf hd h => ?_, ?_, ?_⟩
  · exact decode_toCanonicalBytes hd hf h
  · exact fun v w b hv hw hb => toCanonicalBytes_eq_iff hv hw hb
  · exact fun v w b c hv hw hb hc h => toCanonicalBytes_prefix_free hv hw hb hc h

end ArkForge.Core.CborCanon
