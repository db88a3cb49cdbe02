import ArkForge.Core.CborMap

/-! # How deep and how long encoded values are

The decoder's budget bounds what it returns: a value that is read nests less deep than the levels it
was read with. And the encoding of a value is no longer than the bytes it holds and one head for each
of its parts. -/

namespace ArkForge.Core.CborBounds

open Cbor Cbor.CborValue CborRead
open CborMap Lib.Result Lib.KeySort

/-! ### Depth -/

/-- What `read` returns nests less than `n` deep. -/
def Shallow (n : ℕ) (read : List UInt8 → Except CborError (CborValue × List UInt8)) : Prop :=
  ∀ input v rest, read input = .ok (v, rest) → v.depth + 1 ≤ n

variable {read : List UInt8 → Except CborError (CborValue × List UInt8)} {n : ℕ}

theorem readArray_shallow (hr : Shallow n read) : ∀ {count : ℕ} {input rest : List UInt8}
    {vs : List CborValue}, readArray read count input = .ok (vs, rest) → ∀ v ∈ vs, v.depth + 1 ≤ n
  | 0, input, rest, vs, h => by
    cases h
    exact List.forall_mem_nil _
  | count + 1, input, rest, vs, h => by
    simp only [readArray, bind_eq_ok] at h
    obtain ⟨⟨v, r⟩, hv, ⟨vs', r'⟩, hvs, h⟩ := h
    cases h
    exact List.forall_mem_cons.mpr ⟨hr _ _ _ hv, readArray_shallow hr hvs⟩

theorem readMap_shallow (hr : Shallow n read) : ∀ {count : ℕ} {previous : Option (List UInt8)}
    {input rest : List UInt8} {es : List (CborValue × CborValue)},
    readMap read previous count input = .ok (es, rest) →
      ∀ e ∈ es, e.1.depth + 1 ≤ n ∧ e.2.depth + 1 ≤ n
  | 0, previous, input, rest, es, h => by
    cases h
    exact List.forall_mem_nil _
  | count + 1, previous, input, rest, es, h => by
    simp only [readMap, bind_eq_ok] at h
    obtain ⟨⟨k, r⟩, hk, h⟩ := h
    split_ifs at h with hp
    simp only [bind_eq_ok] at h
    obtain ⟨⟨v, r'⟩, hv, ⟨es', r''⟩, hes, h⟩ := h
    cases h
    exact List.forall_mem_cons.mpr ⟨⟨hr _ _ _ hk, hr _ _ _ hv⟩, readMap_shallow hr hes⟩

/-- **What is read nests less deep than the levels it is read with.** -/
theorem readValue_shallow : ∀ budget : ℕ, Shallow budget (readValue budget)
  | 0, input, v, rest, h => by cases h
  | budget + 1, input, v, rest, h => by
    have ih := readValue_shallow budget
    have hleaf : 0 + 1 ≤ budget + 1 := Nat.succ_le_succ (Nat.zero_le budget)
    simp only [readValue, bind_eq_ok] at h
    obtain ⟨⟨major, a, r⟩, -, h⟩ := h
    split at h
    · cases h
      exact hleaf
    · split_ifs at h
      cases h
      exact hleaf
    · obtain ⟨_, -, h⟩ := bind_eq_ok.mp h
      cases h
      exact hleaf
    · obtain ⟨_, -, h⟩ := bind_eq_ok.mp h
      split at h <;> cases h
      exact hleaf
    · obtain ⟨⟨vs, r'⟩, ht, h⟩ := bind_eq_ok.mp h
      cases h
      exact Nat.succ_le_succ (depth_array_le.mpr (readArray_shallow ih ht))
    · obtain ⟨⟨es, r'⟩, ht, h⟩ := bind_eq_ok.mp h
      cases h
      exact Nat.succ_le_succ (depth_map_le.mpr (readMap_shallow ih ht))
    · split at h <;> cases h
      all_goals exact hleaf
    · cases h

/-- What is decoded nests at most as deep as the decoder goes. -/
theorem depth_of_decodeCanonical {input : List UInt8} {v : CborValue}
    (h : decodeCanonical input = .ok v) : v.depth ≤ maxDepth := by
  obtain ⟨⟨value, rest⟩, hread, h⟩ := bind_eq_ok.mp h
  dsimp only at h
  split_ifs at h
  cases h
  exact Nat.le_of_succ_le_succ (readValue_shallow _ _ _ _ hread)

theorem depth_sortKeys_le (v : CborValue) : ∀ {n : ℕ}, v.sortKeys.depth ≤ n ↔ v.depth ≤ n := by
  induction v using CborValue.induct with
  | array vs ih =>
    intro n
    rw [sortKeys_array, depth_array_le, depth_array_le, List.forall_mem_map]
    refine forall₂_congr fun v hv => ?_
    rcases n with _ | n
    · exact iff_of_false (Nat.not_succ_le_zero _) (Nat.not_succ_le_zero _)
    · rw [Nat.succ_le_succ_iff, Nat.succ_le_succ_iff, ih v hv]
  | map es ih =>
    intro n
    rw [sortKeys_map, depth_map_le, depth_map_le]
    have hmem : ∀ {p : CborValue × CborValue → Prop} {l : List (CborValue × CborValue)},
        (∀ e ∈ sortByKey (fun e => encodedKey e.1) l, p e) ↔ ∀ e ∈ l, p e :=
      forall_congr' fun e => by rw [(sortByKey_perm _).mem_iff]
    rw [hmem, List.forall_mem_map]
    refine forall₂_congr fun e he => ?_
    rcases n with _ | n
    · exact iff_of_false (fun h => Nat.not_succ_le_zero _ h.1) fun h => Nat.not_succ_le_zero _ h.1
    · simp only [Nat.succ_le_succ_iff, (ih e he).1, (ih e he).2]
  | _ => exact Iff.rfl

/-! ### Length -/

mutual

def boundValue : CborValue → ℕ
  | .bytes value => 9 + value.length
  | .text value => 9 + (utf8 value).length
  | .array values => 9 + boundValues values
  | .map entries => 9 + boundEntries entries
  | _ => 9

def boundValues : List CborValue → ℕ
  | [] => 0
  | value :: values => boundValue value + boundValues values

def boundEntries : List (CborValue × CborValue) → ℕ
  | [] => 0
  | (key, value) :: entries => boundValue key + boundValue value + boundEntries entries

end

@[simp] theorem boundValue_unsigned (n : UInt64) : boundValue (.unsigned n) = 9 := rfl

@[simp] theorem boundValue_bool (b : Bool) : boundValue (.bool b) = 9 := rfl

theorem length_le_boundValue (v : CborValue) : ∀ {b : List UInt8}, v.toCanonicalBytes = .ok b →
    b.length ≤ boundValue v := by
  induction v using CborValue.induct with
  | array vs ih =>
    intro b h
    obtain ⟨bs, hbs, rfl⟩ := toCanonicalBytes_array.mp h
    have hparts : bs.flatten.length ≤ boundValues vs := by
      clear h
      induction hbs with
      | nil => exact Nat.zero_le _
      | cons hb _ ih' =>
        have hhead := ih _ List.mem_cons_self hb
        have hrest := ih' fun v hv => ih v (List.mem_cons_of_mem _ hv)
        rw [List.flatten_cons, List.length_append, boundValues]
        omega
    have := encodeHead_length_le 4 (UInt64.ofNat vs.length)
    rw [List.length_append, boundValue]
    omega
  | map es ih =>
    intro b h
    obtain ⟨ps, hps, -, rfl⟩ := toCanonicalBytes_map.mp h
    have hparts : (ps.flatMap fun p => p.1 ++ p.2).length ≤ boundEntries es := by
      clear h
      induction hps with
      | nil => exact Nat.zero_le _
      | cons hp _ ih' =>
        have hhead := ih _ List.mem_cons_self
        have hkey := hhead.1 hp.1
        have hvalue := hhead.2 hp.2
        have hrest := ih' fun e he => ih e (List.mem_cons_of_mem _ he)
        rw [List.flatMap_cons, List.length_append, List.length_append, boundEntries]
        omega
    have := encodeHead_length_le 5 (UInt64.ofNat es.length)
    rw [List.length_append, entryBytes_length, boundValue]
    omega
  | bytes value =>
    intro b h
    cases h
    have := encodeHead_length_le 2 (UInt64.ofNat value.length)
    rw [List.length_append, boundValue]
    omega
  | text value =>
    intro b h
    cases h
    have := encodeHead_length_le 3 (UInt64.ofNat (utf8 value).length)
    rw [List.length_append, boundValue]
    omega
  | unsigned m =>
    intro b h
    cases h
    exact encodeHead_length_le 0 m
  | negative m =>
    intro b h
    rw [toCanonicalBytes] at h
    split_ifs at h
    cases h
    exact encodeHead_length_le 1 _
  | bool x =>
    intro b h
    cases x <;> cases h <;> decide
  | null =>
    intro b h
    cases h
    decide

theorem boundValue_textMap_le {l : List (String × CborValue)} {m n : ℕ}
    (h : ∀ e ∈ l, boundValue (.text e.1) ≤ m ∧ boundValue e.2 ≤ n) :
    boundValue (.textMap l) ≤ 9 + l.length * (m + n) := by
  refine Nat.add_le_add_left ?_ 9
  induction l with
  | nil => exact Nat.zero_le _
  | cons e l ih =>
    have hrest := ih fun e' he' => h e' (List.mem_cons_of_mem _ he')
    have hfirst := h e List.mem_cons_self
    rw [List.length_cons, Nat.succ_mul, Nat.add_comm (l.length * (m + n))]
    exact Nat.add_le_add (Nat.add_le_add hfirst.1 hfirst.2) hrest

end ArkForge.Core.CborBounds
