import Mathlib.Data.List.Sort

/-! # Sorting by a key

`sortByKey key l` sorts `l` by `key`, stably. When the keys are distinct the sorted list is the only
permutation of `l` with strictly ascending keys, so it does not depend on the order of `l`. -/

namespace ArkForge.Lib.KeySort

variable {κ α β : Type} [LE κ] {key : α → κ} {l : List α}

section Sorting

variable [DecidableLE κ]

/-- `l` sorted by `key`; elements of equal key keep their order. -/
def sortByKey (key : α → κ) (l : List α) : List α := l.insertionSort fun a b => key a ≤ key b

theorem sortByKey_perm (l : List α) : (sortByKey key l).Perm l := List.perm_insertionSort _ l

@[simp] theorem mem_sortByKey {a : α} : a ∈ sortByKey key l ↔ a ∈ l :=
  (sortByKey_perm l).mem_iff

@[simp] theorem length_sortByKey (l : List α) : (sortByKey key l).length = l.length :=
  (sortByKey_perm l).length_eq

theorem nodup_sortByKey_iff :
    ((sortByKey key l).map key).Nodup ↔ (l.map key).Nodup :=
  ((sortByKey_perm l).map key).nodup_iff

/-- Sorting commutes with a map that keeps the keys. -/
theorem map_sortByKey {key' : β → κ} {f : α → β} (hk : ∀ a ∈ l, key' (f a) = key a) :
    (sortByKey key l).map f = sortByKey key' (l.map f) := by
  refine List.map_insertionSort _ _ f l fun a ha b hb => ?_
  rw [hk a ha, hk b hb]

/-- Related lists of related keys stay related when both are sorted. -/
theorem forall₂_sortByKey (key : α → κ) (key' : β → κ) {R : α → β → Prop}
    (hk : ∀ a b, R a b → key a = key' b) : ∀ {l : List α} {m : List β}, List.Forall₂ R l m →
      List.Forall₂ R (sortByKey key l) (sortByKey key' m) := by
  have insert : ∀ {a : α} {b : β} {l : List α} {m : List β}, R a b → List.Forall₂ R l m →
      List.Forall₂ R (l.orderedInsert (fun x y => key x ≤ key y) a)
        (m.orderedInsert (fun x y => key' x ≤ key' y) b) := by
    intro a b l m hab h
    induction h with
    | nil => exact .cons hab .nil
    | @cons x y l m hxy h ih =>
      rw [List.orderedInsert_cons, List.orderedInsert_cons, hk a b hab, hk x y hxy]
      split_ifs
      · exact .cons hab (.cons hxy h)
      · exact .cons hxy ih
  intro l m h
  induction h with
  | nil => exact .nil
  | cons hab _ ih => exact insert hab ih

theorem sortByKey_pairwise_le [Std.IsLinearOrder κ] (l : List α) :
    (sortByKey key l).Pairwise fun a b => key a ≤ key b := by
  exact List.pairwise_insertionSort _ l

end Sorting

section Ascending

variable [LT κ] [Std.LawfulOrderLT κ]

theorem nodup_of_pairwise_lt (h : l.Pairwise fun a b => key a < key b) :
    (l.map key).Nodup :=
  List.pairwise_map.mpr (h.imp fun h => Std.ne_of_lt h)

theorem sortByKey_of_pairwise [DecidableLE κ] (h : l.Pairwise fun a b => key a < key b) :
    sortByKey key l = l :=
  List.Pairwise.insertionSort_eq (h.imp fun h => Std.le_of_lt h)

variable [Std.IsLinearOrder κ]

/-- A list with strictly ascending keys is determined by its elements. -/
theorem eq_of_perm_of_pairwise {m : List α} (hl : l.Pairwise fun a b => key a < key b)
    (hm : m.Pairwise fun a b => key a < key b) (h : l.Perm m) : l = m := by
  refine List.Perm.eq_of_pairwise ?_ hl hm h
  intro a b _ _ hab hba
  exact absurd (Std.lt_trans hab hba) Std.lt_irrefl

variable [DecidableLE κ]

/-- Distinct keys are strictly ascending once sorted. -/
theorem sortByKey_pairwise_lt (h : (l.map key).Nodup) :
    (sortByKey key l).Pairwise fun a b => key a < key b := by
  have hn : (sortByKey key l).Pairwise fun a b => key a ≠ key b :=
    List.pairwise_map.mp (nodup_sortByKey_iff.mpr h)
  exact ((sortByKey_pairwise_le l).and hn).imp fun h => Std.lt_of_le_of_ne h.1 h.2

/-- **The sorted list does not depend on the order**, if the keys are distinct. -/
theorem sortByKey_eq_of_perm {m : List α} (h : l.Perm m) (hn : (l.map key).Nodup) :
    sortByKey key l = sortByKey key m := by
  refine eq_of_perm_of_pairwise (sortByKey_pairwise_lt hn)
    (sortByKey_pairwise_lt ((h.map key).nodup_iff.mp hn)) ?_
  exact (sortByKey_perm l).trans (h.trans (sortByKey_perm m).symm)

end Ascending

end ArkForge.Lib.KeySort
