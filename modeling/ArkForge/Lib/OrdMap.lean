import Mathlib.Order.Lattice
import Mathlib.Data.List.Basic

/-! # Ordered maps

A finite map over a linear order, kept as its entries in strictly ascending key order. It is read by
key, updated in place of one key, and walked in key order. -/

namespace ArkForge.Lib.Ordered

variable {κ α : Type} [LinearOrder κ]

/-- The value stored under `k`. -/
def lookup (k : κ) : List (κ × α) → Option α
  | [] => none
  | (k', a) :: l => if k = k' then some a else lookup k l

/-- The entries with the value under `k` replaced by what `f` makes of it. -/
def alterEntries (k : κ) (f : Option α → α) : List (κ × α) → List (κ × α)
  | [] => [(k, f none)]
  | (k', a) :: l =>
    if k < k' then (k, f none) :: (k', a) :: l
    else if k = k' then (k', f (some a)) :: l
    else (k', a) :: alterEntries k f l

/-- The keys ascend strictly. -/
def Ascending (l : List (κ × α)) : Prop := l.Pairwise fun a b => a.1 < b.1

theorem lookup_eq_none_of_lt {k : κ} :
    ∀ {l : List (κ × α)}, (∀ e ∈ l, k < e.1) → lookup k l = none
  | [], _ => rfl
  | (k', a) :: l, h => by
    have hk : k < k' := h (k', a) (by simp)
    unfold lookup
    rw [if_neg hk.ne]
    exact lookup_eq_none_of_lt fun e he => h e (by simp [he])

theorem Ascending.forall_lt {k k' : κ} {a : α} {l : List (κ × α)} (h : Ascending ((k', a) :: l))
    (hk : k < k') : ∀ e ∈ (k', a) :: l, k < e.1 := by
  refine List.forall_mem_cons.mpr ⟨hk, fun e he => ?_⟩
  exact hk.trans ((List.pairwise_cons.mp h).1 e he)

theorem lookup_alterEntries_self (k : κ) (f : Option α → α) :
    ∀ {l : List (κ × α)}, Ascending l → lookup k (alterEntries k f l) = some (f (lookup k l))
  | [], _ => by simp [alterEntries, lookup]
  | (k', a) :: l, h => by
    unfold alterEntries
    by_cases hlt : k < k'
    · have hnone := lookup_eq_none_of_lt (h.forall_lt hlt)
      rw [if_pos hlt, hnone]
      simp [lookup]
    · rw [if_neg hlt]
      by_cases heq : k = k'
      · simp [heq, lookup]
      · have ih := lookup_alterEntries_self k f (List.pairwise_cons.mp h).2
        simp [heq, lookup, ih]

theorem lookup_alterEntries_of_ne {k j : κ} (f : Option α → α) (hne : j ≠ k) :
    ∀ l : List (κ × α), lookup j (alterEntries k f l) = lookup j l
  | [] => by simp [alterEntries, lookup, hne]
  | (k', a) :: l => by
    unfold alterEntries
    by_cases hlt : k < k'
    · rw [if_pos hlt]
      simp [lookup, hne]
    · rw [if_neg hlt]
      by_cases heq : k = k'
      · subst heq
        simp [lookup, hne]
      · simp [heq, lookup, lookup_alterEntries_of_ne f hne l]

theorem key_of_mem_alterEntries {k : κ} {f : Option α → α} :
    ∀ {l : List (κ × α)} {e : κ × α}, e ∈ alterEntries k f l → e.1 = k ∨ ∃ e' ∈ l, e'.1 = e.1
  | [], e, h => by
    obtain rfl : e = (k, f none) := by simpa [alterEntries] using h
    exact Or.inl rfl
  | (k', a) :: l, e, h => by
    unfold alterEntries at h
    split_ifs at h with hlt heq
    · rcases List.mem_cons.mp h with rfl | h
      · exact Or.inl rfl
      · exact Or.inr ⟨e, h, rfl⟩
    · rcases List.mem_cons.mp h with rfl | h
      · exact Or.inl heq.symm
      · exact Or.inr ⟨e, List.mem_cons_of_mem _ h, rfl⟩
    · rcases List.mem_cons.mp h with rfl | h
      · exact Or.inr ⟨_, List.mem_cons_self, rfl⟩
      · rcases key_of_mem_alterEntries h with hk | ⟨e', he', hk⟩
        · exact Or.inl hk
        · exact Or.inr ⟨e', List.mem_cons_of_mem _ he', hk⟩

theorem ascending_alterEntries (k : κ) (f : Option α → α) :
    ∀ {l : List (κ × α)}, Ascending l → Ascending (alterEntries k f l)
  | [], _ => by simp [alterEntries, Ascending]
  | (k', a) :: l, h => by
    have htail := List.pairwise_cons.mp h
    unfold alterEntries
    split_ifs with hlt heq
    · exact List.pairwise_cons.mpr ⟨h.forall_lt hlt, h⟩
    · exact List.pairwise_cons.mpr htail
    · refine List.pairwise_cons.mpr ⟨?_, ascending_alterEntries k f htail.2⟩
      intro e he
      rcases key_of_mem_alterEntries he with hk | ⟨e', he', hk⟩
      · rw [hk]
        exact lt_of_le_of_ne (not_lt.mp hlt) fun h => heq h.symm
      · rw [← hk]
        exact htail.1 e' he'

theorem lookup_eq_some {k : κ} {a : α} :
    ∀ {l : List (κ × α)}, Ascending l → (lookup k l = some a ↔ (k, a) ∈ l)
  | [], _ => by simp [lookup]
  | (k', a') :: l, h => by
    have htail := List.pairwise_cons.mp h
    have ih := lookup_eq_some (k := k) (a := a) htail.2
    unfold lookup
    by_cases heq : k = k'
    · subst heq
      have hmem : (k, a) ∉ l := fun hm => lt_irrefl k (htail.1 _ hm)
      simp [hmem, eq_comm]
    · simp [heq, ih]

structure OrdMap (κ α : Type) [LinearOrder κ] where
  entries : List (κ × α)
  ascending : Ascending entries

def OrdMap.empty : OrdMap κ α := ⟨[], List.Pairwise.nil⟩

def OrdMap.get (m : OrdMap κ α) (k : κ) : Option α := lookup k m.entries

/-- `m` with the value under `k` replaced by what `f` makes of it. -/
def OrdMap.alter (m : OrdMap κ α) (k : κ) (f : Option α → α) : OrdMap κ α :=
  ⟨alterEntries k f m.entries, ascending_alterEntries k f m.ascending⟩

/-- `m` without the value under `k`. -/
def OrdMap.erase (m : OrdMap κ α) (k : κ) : OrdMap κ α :=
  ⟨m.entries.filter fun e => e.1 ≠ k, m.ascending.filter _⟩

theorem ascending_mapEntries (f : κ → α → α) {l : List (κ × α)} (h : Ascending l) :
    Ascending (l.map fun e => (e.1, f e.1 e.2)) :=
  List.pairwise_map.mpr h

/-- `m` with every value replaced by what `f` makes of it. -/
def OrdMap.map (m : OrdMap κ α) (f : κ → α → α) : OrdMap κ α :=
  ⟨m.entries.map fun e => (e.1, f e.1 e.2), ascending_mapEntries f m.ascending⟩

@[simp] theorem OrdMap.get_empty (k : κ) : (OrdMap.empty : OrdMap κ α).get k = none := rfl

theorem OrdMap.get_alter (m : OrdMap κ α) (k j : κ) (f : Option α → α) :
    (m.alter k f).get j = if j = k then some (f (m.get j)) else m.get j := by
  by_cases h : j = k
  · subst h
    rw [if_pos rfl]
    exact lookup_alterEntries_self j f m.ascending
  · rw [if_neg h]
    exact lookup_alterEntries_of_ne f h m.entries

theorem OrdMap.get_erase (m : OrdMap κ α) (k j : κ) :
    (m.erase k).get j = if j = k then none else m.get j := by
  have hentries : ∀ l : List (κ × α),
      lookup j (l.filter fun e => e.1 ≠ k) = if j = k then none else lookup j l := by
    intro l
    induction l with
    | nil => simp [lookup]
    | cons e l ih =>
      obtain ⟨k', a⟩ := e
      by_cases hk : k' = k
      · subst hk
        rw [List.filter_cons_of_neg (by simp), ih]
        by_cases hj : j = k'
        · simp [hj]
        · simp [lookup, hj]
      · rw [List.filter_cons_of_pos (by simpa using hk)]
        by_cases hj : j = k'
        · subst hj
          simp [lookup, hk]
        · rw [lookup, lookup, if_neg hj, if_neg hj, ih]
  exact hentries m.entries

theorem OrdMap.get_map (m : OrdMap κ α) (f : κ → α → α) (k : κ) :
    (m.map f).get k = (m.get k).map (f k) := by
  have hentries : ∀ l : List (κ × α),
      lookup k (l.map fun e => (e.1, f e.1 e.2)) = (lookup k l).map (f k) := by
    intro l
    induction l with
    | nil => rfl
    | cons e l ih =>
      obtain ⟨k', a⟩ := e
      by_cases h : k = k'
      · simp [lookup, h]
      · simp [lookup, h, ih]
  exact hentries m.entries

theorem OrdMap.mem_entries {m : OrdMap κ α} {k : κ} {a : α} :
    (k, a) ∈ m.entries ↔ m.get k = some a :=
  (lookup_eq_some m.ascending).symm

end ArkForge.Lib.Ordered
