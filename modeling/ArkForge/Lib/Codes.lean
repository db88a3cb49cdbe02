import Mathlib.Data.List.Basic

/-! # Codes that say where they end

A code is delimited if it can be read off the front of any list. A list of values written one after
the other, up to something that no code begins with, can then be read in one way only. -/

namespace ArkForge.Lib.Codes

variable {α β : Type} {P : α → Prop} {f : α → List β}

/-- Whatever follows, the code of a value in `P` shows the value and where it ends. -/
def Delimited (P : α → Prop) (f : α → List β) : Prop :=
  ∀ {a a' : α} {rest rest' : List β}, P a → P a' → f a ++ rest = f a' ++ rest' →
    a = a' ∧ rest = rest'

/-- No code stands at the front. -/
def Ends (f : α → List β) (tail : List β) : Prop := ∀ a rest, f a ++ rest ≠ tail

/-- **A sequence of delimited codes is read in one way.** -/
theorem Delimited.flatMap_inj (hf : Delimited P f) : ∀ {l m : List α} {tail tail' : List β},
    (∀ a ∈ l, P a) → (∀ a ∈ m, P a) → Ends f tail → Ends f tail' →
    l.flatMap f ++ tail = m.flatMap f ++ tail' → l = m ∧ tail = tail'
  | [], [], _, _, _, _, _, _, h => ⟨rfl, h⟩
  | [], b :: m, tail, _, _, _, ht, _, h => by
    rw [List.flatMap_cons, List.append_assoc] at h
    exact absurd h.symm (ht b _)
  | a :: l, [], _, tail', _, _, _, ht', h => by
    rw [List.flatMap_cons, List.append_assoc] at h
    exact absurd h (ht' a _)
  | a :: l, b :: m, _, _, hl, hm, ht, ht', h => by
    rw [List.forall_mem_cons] at hl hm
    rw [List.flatMap_cons, List.flatMap_cons, List.append_assoc, List.append_assoc] at h
    obtain ⟨rfl, hrest⟩ := hf hl.1 hm.1 h
    obtain ⟨rfl, htail⟩ := hf.flatMap_inj hl.2 hm.2 ht ht' hrest
    exact ⟨rfl, htail⟩

theorem Delimited.eq_of_flatMap (hf : Delimited P f) (hne : ∀ a, f a ≠ []) {l m : List α}
    (hl : ∀ a ∈ l, P a) (hm : ∀ a ∈ m, P a) (h : l.flatMap f = m.flatMap f) : l = m := by
  have hends : Ends f [] := fun a _ hnil => hne a (List.append_eq_nil_iff.mp hnil).1
  exact (hf.flatMap_inj hl hm hends hends (congrArg (· ++ []) h)).1

end ArkForge.Lib.Codes
