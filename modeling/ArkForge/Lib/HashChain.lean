import Mathlib.Data.List.Forall2
import Mathlib.Data.List.Induction

/-! # Chains linked by a digest

A chain is a list of records in which the check of each record sees its index and the digest of the
record before it. Being linked is local (`linked_append`), so a prefix of a chain is a chain; and the
digest of the last record determines all of them, if equal digests come from equal records
(`linked_head_inj`). -/

namespace ArkForge.Lib.HashChain

variable {R S D : Type}

/-- The records pass the check one after the other, the first at index `n` behind `previous`. -/
def Linked (digest : R → D) (check : ℕ → D → R → Prop) : ℕ → D → List R → Prop
  | _, _, [] => True
  | n, previous, r :: rs => check n previous r ∧ Linked digest check (n + 1) (digest r) rs

/-- The digest of the last record, or the one the chain starts from. -/
def head (digest : R → D) (origin : D) (rs : List R) : D := (rs.getLast?.map digest).getD origin

section

variable {digest : R → D} {check : ℕ → D → R → Prop}

@[simp] theorem head_nil (origin : D) : head digest origin [] = origin := rfl

@[simp] theorem head_concat (origin : D) (rs : List R) (r : R) :
    head digest origin (rs ++ [r]) = digest r := by
  simp [head]

theorem head_cons (origin : D) (r : R) (rs : List R) :
    head digest origin (r :: rs) = head digest (digest r) rs := by
  rcases List.eq_nil_or_concat rs with rfl | ⟨rs', r', rfl⟩
  · rfl
  · rw [List.concat_eq_append, ← List.cons_append, head_concat, head_concat]

theorem linked_append : ∀ {n : ℕ} {origin : D} {a b : List R},
    Linked digest check n origin (a ++ b) ↔ Linked digest check n origin a ∧
      Linked digest check (n + a.length) (head digest origin a) b
  | n, origin, [], b => by simp [Linked]
  | n, origin, r :: a, b => by
    rw [List.cons_append, Linked, Linked, linked_append, head_cons, List.length_cons, and_assoc,
      Nat.add_right_comm, Nat.add_assoc]

variable {origin : D} {n : ℕ}

theorem linked_concat {a : List R} {r : R} :
    Linked digest check n origin (a ++ [r]) ↔ Linked digest check n origin a ∧
      check (n + a.length) (head digest origin a) r := by
  rw [linked_append, Linked, Linked, and_true]

theorem Linked.of_prefix {a b : List R} (h : Linked digest check n origin b) (hp : a <+: b) :
    Linked digest check n origin a := by
  obtain ⟨c, rfl⟩ := hp
  exact (linked_append.mp h).1

/-- The check of the record behind `a`. -/
theorem Linked.check_middle {a b : List R} {r : R}
    (h : Linked digest check n origin (a ++ r :: b)) :
    check (n + a.length) (head digest origin a) r :=
  (linked_append.mp h).2.1

variable {rs : List R} {ss : List S} {digest' : S → D}

/-- A relation that keeps digests and checks keeps chains. -/
theorem linked_congr {check' : ℕ → D → S → Prop} {Same : R → S → Prop}
    (hd : ∀ r s, Same r s → digest r = digest' s)
    (hc : ∀ n p r s, Same r s → (check n p r ↔ check' n p s)) (h : List.Forall₂ Same rs ss) :
    ∀ {n : ℕ} {origin : D},
      Linked digest check n origin rs ↔ Linked digest' check' n origin ss := by
  induction h with
  | nil => intro n origin; exact Iff.rfl
  | @cons r s rs ss hrs _ ih =>
    intro n origin
    rw [Linked, Linked, hc n origin r s hrs, hd r s hrs, ih]

theorem head_congr {Same : R → S → Prop} (hd : ∀ r s, Same r s → digest r = digest' s)
    (h : List.Forall₂ Same rs ss) : ∀ {origin : D},
      head digest origin rs = head digest' origin ss := by
  induction h with
  | nil => intro origin; rfl
  | @cons r s rs ss hrs _ ih => intro origin; rw [head_cons, head_cons, hd r s hrs, ih]

/-- **The head commits to the chain**: if each record carries the digest before it, and equal digests
come from records that are the same, then chains of equal length and equal head are the same. -/
theorem linked_head_inj (previous : R → D) {Same : R → R → Prop}
    (hp : ∀ n p r, check n p r → previous r = p)
    (hsame : ∀ r s, Same r s → previous r = previous s) :
    ∀ {a b : List R}, a.length = b.length → Linked digest check n origin a →
      Linked digest check n origin b → head digest origin a = head digest origin b →
      (∀ r ∈ a, ∀ s ∈ b, digest r = digest s → Same r s) → List.Forall₂ Same a b := by
  intro a
  induction a using List.reverseRecOn with
  | nil =>
    intro b hlen _ _ _ _
    rw [List.eq_nil_of_length_eq_zero hlen.symm]
    exact .nil
  | append_singleton a r ih =>
    intro b hlen ha hb hh hinj
    rcases List.eq_nil_or_concat b with rfl | ⟨b, s, rfl⟩
    · simp at hlen
    · rw [List.concat_eq_append] at *
      rw [head_concat, head_concat] at hh
      obtain ⟨ha, hr⟩ := linked_concat.mp ha
      obtain ⟨hb, hs⟩ := linked_concat.mp hb
      have hrs : Same r s := hinj r (by simp) s (by simp) hh
      -- the records name the digests before them, so the heads of the rest agree too
      have hprev : head digest origin a = head digest origin b := by
        rw [← hp _ _ _ hr, ← hp _ _ _ hs, hsame r s hrs]
      have hrest := ih (by simpa using hlen) ha hb hprev fun r' hr' s' hs' =>
        hinj r' (List.mem_append_left _ hr') s' (List.mem_append_left _ hs')
      exact List.rel_append hrest (.cons hrs .nil)

end

end ArkForge.Lib.HashChain
