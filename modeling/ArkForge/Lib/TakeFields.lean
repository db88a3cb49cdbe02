import ArkForge.Lib.Result
import Mathlib.Data.List.Nodup
import Mathlib.Data.List.Perm.Subperm

/-! # Taking the fields of a map

A strict decoder takes the fields of a map out one by one and checks at the end that none is left.
The map is an association list with distinct keys. After any number of fields have been taken what is
left is `left fields names`, so a whole decoder is described by the lookups in the map it started
from (`takeAs_left`). -/

namespace ArkForge.Lib.TakeFields

open Result

variable {ε κ α β γ : Type} [DecidableEq κ]

/-- A computation over the fields that have not been taken yet. -/
abbrev Taking (ε κ α : Type) := StateT (List (κ × α)) (Except ε)

def take (missing : ε) (k : κ) : Taking ε κ α α := fun fields =>
  match fields.lookup k with
  | some a => .ok (a, fields.filter fun e => e.1 ≠ k)
  | none => .error missing

/-- Takes out the field under `k` and reads its value. -/
def takeAs (missing : ε) (k : κ) (read : α → Except ε β) : Taking ε κ α β := do
  let a ← take missing k
  read a

/-- The fields that are left when those under `names` have been taken. -/
def left (fields : List (κ × α)) (names : List κ) : List (κ × α) :=
  fields.filter fun e => e.1 ∉ names

theorem left_nil (fields : List (κ × α)) : left fields [] = fields := by
  simp [left]

variable {fields : List (κ × α)} {names : List κ} {k : κ} {s : List (κ × α)}

omit [DecidableEq κ] in
theorem run_bind_eq_ok {x : Taking ε κ α β} {f : β → Taking ε κ α γ}
    {r : γ × List (κ × α)} :
    (x >>= f) s = .ok r ↔ ∃ b s', x s = .ok (b, s') ∧ f b s' = .ok r := by
  show (x s >>= fun p => f p.1 p.2) = .ok r ↔ _
  rw [bind_eq_ok]
  exact Prod.exists

theorem lookup_left (hk : k ∉ names) :
    (left fields names).lookup k = fields.lookup k := by
  induction fields with
  | nil => rfl
  | cons e fields ih =>
    unfold left at ih ⊢
    by_cases he : e.1 ∈ names
    · have hne : (k == e.1) = false := beq_false_of_ne fun h => hk (h ▸ he)
      rw [List.filter_cons_of_neg (by simpa using he), ih, List.lookup_cons, hne]
    · rw [List.filter_cons_of_pos (by simpa using he), List.lookup_cons, List.lookup_cons, ih]

theorem lookup_left_of_mem (hk : k ∈ names) :
    (left fields names).lookup k = none := by
  refine List.lookup_eq_none_iff.mpr fun e he => ?_
  have hmem : e.1 ∉ names := by simpa using (List.mem_filter.mp he).2
  simpa using fun h : k = e.1 => hmem (h ▸ hk)

theorem filter_left (fields : List (κ × α)) (names : List κ) (k : κ) :
    (left fields names).filter (fun e => e.1 ≠ k) = left fields (k :: names) := by
  unfold left
  simp [not_or]

/-- One field is taken from what others have left: it must not be one of them, and its value is the
one in the map. -/
theorem takeAs_left {missing : ε} {read : α → Except ε β} {b : β} :
    takeAs missing k read (left fields names) = .ok (b, s) ↔
      k ∉ names ∧ (∃ a, fields.lookup k = some a ∧ read a = .ok b) ∧ s = left fields (k :: names) := by
  have hbind : takeAs missing k read (left fields names) = .ok (b, s) ↔
      ∃ a s', take missing k (left fields names) = .ok (a, s') ∧
        ((fun b => (b, s')) <$> read a) = .ok (b, s) := run_bind_eq_ok
  rw [hbind]
  unfold take
  by_cases hk : k ∈ names
  · rw [lookup_left_of_mem hk]
    simp [hk]
  · rw [lookup_left hk, filter_left]
    rcases hlook : fields.lookup k with _ | a
    · simp
    · simp only [Except.ok.injEq, Prod.mk.injEq, map_eq_ok, hk, not_false_eq_true, true_and,
        Option.some.injEq]
      constructor
      · rintro ⟨a', s', ⟨rfl, rfl⟩, b', hread, rfl, rfl⟩
        exact ⟨⟨a, rfl, hread⟩, rfl⟩
      · rintro ⟨⟨a', rfl, hread⟩, rfl⟩
        exact ⟨a, _, ⟨rfl, rfl⟩, b, hread, rfl, rfl⟩

/-- What a decoder that goes on after one field has read. -/
theorem takeAs_bind_left {missing : ε}
    {read : α → Except ε β} {f : β → Taking ε κ α γ} {r : γ × List (κ × α)} :
    (takeAs missing k read >>= f) (left fields names) = .ok r ↔
      k ∉ names ∧ ∃ b, (∃ a, fields.lookup k = some a ∧ read a = .ok b) ∧
        f b (left fields (k :: names)) = .ok r := by
  rw [run_bind_eq_ok]
  constructor
  · rintro ⟨b, s, htake, hrest⟩
    obtain ⟨hk, hread, rfl⟩ := takeAs_left.mp htake
    exact ⟨hk, b, hread, hrest⟩
  · rintro ⟨hk, b, hread, hrest⟩
    exact ⟨b, _, takeAs_left.mpr ⟨hk, hread, rfl⟩, hrest⟩

omit [DecidableEq κ] in
theorem pure_eq_ok {b : β} {r : β × List (κ × α)} :
    (pure b : Taking ε κ α β) s = .ok r ↔ (b, s) = r := by
  show Except.ok (b, s) = .ok r ↔ _
  rw [Except.ok.injEq]

theorem mem_of_lookup {a : α} (h : fields.lookup k = some a) :
    (k, a) ∈ fields := by
  obtain ⟨before, after, rfl, -⟩ := List.lookup_eq_some_iff.mp h
  exact List.mem_append_right _ List.mem_cons_self

theorem lookup_of_mem {a : α} :
    ∀ {fields : List (κ × α)}, (fields.map Prod.fst).Nodup → (k, a) ∈ fields →
      fields.lookup k = some a
  | e :: fields, hn, h => by
    rw [List.map_cons, List.nodup_cons] at hn
    rw [List.lookup_cons]
    rcases List.mem_cons.mp h with rfl | h
    · simp
    · have hne : k ≠ e.1 := fun he => hn.1 (he ▸ List.mem_map_of_mem (f := Prod.fst) h)
      rw [beq_false_of_ne hne]
      exact lookup_of_mem hn.2 h

/-- A map that has all of the given fields, and no more fields than these, is made of them. -/
theorem perm_of_lookup {expected : List (κ × α)} (hn : (expected.map Prod.fst).Nodup)
    (hlen : fields.length ≤ expected.length)
    (h : ∀ e ∈ expected, fields.lookup e.1 = some e.2) : expected.Perm fields := by
  have hsub : expected ⊆ fields := fun e he => mem_of_lookup (h e he)
  exact (List.subperm_of_subset (List.Nodup.of_map _ hn) hsub).perm_of_length_le hlen

/-- Nothing is left of a map when as many fields as it has have been taken. -/
theorem left_eq_nil (hn : names.Nodup)
    (hlen : fields.length ≤ names.length) (h : ∀ k ∈ names, ∃ a, fields.lookup k = some a) :
    left fields names = [] := by
  have hsub : names ⊆ fields.map Prod.fst := by
    intro k hk
    obtain ⟨a, ha⟩ := h k hk
    exact List.mem_map_of_mem (mem_of_lookup ha)
  have hperm : names.Perm (fields.map Prod.fst) :=
    (List.subperm_of_subset hn hsub).perm_of_length_le (by rwa [List.length_map])
  refine List.filter_eq_nil_iff.mpr fun e he => ?_
  have hmem := hperm.mem_iff.mpr (List.mem_map_of_mem he)
  simpa using hmem

end ArkForge.Lib.TakeFields
