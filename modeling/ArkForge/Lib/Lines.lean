import Mathlib.Data.List.Basic

/-! # Lines of a key and a value

A list of pairs written as a text of lines: the key, the separator `eq`, the value, the end mark `nl`.
Where keys do not contain `eq` and values do not contain `nl`, the text determines the pairs. A value
that contains a whole line cannot be told from two lines. Where values contain neither, the text
determines the pairs unless a key contains what a line ends with. -/

namespace ArkForge.Lib.Lines

variable {α : Type} {eq nl : α}

def line (eq nl : α) (pair : List α × List α) : List α := pair.1 ++ eq :: (pair.2 ++ [nl])

def text (eq nl : α) (pairs : List (List α × List α)) : List α := pairs.flatMap (line eq nl)

@[simp] theorem text_nil : text eq nl [] = [] := rfl

@[simp] theorem text_cons (pair : List α × List α) (pairs : List (List α × List α)) :
    text eq nl (pair :: pairs) = pair.1 ++ eq :: (pair.2 ++ nl :: text eq nl pairs) := by
  simp [text, line]

/-- A list is cut in one way only at the first occurrence of a separator. -/
theorem append_cons_inj {s : α} : ∀ {a a' b b' : List α}, s ∉ a → s ∉ a' →
    a ++ s :: b = a' ++ s :: b' → a = a' ∧ b = b'
  | [], [], _, _, _, _, h => by simpa using h
  | [], _ :: _, _, _, _, ha', h => by simp_all
  | _ :: _, [], _, _, ha, _, h => by simp_all
  | c :: a, c' :: a', b, b', ha, ha', h => by
    simp only [List.cons_append, List.cons.injEq] at h
    have := append_cons_inj (fun hm => ha (List.mem_cons_of_mem c hm))
      (fun hm => ha' (List.mem_cons_of_mem c' hm)) h.2
    exact ⟨by rw [h.1, this.1], this.2⟩

/-- **Lines whose values do not contain the end mark are read back.** -/
theorem text_injective : ∀ {l m : List (List α × List α)}, (∀ p ∈ l, eq ∉ p.1 ∧ nl ∉ p.2) →
    (∀ p ∈ m, eq ∉ p.1 ∧ nl ∉ p.2) → text eq nl l = text eq nl m → l = m
  | [], [], _, _, _ => rfl
  | [], _ :: _, _, _, h => by simp at h
  | _ :: _, [], _, _, h => by simp at h
  | (k, v) :: l, (k', v') :: m, hl, hm, h => by
    obtain ⟨⟨hk, hv⟩, hl⟩ := List.forall_mem_cons.mp hl
    obtain ⟨⟨hk', hv'⟩, hm⟩ := List.forall_mem_cons.mp hm
    simp only [text_cons] at h
    obtain ⟨hkey, hrest⟩ := append_cons_inj hk hk' h
    obtain ⟨hvalue, hrest⟩ := append_cons_inj hv hv' hrest
    rw [text_injective hl hm hrest, show k = k' from hkey, show v = v' from hvalue]

/-- A list is cut in one way only at the last occurrence of a separator. -/
theorem append_cons_inj_last {s : α} {a a' b b' : List α} (hb : s ∉ b) (hb' : s ∉ b')
    (h : a ++ s :: b = a' ++ s :: b') : a = a' ∧ b = b' := by
  have hreverse : b.reverse ++ s :: a.reverse = b'.reverse ++ s :: a'.reverse := by
    simpa using congrArg List.reverse h
  obtain ⟨hvalue, hkey⟩ := append_cons_inj (by simpa using hb) (by simpa using hb') hreverse
  exact ⟨List.reverse_injective hkey, List.reverse_injective hvalue⟩

/-- The key contains what a line ends with: the separator, one of the values and the end mark. -/
def Splits (eq nl : α) (values : Set (List α)) (key : List α) : Prop :=
  ∃ a v b, v ∈ values ∧ key = a ++ eq :: (v ++ nl :: b)

section Values

variable {values : Set (List α)} (hne : eq ≠ nl) (hvalues : ∀ v ∈ values, eq ∉ v ∧ nl ∉ v)

include hne hvalues

/-- No line ends inside another whose key does not split. -/
theorem line_ne_of_not_splits {k v z k' v' : List α} (hv : v ∈ values) (hv' : v' ∈ values)
    (hk' : ¬ Splits eq nl values k') : k ++ eq :: v ++ nl :: z ≠ k' ++ eq :: v' := by
  intro h
  have happend : (k ++ eq :: v ++ [nl]) ++ z = k' ++ eq :: v' := by simpa using h
  rcases List.append_eq_append_iff.mp happend with ⟨b, hkey, -⟩ | ⟨c, hkey, hrest⟩
  · exact hk' ⟨k, v, b, hv, by simpa using hkey⟩
  · rcases List.eq_nil_or_concat c with rfl | ⟨c, x, rfl⟩
    · exact hk' ⟨k, v, [], hv, by simpa using hkey.symm⟩
    · -- The end mark would be the separator or belong to the value.
      rw [List.concat_eq_append, ← List.append_assoc] at hkey
      obtain rfl : nl = x := by simpa using (List.append_inj' hkey rfl).2
      have hmem : nl ∈ eq :: v' := by simp [hrest]
      rcases List.mem_cons.mp hmem with heq | hmem
      · exact hne heq.symm
      · exact (hvalues v' hv').2 hmem

/-- **Lines whose keys do not split are read back**, though a key may contain the separator and the
end mark. -/
theorem text_injective_of_not_splits : ∀ {l m : List (List α × List α)},
    (∀ p ∈ l, p.2 ∈ values ∧ ¬ Splits eq nl values p.1) →
    (∀ p ∈ m, p.2 ∈ values ∧ ¬ Splits eq nl values p.1) → text eq nl l = text eq nl m → l = m
  | [], [], _, _, _ => rfl
  | [], _ :: _, _, _, h => by simp at h
  | _ :: _, [], _, _, h => by simp at h
  | (k, v) :: l, (k', v') :: m, hl, hm, h => by
    obtain ⟨⟨hv, hk⟩, hl⟩ := List.forall_mem_cons.mp hl
    obtain ⟨⟨hv', hk'⟩, hm⟩ := List.forall_mem_cons.mp hm
    have hlines : (k ++ eq :: v) ++ nl :: text eq nl l = (k' ++ eq :: v') ++ nl :: text eq nl m := by
      simpa using h
    obtain ⟨hline, hrest⟩ : k ++ eq :: v = k' ++ eq :: v' ∧ text eq nl l = text eq nl m := by
      rcases List.append_eq_append_iff.mp hlines with ⟨z, hline, hrest⟩ | ⟨z, hline, hrest⟩
      · cases z with
        | nil => simp_all
        | cons x z =>
          obtain ⟨rfl, -⟩ := List.cons.inj hrest
          exact absurd hline.symm (line_ne_of_not_splits hne hvalues hv hv' hk')
      · cases z with
        | nil => simp_all
        | cons x z =>
          obtain ⟨rfl, -⟩ := List.cons.inj hrest
          exact absurd hline.symm (line_ne_of_not_splits hne hvalues hv' hv hk)
    obtain ⟨hkey, hvalue⟩ := append_cons_inj_last (hvalues v hv).1 (hvalues v' hv').1 hline
    rw [text_injective_of_not_splits hl hm hrest, show k = k' from hkey, show v = v' from hvalue]

end Values

/-- The value that swallows the line after it. -/
def merged (eq nl : α) (value : List α) (next : List α × List α) : List α :=
  value ++ nl :: (next.1 ++ eq :: next.2)

/-- **Two lines can be taken for one.** -/
theorem text_merged (k v : List α) (next : List α × List α) (l : List (List α × List α)) :
    text eq nl ((k, merged eq nl v next) :: l) = text eq nl ((k, v) :: next :: l) := by
  simp [merged]

/-- All lines after the first can be taken for a part of the first one's value. -/
theorem exists_text_eq (next : List α × List α) : ∀ l : List (List α × List α),
    ∃ y, text eq nl (next :: l) = line eq nl (next.1, y) ∧ (l = [] → y = next.2)
  | [] => ⟨next.2, by simp [line], fun _ => rfl⟩
  | next' :: l => by
    obtain ⟨y, hy, _⟩ := exists_text_eq next' l
    refine ⟨merged eq nl next.2 (next'.1, y), ?_, fun h => by simp at h⟩
    rw [text_cons, hy]
    simp [line, merged]

/-- **What one line can be read as**: itself, or lines that its value contains. -/
theorem eq_or_merged_of_text_eq_line {k v : List α} (hk : eq ∉ k) :
    ∀ {l : List (List α × List α)}, (∀ p ∈ l, eq ∉ p.1) → text eq nl l = line eq nl (k, v) →
      l = [(k, v)] ∨ ∃ x next l' y, l = (k, x) :: next :: l' ∧ v = merged eq nl x (next.1, y)
  | [], _, h => by simp [line] at h
  | (k', x) :: l, hl, h => by
    obtain ⟨hk', hl⟩ := List.forall_mem_cons.mp hl
    rw [text_cons] at h
    obtain ⟨rfl, h⟩ := append_cons_inj hk' hk h
    match l with
    | [] =>
      have : x = v := List.append_left_injective [nl] h
      exact .inl (by rw [this])
    | next :: l' =>
      obtain ⟨y, hy, _⟩ := @exists_text_eq α eq nl next l'
      refine .inr ⟨x, next, l', y, rfl, ?_⟩
      rw [hy] at h
      refine (List.append_left_injective [nl] ?_).symm
      simpa [merged, line] using h

end ArkForge.Lib.Lines
