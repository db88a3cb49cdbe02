import Mathlib.Data.List.Forall2
import Mathlib.Data.List.Nodup

/-! # Fallible computations

What a successful `Except` computation says about its parts: a bind that succeeds has run both of
its halves, a loop that collects results has succeeded on every element. The last section is the
`seen` set that loops refusing duplicates keep. -/

namespace ArkForge.Lib.Result

variable {ε δ α β : Type}

@[simp] theorem ok_bind (a : α) (f : α → Except ε β) : (Except.ok a >>= f) = f a := rfl

@[simp] theorem error_bind (e : ε) (f : α → Except ε β) : (Except.error e >>= f) = .error e := rfl

variable {x : Except ε α} {f : α → Except ε β}

/-- A bind succeeds exactly when both halves do. -/
theorem bind_eq_ok {b : β} :
    (x >>= f) = .ok b ↔ ∃ a, x = .ok a ∧ f a = .ok b := by
  rcases x with e | a
  · simp
  · simp

/-- What is done to a result cannot fail. -/
theorem exists_bind_ok {g : α → β} :
    (∃ b, (x >>= fun a => Except.ok (g a)) = .ok b) ↔ ∃ a, x = .ok a := by
  rcases x with e | a
  · simp
  · simp

/-- A bind fails exactly when one of its halves does. -/
theorem bind_eq_error {e : ε} :
    (x >>= f) = .error e ↔ x = .error e ∨ ∃ a, x = .ok a ∧ f a = .error e := by
  rcases x with e' | a
  · simp
  · simp

/-- A check is passed exactly when its complaint does not apply. -/
theorem guard_eq_ok {c : Prop} [Decidable c] {e : ε} {a : α} :
    (if c then .error e else x) = .ok a ↔ ¬ c ∧ x = .ok a := by
  split_ifs with hc <;> simp [hc]

/-- A value that has to be there. -/
theorem elim_eq_ok {o : Option α} {e : ε} {a : α} : o.elim (.error e) Except.ok = .ok a ↔
    o = some a := by
  cases o <;> simp

theorem map_eq_ok {f : α → β} {b : β} :
    (f <$> x) = .ok b ↔ ∃ a, x = .ok a ∧ f a = b := by
  rcases x with e | a
  · constructor
    · intro h; cases h
    · rintro ⟨a, h, -⟩; cases h
  · constructor
    · intro h; cases h; exact ⟨a, rfl, rfl⟩
    · rintro ⟨a', h, rfl⟩; cases h; rfl

theorem mapError_ok (f : ε → δ) (a : α) : (Except.ok a : Except ε α).mapError f = .ok a := rfl

theorem mapError_eq_ok {f : ε → δ} {a : α} :
    x.mapError f = .ok a ↔ x = .ok a := by
  rcases x with e | b
  · constructor <;> (intro h; cases h)
  · constructor <;> (intro h; cases h; rfl)

theorem exists_of_isOk (h : x.isOk = true) : ∃ a, x = .ok a := by
  rcases x with e | a
  · cases h
  · exact ⟨a, rfl⟩

/-- Lists with one image are related element by element. -/
theorem forall₂_of_map_eq {γ : Type} {f : α → γ} {g : β → γ} {l : List α} {m : List β}
    (h : l.map f = m.map g) : List.Forall₂ (fun a b => f a = g b) l m := by
  rwa [← List.forall₂_eq_eq_eq, List.forall₂_map_left_iff, List.forall₂_map_right_iff] at h

/-- A loop that collects results succeeds exactly when it does so on every element. -/
theorem mapM_eq_ok :
    ∀ {l : List α} {r : List β}, l.mapM f = .ok r ↔ List.Forall₂ (fun a b => f a = .ok b) l r
  | [], r => by
    constructor
    · rintro h; cases h; exact .nil
    · rintro h; cases h; rfl
  | a :: l, r => by
    rw [List.mapM_cons, bind_eq_ok]
    constructor
    · rintro ⟨b, hb, h⟩
      rw [bind_eq_ok] at h
      obtain ⟨bs, hbs, h⟩ := h
      cases h
      exact .cons hb (mapM_eq_ok.mp hbs)
    · rintro (_ | ⟨hb, h⟩)
      exact ⟨_, hb, by rw [mapM_eq_ok.mpr h]; rfl⟩

theorem exists_of_forall₂ {R : α → β → Prop} {l : List α} {m : List β} (h : List.Forall₂ R l m)
    {a : α} (ha : a ∈ l) : ∃ b ∈ m, R a b := by
  induction h with
  | nil => cases ha
  | @cons x y l m hxy _ ih =>
    rcases List.mem_cons.mp ha with rfl | ha
    · exact ⟨y, List.mem_cons_self, hxy⟩
    · obtain ⟨b, hb, hab⟩ := ih ha
      exact ⟨b, List.mem_cons_of_mem _ hb, hab⟩

/-- Two lists that go with a third one go with each other. -/
theorem forall₂_through {γ : Type} {R : α → γ → Prop} {S : β → γ → Prop} {l : List α} {m : List β}
    {n : List γ} (h : List.Forall₂ R l n) (h' : List.Forall₂ S m n) :
    List.Forall₂ (fun a b => ∃ c ∈ n, R a c ∧ S b c) l m := by
  induction h generalizing m with
  | nil =>
    cases h'
    exact .nil
  | cons hfirst _ ih =>
    obtain _ | ⟨hfirst', hrest'⟩ := h'
    refine .cons ⟨_, List.mem_cons_self, hfirst, hfirst'⟩ ((ih hrest').imp ?_)
    rintro a b ⟨c, hc, hboth⟩
    exact ⟨c, List.mem_cons_of_mem _ hc, hboth⟩

/-! ### Lookup in a list of distinct keys -/

/-- What is found for the key that satisfies `P` is what stands under it. -/
theorem find?_eq_some_iff {κ : Type} {l : List (κ × α)} (hn : (l.map Prod.fst).Nodup)
    {P : κ → Prop} (hP : ∀ k k', P k → P k' → k = k') {p : κ × α → Bool}
    (hp : ∀ e, p e = true ↔ P e.1) {a : α} :
    (l.find? p).map Prod.snd = some a ↔ ∃ k, P k ∧ (k, a) ∈ l := by
  constructor
  · intro h
    obtain ⟨e, hfind, rfl⟩ := Option.map_eq_some_iff.mp h
    exact ⟨e.1, (hp e).mp (List.find?_some hfind), List.mem_of_find?_eq_some hfind⟩
  · rintro ⟨k, hk, hmem⟩
    rcases hfind : l.find? p with _ | e
    · exact absurd ((hp _).mpr hk) (List.find?_eq_none.mp hfind _ hmem)
    · have hkey : e.1 = k := hP _ _ ((hp e).mp (List.find?_some hfind)) hk
      rw [List.inj_on_of_nodup_map hn (List.mem_of_find?_eq_some hfind) hmem hkey]
      rfl

/-! ### Two computations side by side -/

/-- Both succeed with related results, or both fail with related errors. -/
inductive Agree (E : ε → ε → Prop) (R : α → β → Prop) : Except ε α → Except ε β → Prop where
  | ok {a : α} {b : β} : R a b → Agree E R (.ok a) (.ok b)
  | error {e e' : ε} : E e e' → Agree E R (.error e) (.error e')

theorem Agree.bind {α' β' : Type} {E : ε → ε → Prop} {R : α → β → Prop} {S : α' → β' → Prop}
    {y : Except ε β} {f : α → Except ε α'} {g : β → Except ε β'}
    (h : Agree E R x y) (hfg : ∀ a b, R a b → Agree E S (f a) (g b)) :
    Agree E S (x >>= f) (y >>= g) := by
  rcases h with hab | he
  · exact hfg _ _ hab
  · exact .error he

/-- What agrees up to `f` on the errors is equal once `f` is applied to them. -/
theorem Agree.mapError_eq {f : ε → δ} {y : Except ε α}
    (h : Agree (fun e e' => f e = f e') Eq x y) : x.mapError f = y.mapError f := by
  rcases h with rfl | he
  · rfl
  · exact congrArg Except.error he

/-! ### The `seen` set of a loop that refuses duplicates -/

/-- The first element of the list that stands earlier in it, or in `seen`. -/
def firstRepeat [DecidableEq α] : List α → List α → Option α
  | _, [] => none
  | seen, a :: l => if a ∈ seen then some a else firstRepeat (a :: seen) l

theorem firstRepeat_eq_none [DecidableEq α] :
    ∀ {l seen : List α}, firstRepeat seen l = none ↔ l.Nodup ∧ ∀ a ∈ l, a ∉ seen
  | [], seen => by simp [firstRepeat]
  | a :: l, seen => by
    rw [firstRepeat]
    by_cases h : a ∈ seen
    · simp [h]
    · rw [if_neg h, firstRepeat_eq_none]
      simp only [List.nodup_cons, List.mem_cons, not_or, forall_eq_or_imp]
      constructor
      · rintro ⟨hn, hs⟩
        exact ⟨⟨fun ha => (hs a ha).1 rfl, hn⟩, h, fun b hb => (hs b hb).2⟩
      · rintro ⟨⟨ha, hn⟩, -, hs⟩
        exact ⟨hn, fun b hb => ⟨fun he => ha (he ▸ hb), hs b hb⟩⟩

theorem firstRepeat_nil_eq_none [DecidableEq α] {l : List α} :
    firstRepeat [] l = none ↔ l.Nodup := by
  rw [firstRepeat_eq_none]; simp

end ArkForge.Lib.Result
