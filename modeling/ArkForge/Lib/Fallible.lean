import Mathlib.Logic.Basic

/-! # Computations over a state that may fail

`Exec σ ε α` is a computation that runs over a state and answers or fails. The state it has reached
stays either way: what was done before a failure is done. `Meets P x Q R` says what a computation
does from the states in `P`: the answers and states it ends in satisfy `Q`, the failures and the
states they leave satisfy `R`. There is one rule for each way to build a computation. -/

namespace ArkForge.Lib.Fallible

variable {σ τ ε δ α β : Type}

/-- A computation over a state. The state stays when it fails. -/
def Exec (σ ε α : Type) : Type := σ → Except ε α × σ

variable {x : Exec σ ε α} {f : α → Exec σ ε β} {a : α} {s s' : σ}

namespace Exec

instance : Monad (Exec σ ε) where
  pure a := fun s => (.ok a, s)
  bind x f := fun s => match x s with
    | (.ok a, s') => f a s'
    | (.error e, s') => (.error e, s')

def fail (e : ε) : Exec σ ε α := fun s => (.error e, s)

/-- A result that is known already. -/
def lift (r : Except ε α) : Exec σ ε α := fun s => (r, s)

def getState : Exec σ ε σ := fun s => (.ok s, s)

def modifyState (f : σ → σ) : Exec σ ε Unit := fun s => (.ok (), f s)

def mapError (f : ε → δ) (x : Exec σ ε α) : Exec σ δ α := fun s => ((x s).1.mapError f, (x s).2)

/-- A failure is answered by a further computation. -/
def handle (x : Exec σ ε α) (f : ε → Exec σ δ α) : Exec σ δ α := fun s => match x s with
  | (.ok a, s') => (.ok a, s')
  | (.error e, s') => f e s'

/-- The computation, on a part of a larger state. -/
def within (part : τ → σ) (put : τ → σ → τ) (x : Exec σ ε α) : Exec τ ε α := fun t =>
  ((x (part t)).1, put t (x (part t)).2)

theorem bind_apply_ok (h : x s = (.ok a, s')) : (x >>= f) s = f a s' := by
  show (match x s with
    | (.ok a, s') => f a s'
    | (.error e, s') => (.error e, s')) = _
  rw [h]

theorem bind_apply_error {e : ε}
    (h : x s = (.error e, s')) : (x >>= f) s = (.error e, s') := by
  show (match x s with
    | (.ok a, s') => f a s'
    | (.error e, s') => (.error e, s')) = _
  rw [h]

theorem getState_bind (f : σ → Exec σ ε β) (s : σ) : (getState >>= f) s = f s s := rfl

theorem modifyState_bind (g : σ → σ) (f : Unit → Exec σ ε β) (s : σ) :
    (modifyState g >>= f) s = f () (g s) := rfl

theorem lift_ok_bind (a : α) (f : α → Exec σ ε β) (s : σ) : (lift (.ok a) >>= f) s = f a s := rfl

theorem within_bind_ok {part : τ → σ} {put : τ → σ → τ} {f : α → Exec τ ε β} {t : τ}
    (h : x (part t) = (.ok a, s')) : (within part put x >>= f) t = f a (put t s') := by
  refine bind_apply_ok ?_
  unfold within
  rw [h]

end Exec

open Exec

/-! ### What a computation does -/

/-- From the states in `P`, the computation answers as `Q` says or fails as `R` says. -/
def Meets (P : σ → Prop) (x : Exec σ ε α) (Q : α → σ → Prop) (R : ε → σ → Prop) : Prop :=
  ∀ s, P s → match x s with
    | (.ok a, s') => Q a s'
    | (.error e, s') => R e s'

/-- From the states in `P`, the computation ends in `T`, whether it answers or fails. -/
abbrev Ends (P : σ → Prop) (x : Exec σ ε α) (T : σ → Prop) : Prop := Meets P x (fun _ => T) fun _ => T

section Rules

variable {P P' : σ → Prop} {Q Q' : α → σ → Prop} {R R' : ε → σ → Prop} {S : β → σ → Prop}

theorem Meets.ok (h : Meets P x Q R) (hs : P s)
    (hx : x s = (.ok a, s')) : Q a s' := by
  have := h s hs
  rwa [hx] at this

theorem Meets.error (h : Meets P x Q R) {e : ε} (hs : P s)
    (hx : x s = (.error e, s')) : R e s' := by
  have := h s hs
  rwa [hx] at this

theorem meets_iff : Meets P x Q R ↔
    (∀ s, P s → ∀ a s', x s = (.ok a, s') → Q a s') ∧
      ∀ s, P s → ∀ e s', x s = (.error e, s') → R e s' := by
  refine ⟨fun h => ⟨fun s hs a s' => h.ok hs, fun s hs e s' => h.error hs⟩, ?_⟩
  rintro ⟨hok, herror⟩ s hs
  rcases hx : x s with ⟨e | a, s'⟩
  · exact herror s hs e s' hx
  · exact hok s hs a s' hx

/-- The state in which a computation ends, whether it answers or fails. -/
theorem Meets.state {T : σ → Prop} (h : Ends P x T) (hs : P s) : T (x s).2 := by
  have := h s hs
  rcases hx : x s with ⟨_ | _, s'⟩ <;> rw [hx] at this <;> exact this

theorem meets_of_state {T : σ → Prop} (h : ∀ s, P s → T (x s).2) : Ends P x T := by
  intro s hs
  have := h s hs
  rcases hx : x s with ⟨_ | _, s'⟩ <;> rw [hx] at this <;> exact this

theorem Meets.weaken (h : Meets P x Q R) (hP : ∀ s, P' s → P s)
    (hQ : ∀ a s, Q a s → Q' a s) (hR : ∀ e s, R e s → R' e s) : Meets P' x Q' R' :=
  meets_iff.mpr ⟨fun s hs a s' hx => hQ a s' (h.ok (hP s hs) hx),
    fun s hs e s' hx => hR e s' (h.error (hP s hs) hx)⟩

theorem meets_any : Meets P x (fun _ _ => True) fun _ _ => True :=
  meets_of_state fun _ _ => trivial

theorem Meets.pre (h : Meets P x Q R) (hP : ∀ s, P' s → P s) : Meets P' x Q R :=
  fun s hs => h s (hP s hs)

theorem Meets.post (h : Meets P x Q R) (hQ : ∀ a s, Q a s → Q' a s) :
    Meets P x Q' R :=
  h.weaken (fun _ hs => hs) hQ fun _ _ hs => hs

theorem Meets.failing (h : Meets P x Q R) (hR : ∀ e s, R e s → R' e s) :
    Meets P x Q R' :=
  h.weaken (fun _ hs => hs) (fun _ _ hs => hs) hR

theorem meets_pure (h : ∀ s, P s → Q a s) : Meets P (pure a : Exec σ ε α) Q R := h

theorem meets_fail {e : ε} (h : ∀ s, P s → R e s) : Meets P (fail e : Exec σ ε α) Q R := h

theorem pure_keeps : Meets P (pure a : Exec σ ε α) (fun _ => P) R := fun _ hs => hs

theorem fail_keeps {e : ε} : Meets P (fail e : Exec σ ε α) Q fun _ => P := fun _ hs => hs

variable {r : Except ε α}

theorem meets_lift (hok : ∀ a, r = .ok a → ∀ s, P s → Q a s)
    (herror : ∀ e, r = .error e → ∀ s, P s → R e s) : Meets P (lift r : Exec σ ε α) Q R := by
  rcases r with e | a
  · exact herror e rfl
  · exact hok a rfl

theorem lift_keeps : Ends P (lift r) P :=
  meets_lift (fun _ _ _ hs => hs) fun _ _ _ hs => hs

/-- A known result whose error is renamed. -/
theorem meets_lift_mapError {r : Except δ α} {f : δ → ε} :
    Meets P (lift (r.mapError f) : Exec σ ε α) (fun a s => r = .ok a ∧ P s) fun _ => P := by
  rcases r with _ | a
  · exact fun _ hs => hs
  · exact fun _ hs => ⟨rfl, hs⟩

theorem meets_getState : Meets P (getState : Exec σ ε σ) (fun s' t => s' = t ∧ P t) R :=
  fun _ hs => ⟨rfl, hs⟩

theorem meets_modifyState {f : σ → σ} {Q : Unit → σ → Prop} (h : ∀ s, P s → Q () (f s)) :
    Meets P (modifyState f : Exec σ ε Unit) Q R := h

/-- One after the other. A failure of the first half is a failure of the whole. -/
theorem Meets.bind (hx : Meets P x Q R)
    (hf : ∀ a, Meets (Q a) (f a) S R) : Meets P (x >>= f) S R := by
  intro s hs
  rcases h : x s with ⟨e | a, s'⟩
  · rw [bind_apply_error h]
    exact hx.error hs h
  · rw [bind_apply_ok h]
    exact hf a s' (hx.ok hs h)

/-- What is known already does not change the state. -/
theorem meets_lift_bind (hf : ∀ a, r = .ok a → Meets P (f a) S R)
    (herror : ∀ e, r = .error e → ∀ s, P s → R e s) : Meets P (lift r >>= f) S R := by
  rcases r with e | a
  · exact herror e rfl
  · exact hf a rfl

theorem meets_getState_bind {f : σ → Exec σ ε β} (hf : ∀ s, Meets P (f s) S R) :
    Meets P (getState >>= f) S R :=
  meets_getState.bind fun s => (hf s).pre fun _ hs => hs.2

theorem meets_modifyState_bind {M : σ → Prop} {g : σ → σ} {f : Unit → Exec σ ε β}
    (hg : ∀ s, P s → M (g s)) (hf : Meets M (f ()) S R) : Meets P (modifyState g >>= f) S R :=
  fun s hs => hf (g s) (hg s hs)

theorem Meets.mapError {f : ε → δ} {R : δ → σ → Prop}
    (h : Meets P x Q fun e s => R (f e) s) : Meets P (x.mapError f) Q R := by
  intro s hs
  have hx := h s hs
  unfold Exec.mapError
  rcases hr : x s with ⟨e | a, s'⟩
  · rw [hr] at hx
    exact hx
  · rw [hr] at hx
    exact hx

theorem Meets.handle {f : ε → Exec σ δ α} {R' : δ → σ → Prop} (hx : Meets P x Q R)
    (hf : ∀ e, Meets (R e) (f e) Q R') : Meets P (x.handle f) Q R' := by
  intro s hs
  unfold Exec.handle
  rcases h : x s with ⟨e | a, s'⟩
  · exact hf e s' (hx.error hs h)
  · exact hx.ok hs h

theorem meets_ite {c : Prop} [Decidable c] {y : Exec σ ε α} (hx : c → Meets P x Q R)
    (hy : ¬ c → Meets P y Q R) : Meets P (if c then x else y) Q R := by
  by_cases h : c
  · rw [if_pos h]
    exact hx h
  · rw [if_neg h]
    exact hy h

/-- A part of a larger state. -/
theorem Meets.within {P : τ → Prop} {Q : α → τ → Prop} {R : ε → τ → Prop} {part : τ → σ}
    {put : τ → σ → τ}
    (h : ∀ t, P t → Meets (fun s => s = part t) x (fun a s => Q a (put t s)) fun e s => R e (put t s)) :
    Meets P (x.within part put) Q R := by
  intro t ht
  have hx := h t ht (part t) rfl
  unfold Exec.within
  rcases hr : x (part t) with ⟨e | a, s'⟩
  · rw [hr] at hx
    exact hx
  · rw [hr] at hx
    exact hx

end Rules

end ArkForge.Lib.Fallible
