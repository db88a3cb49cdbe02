import Mathlib.Order.Basic

/-! # Transactions that may fail

A computation over a state that keeps what it did to the state when it fails. `Ensures` is its weakest
precondition: `Ensures x s post` says that `post` holds of the result and the state that `x` ends in
from `s`. -/

namespace ArkForge.Lib.Transaction

/-- A computation over `σ` that may fail with an `ε`. -/
abbrev Tx (ε σ : Type) := ExceptT ε (StateM σ)

variable {ε σ α β : Type}

/-- The result of `x` from `s`, and the state it ends in. -/
def Tx.exec (x : Tx ε σ α) (s : σ) : Except ε α × σ := x.run.run s

/-- `x` started in `s` ends as `post` says. -/
def Ensures (x : Tx ε σ α) (s : σ) (post : Except ε α → σ → Prop) : Prop :=
  post (x.exec s).1 (x.exec s).2

variable {post : Except ε α → σ → Prop} {s : σ}

theorem Ensures.imp {x : Tx ε σ α} {post' : Except ε α → σ → Prop}
    (h : Ensures x s post) (himp : ∀ result s', post result s' → post' result s') :
    Ensures x s post' :=
  himp _ _ h

/-- What is ensured of a run that is known. -/
theorem Ensures.of_exec {x : Tx ε σ α} {s' : σ}
    {result : Except ε α} (h : Ensures x s post) (hx : x.exec s = (result, s')) : post result s' := by
  unfold Ensures at h
  rwa [hx] at h

theorem ensures_pure {a : α} (h : post (.ok a) s) :
    Ensures (pure a) s post := h

theorem ensures_mk {f : σ → Except ε α × σ}
    (h : post (f s).1 (f s).2) : Ensures (ExceptT.mk f : Tx ε σ α) s post := h

theorem exec_bind (x : Tx ε σ α) (f : α → Tx ε σ β) (s : σ) :
    (x >>= f).exec s = match x.exec s with
      | (.error e, s') => (.error e, s')
      | (.ok a, s') => (f a).exec s' := by
  show StateT.run (ExceptT.bindCont f (x.exec s).1) (x.exec s).2 = _
  rcases x.exec s with ⟨_ | a, s'⟩ <;> rfl

variable {post : Except ε β → σ → Prop} {f : α → Tx ε σ β}

/-- The rest runs only if the first part has not failed, and on what it left. -/
theorem ensures_bind {x : Tx ε σ α} (h : Ensures x s fun result s' =>
      match result with
      | .error e => post (.error e) s'
      | .ok a => Ensures (f a) s' post) :
    Ensures (x >>= f) s post := by
  unfold Ensures at h ⊢
  rw [exec_bind]
  rcases hx : x.exec s with ⟨_ | a, s'⟩ <;> rw [hx] at h <;> exact h

theorem ensures_get_bind {f : σ → Tx ε σ β}
    (h : Ensures (f s) s post) : Ensures (get >>= f) s post :=
  ensures_bind h

theorem ensures_liftExcept_bind {x : Except ε α}
    (herr : ∀ e, x = .error e → post (.error e) s)
    (hok : ∀ a, x = .ok a → Ensures (f a) s post) : Ensures (liftExcept x >>= f) s post := by
  cases x with
  | error e => exact herr e rfl
  | ok a => exact hok a rfl

/-- A value that is there is passed on. -/
theorem ensures_known {x : Except ε α} {a : α} (hx : x = .ok a)
    (h : Ensures (f a) s post) : Ensures (liftExcept x >>= f) s post := by
  subst hx
  exact ensures_liftExcept_bind nofun fun _ h' => Except.ok.inj h' ▸ h

end ArkForge.Lib.Transaction
