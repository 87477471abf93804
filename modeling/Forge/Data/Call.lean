import Forge.Data.Numerals
import Mathlib.Logic.Basic

/-!
# Calls that write and may fail

A call runs statements on a state one after the other. It returns or it throws,
and either way it leaves a state: what was written before the failing statement
stays written. `Call.transaction` runs a call so that a failure leaves the state
as it was.

`bind_eq_ok` and `bind_eq_error` take a run of a `do` block apart at its first
statement; the rules on transactions say what is left to prove of their body.
-/

namespace Forge

/-- A computation that changes a state, also when it throws. -/
def Call (σ ε α : Type) : Type := σ → Except ε α × σ

namespace Call

variable {σ ε α β : Type}

/-- Run the first call, and the second if the first returned. -/
def bind (x : Call σ ε α) (f : α → Call σ ε β) : Call σ ε β := fun s =>
  match x s with
  | (.ok a, t) => f a t
  | (.error e, t) => (.error e, t)

instance : Monad (Call σ ε) where
  pure a := fun s => (.ok a, s)
  bind := bind

/-- Throw, with the state as it is. -/
def throw (e : ε) : Call σ ε α := fun s => (.error e, s)

/-- Read the state. -/
def read : Call σ ε σ := fun s => (.ok s, s)

/-- One statement that cannot fail by itself. -/
def modify (f : σ → σ) : Call σ ε Unit := fun s => (.ok (), f s)

/-- Return the result of a computation that changes nothing. -/
def ofExcept (r : Except ε α) : Call σ ε α := fun s => (r, s)

/-- Run a call unless something outside makes it fail first. -/
def orFail (fault : Option ε) (x : Call σ ε α) : Call σ ε α :=
  match fault with
  | some e => throw e
  | none => x

/-- Commit what a call has written if it returns and the commit succeeds, and nothing otherwise. -/
def transaction (commitFault : Option ε) (x : Call σ ε α) : Call σ ε α := fun s =>
  match x s, commitFault with
  | (.ok a, t), none => (.ok a, t)
  | (.ok _, _), some e => (.error e, s)
  | (.error e, _), _ => (.error e, s)

theorem bind_apply (x : Call σ ε α) (f : α → Call σ ε β) (s : σ) : (x >>= f) s =
    match x s with
    | (.ok a, t) => f a t
    | (.error e, t) => (.error e, t) := rfl

/-- A sequence returns exactly when both of its parts do. -/
theorem bind_eq_ok {x : Call σ ε α} {f : α → Call σ ε β} {s u : σ} {b : β} :
    (x >>= f) s = (.ok b, u) ↔ ∃ a t, x s = (.ok a, t) ∧ f a t = (.ok b, u) := by
  rw [bind_apply]
  rcases x s with ⟨_ | a, t⟩
  · simp
  · exact ⟨fun h => ⟨a, t, rfl, h⟩, fun ⟨_, _, hx, h⟩ => by cases hx; exact h⟩

/-- A sequence throws exactly when its first part does, or returns and the second one throws. -/
theorem bind_eq_error {x : Call σ ε α} {f : α → Call σ ε β} {s u : σ} {e : ε} :
    (x >>= f) s = (.error e, u) ↔
      x s = (.error e, u) ∨ ∃ a t, x s = (.ok a, t) ∧ f a t = (.error e, u) := by
  rw [bind_apply]
  rcases x s with ⟨_ | a, t⟩
  · simp
  · refine ⟨fun h => .inr ⟨a, t, rfl, h⟩, fun h => ?_⟩
    rcases h with hx | ⟨_, _, hx, h⟩
    · cases hx
    · cases hx
      exact h

/-- **A transaction that throws changes nothing.** -/
theorem transaction_error {commitFault : Option ε} {x : Call σ ε α} {s t : σ} {e : ε}
    (h : transaction commitFault x s = (.error e, t)) : t = s := by
  unfold transaction at h
  split at h
  · cases h
  · exact (Prod.mk.inj h).2.symm
  · exact (Prod.mk.inj h).2.symm

/-- A transaction that returns has done what its body does. -/
theorem transaction_ok {commitFault : Option ε} {x : Call σ ε α} {s t : σ} {a : α}
    (h : transaction commitFault x s = (.ok a, t)) : commitFault = none ∧ x s = (.ok a, t) := by
  unfold transaction at h
  split at h
  · rename_i hx
    cases h
    exact ⟨rfl, hx⟩
  · cases h
  · cases h

/-- A statement returns when nothing makes it fail and it returns by itself. -/
theorem orFail_eq_ok {fault : Option ε} {x : Call σ ε α} {s t : σ} {a : α} :
    orFail fault x s = (.ok a, t) ↔ fault = none ∧ x s = (.ok a, t) := by
  cases fault with
  | none => simp [orFail]
  | some e => simp [orFail, throw]

theorem orFail_eq_error {fault : Option ε} {x : Call σ ε α} {s t : σ} {e : ε} :
    orFail fault x s = (.error e, t) ↔ (fault = some e ∧ t = s) ∨ (fault = none ∧ x s = (.error e, t)) := by
  cases fault with
  | none => simp [orFail]
  | some e' => simp [orFail, throw, eq_comm]

/-! ### What a call leaves alone -/

/-- Whether it returns or throws, the call changes the state only by `R`. -/
def Within (R : σ → σ → Prop) (x : Call σ ε α) : Prop := ∀ s, R s (x s).2

section

variable {R : σ → σ → Prop} {x : Call σ ε α}

theorem Within.bind {f : α → Call σ ε β} (trans : ∀ s t u, R s t → R t u → R s u) (hx : Within R x)
    (hf : ∀ a, Within R (f a)) : Within R (x >>= f) := by
  intro s
  have hs := hx s
  rw [bind_apply]
  rcases h : x s with ⟨_ | a, t⟩
  · rw [h] at hs
    exact hs
  · rw [h] at hs
    exact trans s t _ hs (hf a t)

theorem within_pure (refl : ∀ s, R s s) (a : α) : Within R (pure a : Call σ ε α) := refl

theorem within_throw (refl : ∀ s, R s s) (e : ε) : Within R (throw e : Call σ ε α) := refl

theorem within_ofExcept (refl : ∀ s, R s s) (r : Except ε α) : Within R (ofExcept r : Call σ ε α) := refl

theorem within_read (refl : ∀ s, R s s) : Within R (read : Call σ ε σ) := refl

end

end Call

end Forge
