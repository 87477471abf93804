import Forge.Data.Numerals
import Mathlib.Algebra.Order.BigOperators.Ring.Finset
import Mathlib.Data.Matrix.Mul
import Mathlib.LinearAlgebra.Matrix.DotProduct
import Mathlib.Tactic.LinearCombination
import Mathlib.Tactic.Linarith

/-!
# Damped normal equations

The normal equations of a linear least squares problem `A θ ≈ e` are damped by a multiple `μ` of the identity,
`(AᵀA + μ) θ = Aᵀ e` (`damped`). For `0 < μ` they have at most one solution (`damped_injective`), and it is `Aᵀ x` for
the solution `x` of the dual system `(AAᵀ + μ) x = e`, which has as many equations as `A` has rows (`normal_of_dual`).

**`residual_le`** is that the solution never makes the error larger, and **`residual_eq_iff`** that it leaves the error
as large as it was only when the right-hand side vanishes.
-/

namespace Forge

open Matrix

namespace Damped

variable {m n K : Type*} [Fintype m] [Fintype n] [Field K]

/-- The matrix of the damped normal equations. -/
def damped [DecidableEq n] (A : Matrix m n K) (μ : K) : Matrix n n K := Aᵀ * A + μ • (1 : Matrix n n K)

theorem damped_mulVec [DecidableEq n] (A : Matrix m n K) (μ : K) (v : n → K) :
    damped A μ *ᵥ v = Aᵀ *ᵥ (A *ᵥ v) + μ • v := by
  rw [damped, add_mulVec, smul_mulVec, one_mulVec, mulVec_mulVec]

/-- The normal equations hold of what comes from a solution of the dual system. -/
theorem normal_of_dual [DecidableEq m] [DecidableEq n] {A : Matrix m n K} {μ : K} {x e : m → K}
    (hx : damped Aᵀ μ *ᵥ x = e) : damped A μ *ᵥ (Aᵀ *ᵥ x) = Aᵀ *ᵥ e := by
  rw [← hx, damped_mulVec, damped_mulVec, transpose_transpose, mulVec_add, mulVec_smul]

/-- What the error is after the step: the solution of the dual system, scaled. -/
theorem residual_of_dual [DecidableEq m] {A : Matrix m n K} {μ : K} {x e : m → K} (hx : damped Aᵀ μ *ᵥ x = e) :
    e - A *ᵥ (Aᵀ *ᵥ x) = μ • x := by
  rw [← hx, damped_mulVec, transpose_transpose, add_sub_cancel_left]

/-- The error before the step, by the error after it. -/
theorem error_of_dual [DecidableEq m] {A : Matrix m n K} {μ : K} {x e : m → K} (hx : damped Aᵀ μ *ᵥ x = e) :
    e ⬝ᵥ e = (A *ᵥ (Aᵀ *ᵥ x)) ⬝ᵥ (A *ᵥ (Aᵀ *ᵥ x)) + 2 * μ * ((Aᵀ *ᵥ x) ⬝ᵥ (Aᵀ *ᵥ x)) +
      (e - A *ᵥ (Aᵀ *ᵥ x)) ⬝ᵥ (e - A *ᵥ (Aᵀ *ᵥ x)) := by
  have hcross : (A *ᵥ (Aᵀ *ᵥ x)) ⬝ᵥ x = (Aᵀ *ᵥ x) ⬝ᵥ (Aᵀ *ᵥ x) := by
    rw [dotProduct_comm, dotProduct_mulVec, mulVec_transpose]
  have he : e = A *ᵥ (Aᵀ *ᵥ x) + μ • x := by rw [← residual_of_dual hx, add_sub_cancel]
  rw [residual_of_dual hx]
  nth_rewrite 1 2 [he]
  simp only [add_dotProduct, dotProduct_add, smul_dotProduct, dotProduct_smul, smul_eq_mul, dotProduct_comm x, hcross]
  ring

variable [LinearOrder K] [IsStrictOrderedRing K] {A : Matrix m n K} {μ : K}

theorem dotProduct_self_nonneg {ι : Type*} [Fintype ι] (v : ι → K) : 0 ≤ v ⬝ᵥ v :=
  Finset.sum_nonneg fun i _ => mul_self_nonneg (v i)

/-- **The damped normal equations have at most one solution.** -/
theorem damped_injective [DecidableEq n] (hμ : 0 < μ) : Function.Injective (damped A μ).mulVec := by
  intro v w hvw
  have hzero : damped A μ *ᵥ (v - w) = 0 := by rw [mulVec_sub, sub_eq_zero]; exact hvw
  have hsum : (A *ᵥ (v - w)) ⬝ᵥ (A *ᵥ (v - w)) + μ * ((v - w) ⬝ᵥ (v - w)) = 0 := by
    calc (A *ᵥ (v - w)) ⬝ᵥ (A *ᵥ (v - w)) + μ * ((v - w) ⬝ᵥ (v - w))
        = (v - w) ⬝ᵥ (damped A μ *ᵥ (v - w)) := by
          rw [damped_mulVec, dotProduct_add, dotProduct_smul, smul_eq_mul, dotProduct_mulVec _ Aᵀ,
            vecMul_transpose]
      _ = 0 := by rw [hzero, dotProduct_zero]
  have hself : (v - w) ⬝ᵥ (v - w) = 0 := by
    have hfirst := dotProduct_self_nonneg (A *ᵥ (v - w))
    have hsecond := mul_nonneg hμ.le (dotProduct_self_nonneg (v - w))
    have hmul : μ * ((v - w) ⬝ᵥ (v - w)) = 0 := by linarith
    exact (mul_eq_zero.mp hmul).resolve_left hμ.ne'
  exact sub_eq_zero.mp (dotProduct_self_eq_zero.mp hself)

/-- **The step never makes the error larger.** -/
theorem residual_le [DecidableEq m] (hμ : 0 < μ) {x e : m → K} (hx : damped Aᵀ μ *ᵥ x = e) :
    (e - A *ᵥ (Aᵀ *ᵥ x)) ⬝ᵥ (e - A *ᵥ (Aᵀ *ᵥ x)) ≤ e ⬝ᵥ e := by
  have hfirst := dotProduct_self_nonneg (A *ᵥ (Aᵀ *ᵥ x))
  have hsecond := mul_nonneg (mul_nonneg zero_le_two hμ.le) (dotProduct_self_nonneg (Aᵀ *ᵥ x))
  rw [error_of_dual hx]
  linarith

/-- **The error stays as large only when there is nothing to solve.** -/
theorem residual_eq_iff [DecidableEq m] [DecidableEq n] (hμ : 0 < μ) {x e : m → K} (hx : damped Aᵀ μ *ᵥ x = e) :
    (e - A *ᵥ (Aᵀ *ᵥ x)) ⬝ᵥ (e - A *ᵥ (Aᵀ *ᵥ x)) = e ⬝ᵥ e ↔ Aᵀ *ᵥ e = 0 := by
  constructor
  · intro heq
    have hfirst := dotProduct_self_nonneg (A *ᵥ (Aᵀ *ᵥ x))
    have hsecond := mul_nonneg hμ.le (dotProduct_self_nonneg (Aᵀ *ᵥ x))
    have hstep : μ * ((Aᵀ *ᵥ x) ⬝ᵥ (Aᵀ *ᵥ x)) = 0 := by
      rw [error_of_dual hx] at heq
      linarith
    have hnone : Aᵀ *ᵥ x = 0 := dotProduct_self_eq_zero.mp ((mul_eq_zero.mp hstep).resolve_left hμ.ne')
    rw [← normal_of_dual hx, hnone, mulVec_zero]
  · intro hzero
    have hnone : Aᵀ *ᵥ x = 0 := by
      apply damped_injective (A := A) hμ
      rw [normal_of_dual hx, hzero, mulVec_zero]
    rw [hnone, mulVec_zero, sub_zero]

end Damped

end Forge
