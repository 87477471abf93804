import Forge.Data.DampedSystem
import Mathlib.Algebra.BigOperators.Fin
import Mathlib.LinearAlgebra.Matrix.Notation
import Mathlib.Tactic.FieldSimp

/-!
# The damped least squares step

`dls_step` of `forge-motion`, in exact arithmetic. It solves the two equations of the dual system by Cramer's rule, with
the entries of `J·Jᵀ + λ²I` accumulated over the columns of the Jacobian.

The **key result** is `dlsStep_solves`: what it returns is the only solution of the damped normal equations, unless the
determinant is below `1e-12`, and it is never below `λ⁴` (`pow_four_le_det`).
-/

namespace Forge.Control

open Matrix Damped

variable {K : Type*} [Field K]

/-- The entries of the symmetric matrix `A = J·Jᵀ + λ²I`. -/
structure DualMatrix (K : Type*) where
  a00 : K
  a01 : K
  a11 : K

namespace DualMatrix

/-- What the loop does with a column. -/
def add (a : DualMatrix K) (col : Fin 2 → K) : DualMatrix K where
  a00 := a.a00 + col 0 * col 0
  a01 := a.a01 + col 0 * col 1
  a11 := a.a11 + col 1 * col 1

def det (a : DualMatrix K) : K := a.a00 * a.a11 - a.a01 * a.a01

/-- `A⁻¹·err` by Cramer's rule. -/
def solve (a : DualMatrix K) (err : Fin 2 → K) : Fin 2 → K :=
  ![(a.a11 * err 0 - a.a01 * err 1) / a.det, (a.a00 * err 1 - a.a01 * err 0) / a.det]

/-- The entries for a Jacobian. -/
def ofColumns {n : ℕ} (jac : Vector (Fin 2 → K) n) (lambda : K) : DualMatrix K :=
  jac.foldl add ⟨lambda * lambda, 0, lambda * lambda⟩

end DualMatrix

/-- `dls_step`; `dtheta` has as many entries as there are columns, and all are written. -/
def dlsStep [LinearOrder K] {n : ℕ} (jac : Vector (Fin 2 → K) n) (err : Fin 2 → K) (lambda : K) : Vector K n :=
  let a := DualMatrix.ofColumns jac lambda
  let x := if |a.det| < 1 / 10 ^ 12 then ![0, 0] else a.solve err
  jac.map fun col => col 0 * x 0 + col 1 * x 1

/-! ### The Jacobian as a matrix -/

variable {n : ℕ} (jac : Vector (Fin 2 → K) n) (err : Fin 2 → K) (lambda : K)

/-- The matrix with these columns. -/
def jacobian : Matrix (Fin 2) (Fin n) K := fun i j => jac[j] i

theorem foldl_add (cols : List (Fin 2 → K)) (a : DualMatrix K) : cols.foldl DualMatrix.add a =
    ⟨a.a00 + (cols.map fun c => c 0 * c 0).sum, a.a01 + (cols.map fun c => c 0 * c 1).sum,
      a.a11 + (cols.map fun c => c 1 * c 1).sum⟩ := by
  induction cols generalizing a with
  | nil => simp
  | cons c cols ih =>
    rw [List.foldl_cons, ih]
    simp only [DualMatrix.add, List.map_cons, List.sum_cons, add_assoc]

/-- The loop accumulates the entries of the damped dual matrix. -/
theorem ofColumns_eq : DualMatrix.ofColumns jac lambda =
    ⟨lambda * lambda + ∑ j : Fin n, jac[j] 0 * jac[j] 0, ∑ j : Fin n, jac[j] 0 * jac[j] 1,
      lambda * lambda + ∑ j : Fin n, jac[j] 1 * jac[j] 1⟩ := by
  have hcolumns : jac.toList = List.ofFn fun j : Fin n => jac[j] := by
    apply List.ext_getElem <;> simp
  have hsum (f : (Fin 2 → K) → K) : (jac.toList.map f).sum = ∑ j : Fin n, f jac[j] := by
    rw [hcolumns, List.map_ofFn, List.sum_ofFn]
    rfl
  rw [DualMatrix.ofColumns, ← Vector.foldl_toList, foldl_add]
  simp only [hsum, zero_add]

/-- The accumulated entries are those of the dual system. -/
theorem damped_eq : damped (jacobian jac)ᵀ (lambda ^ 2) =
    !![(DualMatrix.ofColumns jac lambda).a00, (DualMatrix.ofColumns jac lambda).a01;
      (DualMatrix.ofColumns jac lambda).a01, (DualMatrix.ofColumns jac lambda).a11] := by
  have hentry (i k : Fin 2) : damped (jacobian jac)ᵀ (lambda ^ 2) i k =
      (∑ j : Fin n, jac[j] i * jac[j] k) + if i = k then lambda * lambda else 0 := by
    simp [damped, mul_apply, jacobian, one_apply, sq]
  have hcomm : ∑ j : Fin n, jac[j] 1 * jac[j] 0 = ∑ j : Fin n, jac[j] 0 * jac[j] 1 :=
    Finset.sum_congr rfl fun j _ => mul_comm _ _
  ext i k
  rw [hentry, ofColumns_eq]
  fin_cases i <;> fin_cases k
  · exact add_comm _ _
  · exact add_zero _
  · exact (add_zero _).trans hcomm
  · exact add_comm _ _

/-- Cramer's rule solves the dual system. -/
theorem mulVec_solve {a : DualMatrix K} (hdet : a.det ≠ 0) (err : Fin 2 → K) :
    !![a.a00, a.a01; a.a01, a.a11] *ᵥ a.solve err = err := by
  have hfirst : a.a00 * (a.solve err 0) + a.a01 * (a.solve err 1) = err 0 := by
    simp only [DualMatrix.solve, Matrix.cons_val_zero, Matrix.cons_val_one]
    field_simp
    rw [DualMatrix.det]
    ring
  have hsecond : a.a01 * (a.solve err 0) + a.a11 * (a.solve err 1) = err 1 := by
    simp only [DualMatrix.solve, Matrix.cons_val_zero, Matrix.cons_val_one]
    field_simp
    rw [DualMatrix.det]
    ring
  funext i
  rw [mulVec, dotProduct, Fin.sum_univ_two]
  fin_cases i
  · exact hfirst
  · exact hsecond

/-! ### The step -/

variable [LinearOrder K]

/-- The entries of the step that `dls_step` returns. -/
def stepOf : Fin n → K := fun j => (dlsStep jac err lambda)[j]

theorem stepOf_eq : stepOf jac err lambda = (jacobian jac)ᵀ *ᵥ
    (if |(DualMatrix.ofColumns jac lambda).det| < 1 / 10 ^ 12 then ![0, 0]
      else (DualMatrix.ofColumns jac lambda).solve err) := by
  funext j
  simp [stepOf, dlsStep, mulVec, dotProduct, Fin.sum_univ_two, jacobian]

variable [IsStrictOrderedRing K]

/-- **The determinant is at least `λ⁴`**, by the inequality of Cauchy and Schwarz. -/
theorem pow_four_le_det : lambda ^ 4 ≤ (DualMatrix.ofColumns jac lambda).det := by
  have hcauchy := Finset.sum_mul_sq_le_sq_mul_sq Finset.univ (fun j : Fin n => jac[j] 0) fun j => jac[j] 1
  have hfirst : 0 ≤ ∑ j : Fin n, jac[j] 0 ^ 2 := Finset.sum_nonneg fun j _ => sq_nonneg _
  have hsecond : 0 ≤ ∑ j : Fin n, jac[j] 1 ^ 2 := Finset.sum_nonneg fun j _ => sq_nonneg _
  rw [ofColumns_eq]
  simp only [DualMatrix.det, ← sq]
  generalize ∑ j : Fin n, jac[j] 0 ^ 2 = p at *
  generalize ∑ j : Fin n, jac[j] 1 ^ 2 = r at *
  generalize ∑ j : Fin n, jac[j] 0 * jac[j] 1 = q at *
  have hdamped : 0 ≤ lambda ^ 2 * (p + r) := mul_nonneg (sq_nonneg _) (add_nonneg hfirst hsecond)
  calc lambda ^ 4 ≤ lambda ^ 4 + (lambda ^ 2 * (p + r) + (p * r - q ^ 2)) := by linarith
    _ = (lambda ^ 2 + p) * (lambda ^ 2 + r) - q ^ 2 := by ring

/-- **The damped least squares step**: the step is the only solution of the damped normal equations, it never makes the
linear error larger, and the error stays as large only when the right-hand side vanishes, as long as the determinant is
at least `1e-12`. A step of zero for another right-hand side needs a damping below `1e-3`. -/
theorem dlsStep_solves (hlambda : 0 < lambda) :
    (1 / 10 ^ 12 ≤ (DualMatrix.ofColumns jac lambda).det →
      (∀ dtheta : Fin n → K, ((jacobian jac)ᵀ * jacobian jac + lambda ^ 2 • (1 : Matrix (Fin n) (Fin n) K)) *ᵥ dtheta =
        (jacobian jac)ᵀ *ᵥ err ↔ dtheta = stepOf jac err lambda) ∧
      (err - jacobian jac *ᵥ stepOf jac err lambda) ⬝ᵥ (err - jacobian jac *ᵥ stepOf jac err lambda) ≤ err ⬝ᵥ err ∧
      ((err - jacobian jac *ᵥ stepOf jac err lambda) ⬝ᵥ (err - jacobian jac *ᵥ stepOf jac err lambda) = err ⬝ᵥ err →
        (jacobian jac)ᵀ *ᵥ err = 0)) ∧
    lambda ^ 4 ≤ (DualMatrix.ofColumns jac lambda).det ∧
    (stepOf jac err lambda = 0 → (jacobian jac)ᵀ *ᵥ err ≠ 0 → lambda ^ 4 < 1 / 10 ^ 12) := by
  have hmu : 0 < lambda ^ 2 := pow_pos hlambda 2
  have hpow := pow_four_le_det jac lambda
  have hpos : 0 < (DualMatrix.ofColumns jac lambda).det := (pow_pos hlambda 4).trans_le hpow
  have hdual : damped (jacobian jac)ᵀ (lambda ^ 2) *ᵥ (DualMatrix.ofColumns jac lambda).solve err = err := by
    rw [damped_eq, mulVec_solve hpos.ne']
  have hstep (hdet : 1 / 10 ^ 12 ≤ (DualMatrix.ofColumns jac lambda).det) : stepOf jac err lambda =
      (jacobian jac)ᵀ *ᵥ (DualMatrix.ofColumns jac lambda).solve err := by
    rw [stepOf_eq, abs_of_pos hpos, if_neg hdet.not_gt]
  refine ⟨fun hdet => ?_, hpow, fun hzero hne => ?_⟩
  · rw [hstep hdet]
    refine ⟨fun dtheta => ⟨fun h => ?_, ?_⟩, residual_le hmu hdual, (residual_eq_iff hmu hdual).mp⟩
    · exact damped_injective hmu (h.trans (normal_of_dual hdual).symm)
    · rintro rfl
      exact normal_of_dual hdual
  · by_contra hlarge
    have hdet := (not_lt.mp hlarge).trans hpow
    apply hne
    rw [← normal_of_dual hdual, ← hstep hdet, hzero, mulVec_zero]

/-- The columns of a stretched arm of two links. -/
def stretched : Vector (Fin 2 → ℚ) 2 := #v[![-1, 0], ![-1, 1]]

theorem dlsStep_solves_stretched :
    (∀ dtheta : Fin 2 → ℚ, ((jacobian stretched)ᵀ * jacobian stretched +
      (1 / 2 : ℚ) ^ 2 • (1 : Matrix (Fin 2) (Fin 2) ℚ)) *ᵥ dtheta = (jacobian stretched)ᵀ *ᵥ ![1, 2] ↔
        dtheta = stepOf stretched ![1, 2] (1 / 2)) ∧
    stepOf stretched ![1, 2] (1 / 2) ≠ 0 := by
  have hdet : (1 : ℚ) / 10 ^ 12 ≤ (DualMatrix.ofColumns stretched (1 / 2)).det := by decide +kernel
  exact ⟨((dlsStep_solves stretched ![1, 2] (1 / 2) (by norm_num)).1 hdet).1, by decide +kernel⟩

end Forge.Control
