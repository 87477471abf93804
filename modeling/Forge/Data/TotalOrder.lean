import Forge.Data.FloatQuotient
import Mathlib.Tactic.FinCases

/-!
# Comparing doubles

The two comparisons of doubles in Rust, `total_cmp` and `partial_cmp`, and the choice of the greatest of three
(`maxBy`). They choose the same index by the absolute values of numbers (`maxBy_partialCmp`); the partial comparison
chooses none when there is a NaN.
-/

namespace Forge

open Float.Model

/-- `total_cmp`; there is one NaN, and it is positive. -/
def totalCmp (x y : Float) : Ordering :=
  match x.toModel.unpack, y.toModel.unpack with
  | .notANumber, .notANumber => .eq
  | .notANumber, _ => .gt
  | _, .notANumber => .lt
  | .zero .negative, .zero .positive => .lt
  | .zero .positive, .zero .negative => .gt
  | a, b => (a.compare b).getD .eq

/-- `partial_cmp` -/
def partialCmp (x y : Float) : Option Ordering := x.toModel.unpack.compare y.toModel.unpack

/-- `(0..3).max_by` for a comparison that may panic: the last of the greatest. -/
def maxBy (cmp : Fin 3 → Fin 3 → Option Ordering) : Option (Fin 3) := do
  let first := if (← cmp 0 1) = .gt then 0 else 1
  return if (← cmp first 2) = .gt then first else 2

theorem partialCmp_abs {x y : Float} (hx : x.isNaN = false) (hy : y.isNaN = false) :
    partialCmp x.abs y.abs = some (totalCmp x.abs y.abs) := by
  have hsignx := hasSign_abs hx
  have hsigny := hasSign_abs hy
  rw [partialCmp, totalCmp]
  generalize x.abs.toModel.unpack = u at hsignx ⊢
  generalize y.abs.toModel.unpack = v at hsigny ⊢
  cases u with
  | notANumber => exact hsignx.elim
  | infinity s =>
    obtain rfl : s = .positive := hsignx
    cases v with
    | notANumber => exact hsigny.elim
    | infinity t | zero t | finite t _ _ _ =>
      obtain rfl : t = .positive := hsigny
      rfl
  | zero s =>
    obtain rfl : s = .positive := hsignx
    cases v with
    | notANumber => exact hsigny.elim
    | infinity t | zero t | finite t _ _ _ =>
      obtain rfl : t = .positive := hsigny
      rfl
  | finite s m e hm =>
    obtain rfl : s = .positive := hsignx
    cases v with
    | notANumber => exact hsigny.elim
    | infinity t | zero t | finite t _ _ _ =>
      obtain rfl : t = .positive := hsigny
      rfl

theorem unpack_abs_of_isNaN {x : Float} (h : x.isNaN = true) : x.abs.toModel.unpack = .notANumber := by
  have hnan : x.toModel.unpack.isNaN = true := h
  have habs : x.abs.toModel.unpack.isNaN = true := by
    change (UnpackedFloat.unpack .binary64 (UnpackedFloat.pack .binary64 x.toModel.unpack.abs)).isNaN = true
    cases hu : x.toModel.unpack with
    | notANumber => decide
    | infinity s | zero s | finite s _ _ _ =>
      rw [hu] at hnan
      cases hnan
  cases hu : x.abs.toModel.unpack with
  | notANumber => rfl
  | infinity s | zero s | finite s _ _ _ =>
    rw [hu] at habs
    cases habs

/-- The partial comparison of absolute values is defined for numbers only. -/
theorem not_isNaN_of_partialCmp {x y : Float} {o : Ordering} (h : partialCmp x.abs y.abs = some o) :
    x.isNaN = false ∧ y.isNaN = false := by
  rw [partialCmp] at h
  constructor
  · by_contra hx
    rw [unpack_abs_of_isNaN (Bool.not_eq_false _ ▸ hx)] at h
    cases h
  · by_contra hy
    rw [@unpack_abs_of_isNaN y (Bool.not_eq_false _ ▸ hy)] at h
    cases hu : x.abs.toModel.unpack <;> rw [hu] at h <;> cases h

variable (a : Fin 3 → Float)

/-- **The two comparisons choose the same index** by the absolute values of numbers. -/
theorem maxBy_partialCmp (h : ∀ k, (a k).isNaN = false) :
    maxBy (fun i j => partialCmp (a i).abs (a j).abs) = maxBy fun i j => totalCmp (a i).abs (a j).abs := by
  have hcmp : (fun i j => partialCmp (a i).abs (a j).abs) = fun i j => some (totalCmp (a i).abs (a j).abs) := by
    funext i j
    exact partialCmp_abs (h i) (h j)
  rw [hcmp]

/-- When there is a NaN, the partial comparison chooses none. -/
theorem not_isNaN_of_maxBy {k : Fin 3} (h : maxBy (fun i j => partialCmp (a i).abs (a j).abs) = some k) (i : Fin 3) :
    (a i).isNaN = false := by
  obtain ⟨first, hfirst, h⟩ := Option.bind_eq_some_iff.mp h
  obtain ⟨second, hsecond, -⟩ := Option.bind_eq_some_iff.mp h
  fin_cases i
  · exact (not_isNaN_of_partialCmp hfirst).1
  · exact (not_isNaN_of_partialCmp hfirst).2
  · exact (not_isNaN_of_partialCmp hsecond).2

end Forge
