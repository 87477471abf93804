import Forge.Contract.Model
import Forge.Data.FloatValue
import Mathlib.Algebra.Field.Rat
import Mathlib.LinearAlgebra.Matrix.Notation

/-!
# Transforms

The 4×4 transforms of `forge-geometry` in exact arithmetic over a field: a double stands
for the number it is, and the sine and cosine of an angle for the coordinates of a
rotation (`Exact`). A matrix is written down column by column, as the source stores it.
-/

namespace Forge.Geometry

open Contract

variable {K : Type} [DivisionRing K]

/-- A column-major 4×4 matrix. -/
abbrev Mat4 (K : Type) : Type := Matrix (Fin 4) (Fin 4) K

/-- The matrix with these sixteen entries, column by column. -/
def Mat4.ofColumns (m : Fin 16 → K) : Mat4 K := fun r c => m ⟨4 * c + r, by omega⟩

/-- `forge_num::sin_cos` as the coordinates of an exact rotation. -/
structure Exact (K : Type) [DivisionRing K] where
  sin : Float → K
  cos : Float → K
  unit : ∀ a, sin a ^ 2 + cos a ^ 2 = 1

theorem unit_unturned (_ : Float) : (0 : ℚ) ^ 2 + 1 ^ 2 = 1 := by norm_num

/-- The number that a double is. -/
def num (x : Float) : K := (floatValue x : K)

def identity : Mat4 K :=
  .ofColumns ![1, 0, 0, 0,
               0, 1, 0, 0,
               0, 0, 1, 0,
               0, 0, 0, 1]

theorem identity_eq_one : (identity : Mat4 K) = 1 := by
  ext r c
  fin_cases r <;> fin_cases c <;> rfl

/-- The identity with a translation in its last column. -/
def translation (pos : Arr3 Float) : Mat4 K :=
  .ofColumns ![1, 0, 0, 0,
               0, 1, 0, 0,
               0, 0, 1, 0,
               num pos.x, num pos.y, num pos.z, 1]

variable (E : Exact K)

/-- `rot_x` -/
def rotX (a : Float) : Mat4 K :=
  .ofColumns ![1, 0, 0, 0,
               0, E.cos a, E.sin a, 0,
               0, -E.sin a, E.cos a, 0,
               0, 0, 0, 1]

/-- `rot_y` -/
def rotY (a : Float) : Mat4 K :=
  .ofColumns ![E.cos a, 0, -E.sin a, 0,
               0, 1, 0, 0,
               E.sin a, 0, E.cos a, 0,
               0, 0, 0, 1]

/-- `rot_z` -/
def rotZ (a : Float) : Mat4 K :=
  .ofColumns ![E.cos a, E.sin a, 0, 0,
               -E.sin a, E.cos a, 0, 0,
               0, 0, 1, 0,
               0, 0, 0, 1]

/-- `trs`: T·Ry·Rx·Rz. -/
def trs (pos rot : Arr3 Float) : Mat4 K := translation pos * (rotY E rot.y * (rotX E rot.x * rotZ E rot.z))

/-- The position stands in the last column. -/
theorem trs_position (pos rot : Arr3 Float) : trs E pos rot 0 3 = num pos.x := by
  simp [trs, translation, rotX, rotY, rotZ, Mat4.ofColumns, Matrix.mul_apply, Fin.sum_univ_four]

end Forge.Geometry
