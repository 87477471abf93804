import Forge.Data.Numerals
import Mathlib.Algebra.Order.Field.Basic
import Mathlib.LinearAlgebra.Matrix.NonsingularInverse
import Mathlib.LinearAlgebra.Matrix.Notation
import Mathlib.Tactic.FinCases
import Mathlib.Tactic.LinearCombination
import Mathlib.Tactic.FieldSimp

/-!
# Rotations of space

Rotations as 3×3 matrices over an ordered field in which what is not negative has a square
root. An angle is the pair of its cosine and its sine. A unit quaternion and three angles both
stand for a rotation; the facts here are what recovers them from its matrix: the entries of a
rotation are its own cofactors (`IsRotation.cofactors`).
-/

namespace Rotations

/-- An ordered field with square roots. -/
class EuclideanField (K : Type) extends Field K, LinearOrder K, IsStrictOrderedRing K where
  sqrt : K → K
  sqrt_nonneg : ∀ x, 0 ≤ sqrt x
  sqrt_sq : ∀ {x}, 0 ≤ x → sqrt x ^ 2 = x

export EuclideanField (sqrt sqrt_nonneg sqrt_sq)

abbrev Mat3 (K : Type) : Type := Matrix (Fin 3) (Fin 3) K

section

variable {K : Type} [Field K]

/-- A matrix whose transpose is its inverse, and which keeps orientation. -/
structure IsRotation (m : Mat3 K) : Prop where
  mul_transpose : m * m.transpose = 1
  det : m.det = 1

theorem IsRotation.one : IsRotation (1 : Mat3 K) := ⟨by simp, by simp⟩

theorem IsRotation.mul {m n : Mat3 K} (hm : IsRotation m) (hn : IsRotation n) : IsRotation (m * n) := by
  constructor
  · rw [Matrix.transpose_mul, Matrix.mul_assoc, ← Matrix.mul_assoc n, hn.mul_transpose, Matrix.one_mul, hm.mul_transpose]
  · rw [Matrix.det_mul, hm.det, hn.det, one_mul]

theorem IsRotation.transpose_mul {m : Mat3 K} (hm : IsRotation m) : m.transpose * m = 1 :=
  mul_eq_one_comm.mp hm.mul_transpose

theorem IsRotation.transpose {m : Mat3 K} (hm : IsRotation m) : IsRotation m.transpose :=
  ⟨by rw [Matrix.transpose_transpose, hm.transpose_mul], by rw [Matrix.det_transpose, hm.det]⟩

/-- The cofactors of a rotation are its entries. -/
theorem IsRotation.adjugate {m : Mat3 K} (hm : IsRotation m) : m.adjugate = m.transpose := by
  have h : m.transpose * (m * m.adjugate) = m.adjugate := by
    rw [← Matrix.mul_assoc, hm.transpose_mul, Matrix.one_mul]
  rw [← h, Matrix.mul_adjugate, hm.det, one_smul, Matrix.mul_one]

/-- What the entries of a rotation satisfy: every row has length one, and every entry is its cofactor. -/
structure Entries (m : Mat3 K) : Prop where
  r0 : m 0 0 ^ 2 + m 0 1 ^ 2 + m 0 2 ^ 2 = 1
  r1 : m 1 0 ^ 2 + m 1 1 ^ 2 + m 1 2 ^ 2 = 1
  r2 : m 2 0 ^ 2 + m 2 1 ^ 2 + m 2 2 ^ 2 = 1
  k0 : m 0 0 ^ 2 + m 1 0 ^ 2 + m 2 0 ^ 2 = 1
  k1 : m 0 1 ^ 2 + m 1 1 ^ 2 + m 2 1 ^ 2 = 1
  k2 : m 0 2 ^ 2 + m 1 2 ^ 2 + m 2 2 ^ 2 = 1
  c00 : m 1 1 * m 2 2 - m 1 2 * m 2 1 = m 0 0
  c01 : m 1 2 * m 2 0 - m 1 0 * m 2 2 = m 0 1
  c02 : m 1 0 * m 2 1 - m 1 1 * m 2 0 = m 0 2
  c10 : m 0 2 * m 2 1 - m 0 1 * m 2 2 = m 1 0
  c11 : m 0 0 * m 2 2 - m 0 2 * m 2 0 = m 1 1
  c12 : m 0 1 * m 2 0 - m 0 0 * m 2 1 = m 1 2
  c20 : m 0 1 * m 1 2 - m 0 2 * m 1 1 = m 2 0
  c21 : m 0 2 * m 1 0 - m 0 0 * m 1 2 = m 2 1
  c22 : m 0 0 * m 1 1 - m 0 1 * m 1 0 = m 2 2

theorem IsRotation.entries {m : Mat3 K} (hm : IsRotation m) : Entries m := by
  have hrow (i : Fin 3) := congrFun (congrFun hm.mul_transpose i) i
  have hcol (i : Fin 3) := congrFun (congrFun hm.transpose_mul i) i
  have hadj (i j : Fin 3) := congrFun (congrFun hm.adjugate j) i
  simp only [Matrix.mul_apply, Fin.sum_univ_three, Matrix.transpose_apply, Matrix.one_apply_eq] at hrow hcol
  simp only [Matrix.adjugate_fin_three, Matrix.transpose_apply] at hadj
  have h00 := hadj 0 0
  have h01 := hadj 0 1
  have h02 := hadj 0 2
  have h10 := hadj 1 0
  have h11 := hadj 1 1
  have h12 := hadj 1 2
  have h20 := hadj 2 0
  have h21 := hadj 2 1
  have h22 := hadj 2 2
  simp at h00 h01 h02 h10 h11 h12 h20 h21 h22
  constructor
  · linear_combination hrow 0
  · linear_combination hrow 1
  · linear_combination hrow 2
  · linear_combination hcol 0
  · linear_combination hcol 1
  · linear_combination hcol 2
  · linear_combination h00
  · linear_combination h01
  · linear_combination h02
  · linear_combination h10
  · linear_combination h11
  · linear_combination h12
  · linear_combination h20
  · linear_combination h21
  · linear_combination h22

/-- Four times the products of the coordinates (w, x, y, z) of the quaternion of a rotation. -/
def products (m : Mat3 K) : Matrix (Fin 4) (Fin 4) K :=
  !![1 + m 0 0 + m 1 1 + m 2 2, m 2 1 - m 1 2, m 0 2 - m 2 0, m 1 0 - m 0 1;
     m 2 1 - m 1 2, 1 + m 0 0 - m 1 1 - m 2 2, m 0 1 + m 1 0, m 0 2 + m 2 0;
     m 0 2 - m 2 0, m 0 1 + m 1 0, 1 + m 1 1 - m 0 0 - m 2 2, m 1 2 + m 2 1;
     m 1 0 - m 0 1, m 0 2 + m 2 0, m 1 2 + m 2 1, 1 + m 2 2 - m 0 0 - m 1 1]

theorem products_rank {m : Mat3 K} (hm : IsRotation m) (i j k : Fin 4) :
    products m i j * products m i k = products m i i * products m j k := by
  obtain ⟨r0, r1, r2, k0, k1, k2, c00, c01, c02, c10, c11, c12, c20, c21, c22⟩ := hm.entries
  fin_cases i <;> fin_cases j <;> fin_cases k <;> simp [products] <;> grind

/-! ### Quaternions and angles -/

/-- The matrix of a unit quaternion. -/
def ofQuaternion (w x y z : K) : Mat3 K :=
  !![1 - 2 * (y ^ 2 + z ^ 2), 2 * (x * y - w * z), 2 * (x * z + w * y);
     2 * (x * y + w * z), 1 - 2 * (x ^ 2 + z ^ 2), 2 * (y * z - w * x);
     2 * (x * z - w * y), 2 * (y * z + w * x), 1 - 2 * (x ^ 2 + y ^ 2)]

/-- **A quaternion whose products are those of a rotation stands for that rotation.** -/
theorem ofQuaternion_eq {m : Mat3 K} {w x y z : K} (h2 : (2 : K) ≠ 0)
    (h : ∀ i j, 4 * (![w, x, y, z] i * ![w, x, y, z] j) = products m i j) : ofQuaternion w x y z = m := by
  have h01 := h 0 1
  have h02 := h 0 2
  have h03 := h 0 3
  have h11 := h 1 1
  have h12 := h 1 2
  have h13 := h 1 3
  have h22 := h 2 2
  have h23 := h 2 3
  have h33 := h 3 3
  simp [products] at h01 h02 h03 h11 h12 h13 h22 h23 h33
  ext i j
  fin_cases i <;> fin_cases j <;> simp [ofQuaternion] <;> grind

/-- **A row of the products is the quaternion, up to a factor**: any row of which the diagonal entry is
not zero gives the quaternion back. -/
theorem ofQuaternion_row {m : Mat3 K} (hm : IsRotation m) {i : Fin 4} {s : K} (h2 : (2 : K) ≠ 0) (hs : s ≠ 0)
    (hs2 : s ^ 2 = 4 * products m i i) :
    ofQuaternion (products m i 0 / s) (products m i 1 / s) (products m i 2 / s) (products m i 3 / s) = m := by
  refine ofQuaternion_eq h2 fun j k => ?_
  have hdiv : ![products m i 0 / s, products m i 1 / s, products m i 2 / s, products m i 3 / s] =
      fun j => products m i j / s := by
    ext j
    fin_cases j <;> rfl
  rw [hdiv]
  have hii : products m i i ≠ 0 := by
    intro h0
    rw [h0, mul_zero] at hs2
    exact hs (pow_eq_zero_iff two_ne_zero |>.mp hs2)
  have hrank := products_rank hm i j k
  field_simp
  rw [hs2]
  linear_combination 4 * hrank

/-- An angle by its cosine and its sine. -/
structure Angle (K : Type) where
  cos : K
  sin : K

/-- `Rz(yaw)·Ry(pitch)·Rx(roll)` -/
def rollPitchYaw (roll pitch yaw : Angle K) : Mat3 K :=
  !![yaw.cos * pitch.cos, roll.sin * pitch.sin * yaw.cos - roll.cos * yaw.sin, roll.cos * pitch.sin * yaw.cos + roll.sin * yaw.sin;
     yaw.sin * pitch.cos, roll.sin * pitch.sin * yaw.sin + roll.cos * yaw.cos, roll.cos * pitch.sin * yaw.sin - roll.sin * yaw.cos;
     -pitch.sin, roll.sin * pitch.cos, roll.cos * pitch.cos]

/-- The angles of a rotation whose pitch is not a right angle. -/
theorem rollPitchYaw_eq {m : Mat3 K} (hm : IsRotation m) {roll pitch yaw : Angle K} (hp : pitch.cos ≠ 0)
    (h20 : -pitch.sin = m 2 0) (h21 : roll.sin * pitch.cos = m 2 1) (h22 : roll.cos * pitch.cos = m 2 2)
    (h10 : yaw.sin * pitch.cos = m 1 0) (h00 : yaw.cos * pitch.cos = m 0 0) (hu : pitch.sin ^ 2 + pitch.cos ^ 2 = 1) :
    rollPitchYaw roll pitch yaw = m := by
  obtain ⟨r0, r1, r2, k0, k1, k2, c00, c01, c02, c10, c11, c12, c20, c21, c22⟩ := hm.entries
  ext i j
  fin_cases i <;> fin_cases j <;> simp [rollPitchYaw] <;> grind

/-- Without roll the yaw is in the second column. -/
theorem rollPitchYaw_eq_of_level {m : Mat3 K} (hm : IsRotation m) {pitch yaw : Angle K}
    (h20 : -pitch.sin = m 2 0) (h21 : 0 = m 2 1) (h22 : pitch.cos = m 2 2)
    (h01 : -yaw.sin = m 0 1) (h11 : yaw.cos = m 1 1) : rollPitchYaw ⟨1, 0⟩ pitch yaw = m := by
  obtain ⟨r0, r1, r2, k0, k1, k2, c00, c01, c02, c10, c11, c12, c20, c21, c22⟩ := hm.entries
  ext i j
  fin_cases i <;> fin_cases j <;> simp [rollPitchYaw] <;> grind

/-! ### Rigid motions -/

/-- A rotation followed by a translation. -/
structure Motion (K : Type) where
  rot : Mat3 K
  pos : Fin 3 → K

namespace Motion

theorem ext {K : Type} : ∀ {a b : Motion K}, a.rot = b.rot → a.pos = b.pos → a = b
  | ⟨_, _⟩, ⟨_, _⟩, rfl, rfl => rfl

/-- The product is a motion inside the frame of another one. -/
instance : Monoid (Motion K) where
  one := ⟨1, 0⟩
  mul a b := ⟨a.rot * b.rot, a.rot.mulVec b.pos + a.pos⟩
  mul_assoc a b c := ext (Matrix.mul_assoc ..) (by
    change (a.rot * b.rot).mulVec c.pos + (a.rot.mulVec b.pos + a.pos) = a.rot.mulVec (b.rot.mulVec c.pos + b.pos) + a.pos
    rw [Matrix.mulVec_add, Matrix.mulVec_mulVec, add_assoc])
  one_mul a := ext (Matrix.one_mul _) (by
    change (1 : Mat3 K).mulVec a.pos + 0 = a.pos
    rw [Matrix.one_mulVec, add_zero])
  mul_one a := ext (Matrix.mul_one _) (by
    change a.rot.mulVec 0 + a.pos = a.pos
    rw [Matrix.mulVec_zero, zero_add])

@[simp] theorem rot_one : (1 : Motion K).rot = 1 := rfl

@[simp] theorem pos_one : (1 : Motion K).pos = 0 := rfl

@[simp] theorem rot_mul (a b : Motion K) : (a * b).rot = a.rot * b.rot := rfl

@[simp] theorem pos_mul (a b : Motion K) : (a * b).pos = a.rot.mulVec b.pos + a.pos := rfl

/-- A motion whose matrix is a rotation can be undone. -/
theorem isUnit {a : Motion K} (ha : IsRotation a.rot) : IsUnit a := by
  let b : Motion K := ⟨a.rot.transpose, -(a.rot.transpose.mulVec a.pos)⟩
  have hab : a * b = 1 := ext ha.mul_transpose (by simp [b, Matrix.mulVec_neg, Matrix.mulVec_mulVec, ha.mul_transpose])
  have hba : b * a = 1 := ext ha.transpose_mul (by simp [b])
  exact ⟨⟨a, b, hab, hba⟩, rfl⟩

/-- The homogeneous matrix of a motion. -/
def toMatrix : Motion K →* Matrix (Fin 4) (Fin 4) K where
  toFun a :=
    !![a.rot 0 0, a.rot 0 1, a.rot 0 2, a.pos 0;
       a.rot 1 0, a.rot 1 1, a.rot 1 2, a.pos 1;
       a.rot 2 0, a.rot 2 1, a.rot 2 2, a.pos 2;
       0, 0, 0, 1]
  map_one' := by
    ext i j
    fin_cases i <;> fin_cases j <;> simp
  map_mul' a b := by
    ext i j
    fin_cases i <;> fin_cases j <;>
      simp [Matrix.mul_apply, Matrix.mulVec, dotProduct, Fin.sum_univ_four, Fin.sum_univ_three]

/-- A motion as it looks in a frame that is turned by `c`. -/
def turn (c : Mat3 K) (hc : IsRotation c) : Motion K →* Motion K where
  toFun a := ⟨c * a.rot * c.transpose, c.mulVec a.pos⟩
  map_one' := ext (by simp [hc.mul_transpose]) (by simp)
  map_mul' a b := by
    refine ext ?_ ?_
    · simp only [rot_mul]
      rw [Matrix.mul_assoc (c * a.rot), ← Matrix.mul_assoc c.transpose, ← Matrix.mul_assoc c.transpose,
        hc.transpose_mul, Matrix.one_mul]
      simp only [Matrix.mul_assoc]
    · simp only [pos_mul, Matrix.mulVec_add, Matrix.mulVec_mulVec]
      rw [Matrix.mul_assoc (c * a.rot), hc.transpose_mul, Matrix.mul_one]

end Motion

/-- The rotation in a homogeneous matrix. -/
def rotationPart (w : Matrix (Fin 4) (Fin 4) K) : Mat3 K := fun i j => w i.castSucc j.castSucc

/-- The translation in a homogeneous matrix. -/
def translationPart (w : Matrix (Fin 4) (Fin 4) K) : Fin 3 → K := fun i => w i.castSucc 3

@[simp] theorem rotationPart_toMatrix (a : Motion K) : rotationPart a.toMatrix = a.rot := by
  ext i j
  fin_cases i <;> fin_cases j <;> rfl

@[simp] theorem translationPart_toMatrix (a : Motion K) : translationPart a.toMatrix = a.pos := by
  ext i
  fin_cases i <;> rfl

end

/-! ### Square roots -/

section

variable {K : Type} [EuclideanField K]

theorem sqrt_pos {x : K} (h : 0 < x) : 0 < sqrt x := by
  refine lt_of_le_of_ne (sqrt_nonneg x) fun h0 => ?_
  have hs := sqrt_sq h.le
  rw [← h0] at hs
  exact h.ne (by simpa using hs)

/-- A square root is the only number that is not negative and has this square. -/
theorem sqrt_eq {x y : K} (hy : 0 ≤ y) (h : y ^ 2 = x) : sqrt x = y := by
  have hx : 0 ≤ x := h ▸ sq_nonneg y
  exact (pow_left_inj₀ (sqrt_nonneg x) hy two_ne_zero).mp ((sqrt_sq hx).trans h.symm)

end

end Rotations
