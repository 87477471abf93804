import Forge.Data.Rotations
import Forge.Geometry.Bake
import Mathlib.Analysis.SpecialFunctions.Trigonometric.Bounds
import Mathlib.Tactic.Linarith

/-!
# The frames of an export

`to_mjcf` writes a position and a quaternion for every body, `to_urdf` a position and three
angles for every joint, each computed from the Euler triple of a node by a matrix of its own
(`rot_xyz`), turned into the Z-up frame. Numbers are exact here: a sine and a cosine are the
coordinates of a rotation, a square root is exact, and an angle that is computed is the pair
of its cosine and its sine.

What a reader composes along the chain of parents should be the transform of the bake, turned
into the same frame. The **key result** `frames_agree_iff` says for which Euler triples it is.
-/

namespace Forge.Export

open Contract Forge.Geometry Rotations

section

variable {K : Type} [EuclideanField K]

/-! ### Frame conversion -/

/-- `to_zup` -/
def toZup (p : Fin 3 → K) : Fin 3 → K := ![p 0, -p 2, p 1]

/-- `rot_xyz` -/
def rotXyz (E : Exact K) (rot : Arr3 Float) : Mat3 K :=
  let sx := E.sin rot.x
  let cx := E.cos rot.x
  let sy := E.sin rot.y
  let cy := E.cos rot.y
  let sz := E.sin rot.z
  let cz := E.cos rot.z
  !![cy * cz, sx * sy * cz - cx * sz, cx * sy * cz + sx * sz;
     cy * sz, sx * sy * sz + cx * cz, cx * sy * sz - sx * cz;
     -sy, sx * cy, cx * cy]

/-- The turn from Y-up to Z-up. -/
def zup : Mat3 K :=
  !![1, 0, 0;
     0, 0, -1;
     0, 1, 0]

/-- `conjugate_zup` -/
def conjugateZup (r : Mat3 K) : Mat3 K := zup * r * zup.transpose

/-- `forge_num::asin` -/
def asin (x : K) : Angle K := ⟨sqrt (1 - x ^ 2), x⟩

/-- `forge_num::atan2` -/
def atan2 (y x : K) : Angle K :=
  if x = 0 ∧ y = 0 then ⟨1, 0⟩ else ⟨x / sqrt (x ^ 2 + y ^ 2), y / sqrt (x ^ 2 + y ^ 2)⟩

/-- Roll, pitch and yaw. -/
structure Rpy (K : Type) where
  roll : Angle K
  pitch : Angle K
  yaw : Angle K

/-- `to_rpy` -/
def toRpy (r : Mat3 K) : Rpy K :=
  let pitch := asin (-r 2 0)
  if |pitch.cos| < 1 / 10 ^ 9 then { roll := ⟨1, 0⟩, pitch, yaw := atan2 (-r 0 1) (r 1 1) }
  else { roll := atan2 (r 2 1) (r 2 2), pitch, yaw := atan2 (r 1 0) (r 0 0) }

/-- A quaternion. -/
structure Quat (K : Type) where
  w : K
  x : K
  y : K
  z : K

local instance (priority := 2000) atLeastTwo_four : Nat.AtLeastTwo 4 := ⟨by decide⟩

/-- `to_quat` -/
def toQuat (r : Mat3 K) : Quat K :=
  let trace := r 0 0 + r 1 1 + r 2 2
  if trace > 0 then
    let s := sqrt (trace + 1) * 2
    ⟨s / 4, (r 2 1 - r 1 2) / s, (r 0 2 - r 2 0) / s, (r 1 0 - r 0 1) / s⟩
  else if r 0 0 > r 1 1 ∧ r 0 0 > r 2 2 then
    let s := sqrt (1 + r 0 0 - r 1 1 - r 2 2) * 2
    ⟨(r 2 1 - r 1 2) / s, s / 4, (r 0 1 + r 1 0) / s, (r 0 2 + r 2 0) / s⟩
  else if r 1 1 > r 2 2 then
    let s := sqrt (1 + r 1 1 - r 0 0 - r 2 2) * 2
    ⟨(r 0 2 - r 2 0) / s, (r 0 1 + r 1 0) / s, s / 4, (r 1 2 + r 2 1) / s⟩
  else
    let s := sqrt (1 + r 2 2 - r 0 0 - r 1 1) * 2
    ⟨(r 1 0 - r 0 1) / s, (r 0 2 + r 2 0) / s, (r 1 2 + r 2 1) / s, s / 4⟩

/-! ### What is written and what it means -/

/-- The numbers of a position. -/
def position (pos : Arr3 Float) : Fin 3 → K := ![num pos.x, num pos.y, num pos.z]

/-- The frame that `mjcf_body` writes: `pos` and `quat`, as a reader of MJCF takes them. -/
def bodyFrame (E : Exact K) (n : Node) : Motion K :=
  let q := toQuat (conjugateZup (rotXyz E n.rot))
  ⟨ofQuaternion q.w q.x q.y q.z, toZup (position n.pos)⟩

/-- The frame that `urdf_joint` writes: `xyz` and `rpy`, as a reader of URDF takes them. -/
def jointOrigin (E : Exact K) (n : Node) : Motion K :=
  let rpy := toRpy (conjugateZup (rotXyz E n.rot))
  ⟨rollPitchYaw rpy.roll rpy.pitch rpy.yaw, toZup (position n.pos)⟩

/-- A link is at its joint; the link of a root has none. -/
def linkFrame (E : Exact K) (n : Node) : Motion K := if n.parent = none then 1 else jointOrigin E n

/-- What `frame` composes to along the chain of parents of a node. -/
abbrev Along (frame : Node → Motion K) (skeleton : List Node) : Node → Motion K → Prop :=
  Forest.Composed Node.name Node.parent frame skeleton

/-- A frame of an export is a transform of the bake, turned to Z-up. -/
def Turned (a : Motion K) (w : Mat4 K) : Prop :=
  a.rot = zup * rotationPart w * zup.transpose ∧ a.pos = zup.mulVec (translationPart w)

/-- A skeleton with one root, on which every name is that of one node, and its transforms. -/
structure Resolvable (E : Exact K) (spec : ModelSpec) (w : BTreeMap String (Mat4 K)) : Prop where
  distinct : (spec.skeleton.map Node.name).Nodup
  resolved : nodeWorldTransforms E spec = .ok w
  root : ∃ r ∈ spec.skeleton, r.parent = none ∧ ∀ n ∈ spec.skeleton, n.parent = none → n = r

/-- The bodies of `to_mjcf` are where the bake has their nodes. -/
def BodiesAgree (E : Exact K) (spec : ModelSpec) (w : BTreeMap String (Mat4 K)) : Prop :=
  ∀ n ∈ spec.skeleton, ∃ a m, Along (bodyFrame E) spec.skeleton n a ∧ w.get n.name = some m ∧ Turned a m

/-- The links of `to_urdf` are where the bake has their nodes, relative to the root. -/
def LinksAgree (E : Exact K) (spec : ModelSpec) (w : BTreeMap String (Mat4 K)) : Prop :=
  ∀ r ∈ spec.skeleton, r.parent = none → ∀ n ∈ spec.skeleton, ∃ a base m relative,
    Along (linkFrame E) spec.skeleton n a ∧ w.get r.name = some base ∧ w.get n.name = some m ∧
      base * relative = m ∧ Turned a relative

/-- The triples on which the orders of the two modules come to the same: no turn about Z, or
turns about X and Y by multiples of a half turn, the same for both unless Z has one too. -/
def Aligned (E : Exact K) (rot : Arr3 Float) : Prop :=
  (E.sin rot.z = 0 ∧ E.cos rot.z = 1) ∨
    (E.sin rot.x = 0 ∧ E.sin rot.y = 0 ∧ (E.cos rot.x = E.cos rot.y ∨ E.sin rot.z = 0))

/-- An upside-down joint so close to the gimbal edge that `to_rpy` drops what is left of its roll. -/
def Folded (E : Exact K) (rot : Arr3 Float) : Prop :=
  E.cos rot.z ≠ 0 ∧ |E.cos rot.z| < 1 / 10 ^ 9 ∧ E.cos rot.x * E.cos rot.z < 0

/-! ### The rotations of a triple -/

theorem zup_isRotation : IsRotation (zup : Mat3 K) := by
  constructor
  · ext i j
    fin_cases i <;> fin_cases j <;> simp [zup, Matrix.mul_apply, Fin.sum_univ_three]
  · simp [zup, Matrix.det_fin_three]

theorem toZup_eq (p : Fin 3 → K) : toZup p = zup.mulVec p := by
  ext i
  fin_cases i <;> simp [zup, toZup, Matrix.mulVec, dotProduct, Fin.sum_univ_three]

theorem rotXyz_isRotation (E : Exact K) (rot : Arr3 Float) : IsRotation (rotXyz E rot) := by
  have hx := E.unit rot.x
  have hy := E.unit rot.y
  have hz := E.unit rot.z
  constructor
  · ext i j
    fin_cases i <;> fin_cases j <;> simp [rotXyz, Matrix.mul_apply, Fin.sum_univ_three] <;> grind
  · simp only [rotXyz, Matrix.det_fin_three]
    simp
    grind

/-- `Ry·Rx·Rz` -/
def treeRot (E : Exact K) (rot : Arr3 Float) : Mat3 K :=
  let sx := E.sin rot.x
  let cx := E.cos rot.x
  let sy := E.sin rot.y
  let cy := E.cos rot.y
  let sz := E.sin rot.z
  let cz := E.cos rot.z
  !![cy * cz + sx * sy * sz, sx * sy * cz - cy * sz, cx * sy;
     cx * sz, cx * cz, -sx;
     sx * cy * sz - sy * cz, sx * cy * cz + sy * sz, cx * cy]

def localMotion (E : Exact K) (n : Node) : Motion K := ⟨treeRot E n.rot, position n.pos⟩

theorem trs_eq (E : Exact K) (n : Node) : trs E n.pos n.rot = (localMotion E n).toMatrix := by
  ext i j
  fin_cases i <;> fin_cases j <;>
    simp [trs, translation, rotX, rotY, rotZ, Mat4.ofColumns, Matrix.mul_apply, Fin.sum_univ_four, Motion.toMatrix,
      localMotion, treeRot, position] <;> ring

theorem treeRot_isRotation (E : Exact K) (rot : Arr3 Float) : IsRotation (treeRot E rot) := by
  have hx := E.unit rot.x
  have hy := E.unit rot.y
  have hz := E.unit rot.z
  constructor
  · ext i j
    fin_cases i <;> fin_cases j <;> simp [treeRot, Matrix.mul_apply, Fin.sum_univ_three] <;> grind
  · simp only [treeRot, Matrix.det_fin_three]
    simp
    grind

theorem rotXyz_eq_treeRot_iff (E : Exact K) (rot : Arr3 Float) : rotXyz E rot = treeRot E rot ↔ Aligned E rot := by
  have hx := E.unit rot.x
  have hy := E.unit rot.y
  have hz := E.unit rot.z
  constructor
  · intro h
    have h00 := congrFun (congrFun h 0) 0
    have h01 := congrFun (congrFun h 0) 1
    have h02 := congrFun (congrFun h 0) 2
    have h10 := congrFun (congrFun h 1) 0
    have h11 := congrFun (congrFun h 1) 1
    have h12 := congrFun (congrFun h 1) 2
    have h20 := congrFun (congrFun h 2) 0
    have h21 := congrFun (congrFun h 2) 1
    simp [rotXyz, treeRot] at h00 h01 h02 h10 h11 h12 h20 h21
    by_cases hsz : E.sin rot.z = 0
    · have hcz : (E.cos rot.z - 1) * (E.cos rot.z + 1) = 0 := by linear_combination hz - E.sin rot.z * hsz
      rcases mul_eq_zero.mp hcz with hcz | hcz
      · exact .inl ⟨hsz, sub_eq_zero.mp hcz⟩
      · have hsx : E.sin rot.x = 0 := by grind
        have hsy : E.sin rot.y = 0 := by grind
        exact .inr ⟨hsx, hsy, .inr hsz⟩
    · have hcz : E.cos rot.z ≠ 1 := by
        intro hcz
        refine hsz (pow_eq_zero_iff two_ne_zero |>.mp ?_)
        linear_combination hz - (E.cos rot.z + 1) * hcz
      have hc : E.cos rot.x = E.cos rot.y := (h10.resolve_right hsz).symm
      have hs : E.sin rot.x = 0 ∧ E.sin rot.y = 0 := by grind
      exact .inr ⟨hs.1, hs.2, .inl hc⟩
  · intro h
    ext i j
    rcases h with ⟨hsz, hcz⟩ | ⟨hsx, hsy, hc | hsz⟩ <;> fin_cases i <;> fin_cases j <;> simp [rotXyz, treeRot] <;> grind

/-! ### Quaternions -/

theorem ofQuaternion_toQuat {m : Mat3 K} (hm : IsRotation m) :
    ofQuaternion (toQuat m).w (toQuat m).x (toQuat m).y (toQuat m).z = m := by
  have hroot {x : K} (hx : 0 < x) : sqrt x * 2 ≠ 0 ∧ (sqrt x * 2) ^ 2 = 4 * x := by
    refine ⟨mul_ne_zero (sqrt_pos hx).ne' two_ne_zero, ?_⟩
    linear_combination 4 * sqrt_sq hx.le
  have hquarter {x s : K} (hs : s ≠ 0) (hs2 : s ^ 2 = 4 * x) : s / 4 = x / s := by
    field_simp
    linear_combination hs2
  have hmain (i : Fin 4) (h : 0 < products m i i) : ∃ s, s = sqrt (products m i i) * 2 ∧ s / 4 = products m i i / s ∧
      ofQuaternion (products m i 0 / s) (products m i 1 / s) (products m i 2 / s) (products m i 3 / s) = m := by
    obtain ⟨hs, hs2⟩ := hroot h
    exact ⟨_, rfl, hquarter hs hs2, ofQuaternion_row hm two_ne_zero hs hs2⟩
  unfold toQuat
  dsimp only
  split_ifs with h0 h1 h2
  · obtain ⟨s, hs, hq, h⟩ := hmain 0 (by simp [products]; linarith)
    have hd : products m 0 0 = m 0 0 + m 1 1 + m 2 2 + 1 := by simp [products]; ring
    rw [← hd, ← hs, hq]
    simpa [products] using h
  · obtain ⟨s, hs, hq, h⟩ := hmain 1 (by simp [products]; linarith)
    have hd : products m 1 1 = 1 + m 0 0 - m 1 1 - m 2 2 := by simp [products]
    rw [← hd, ← hs, hq]
    simpa [products] using h
  · obtain ⟨s, hs, hq, h⟩ := hmain 2 (by simp [products]; grind)
    have hd : products m 2 2 = 1 + m 1 1 - m 0 0 - m 2 2 := by simp [products]
    rw [← hd, ← hs, hq]
    simpa [products] using h
  · obtain ⟨s, hs, hq, h⟩ := hmain 3 (by simp [products]; grind)
    have hd : products m 3 3 = 1 + m 2 2 - m 0 0 - m 1 1 := by simp [products]
    rw [← hd, ← hs, hq]
    simpa [products] using h

/-! ### Angles -/

/-- The matrix of `to_rpy`. -/
def rpyMatrix (m : Mat3 K) : Mat3 K := rollPitchYaw (toRpy m).roll (toRpy m).pitch (toRpy m).yaw

theorem conjugateZup_eq (r : Mat3 K) :
    conjugateZup r = !![r 0 0, -r 0 2, r 0 1; -r 2 0, r 2 2, -r 2 1; r 1 0, -r 1 2, r 1 1] := by
  ext i j
  fin_cases i <;> fin_cases j <;>
    simp [conjugateZup, zup, Matrix.mul_apply, Matrix.vecMul, dotProduct, Fin.sum_univ_three]

theorem conjugateZup_isRotation {r : Mat3 K} (h : IsRotation r) : IsRotation (conjugateZup r) :=
  (zup_isRotation.mul h).mul zup_isRotation.transpose

theorem conjugateZup_injective {r s : Mat3 K} : conjugateZup r = conjugateZup s ↔ r = s := by
  refine ⟨fun h => ?_, congrArg _⟩
  have hcancel (t : Mat3 K) : zup.transpose * conjugateZup t * zup = t := by
    rw [conjugateZup, ← Matrix.mul_assoc, ← Matrix.mul_assoc, zup_isRotation.transpose_mul, Matrix.one_mul,
      Matrix.mul_assoc, zup_isRotation.transpose_mul, Matrix.mul_one]
  rw [← hcancel r, h, hcancel]

/-- What `atan2` gives where the two numbers have this length. -/
theorem atan2_eq {x y h : K} (hh : 0 < h) (hxy : x ^ 2 + y ^ 2 = h ^ 2) : atan2 y x = ⟨x / h, y / h⟩ := by
  have hs : sqrt (x ^ 2 + y ^ 2) = h := sqrt_eq hh.le hxy.symm
  have hne : ¬ (x = 0 ∧ y = 0) := by
    rintro ⟨rfl, rfl⟩
    exact (pow_pos hh 2).ne (by simpa using hxy)
  rw [atan2, if_neg hne, hs]

/-- The cosine of the pitch: the length of the rest of the last row. -/
theorem pitch_spec {m : Mat3 K} (hm : IsRotation m) : 0 ≤ (asin (-m 2 0)).cos ∧
    m 2 1 ^ 2 + m 2 2 ^ 2 = (asin (-m 2 0)).cos ^ 2 ∧ m 0 0 ^ 2 + m 1 0 ^ 2 = (asin (-m 2 0)).cos ^ 2 := by
  have hrow := hm.entries.r2
  have hcol := hm.entries.k0
  have hnonneg : 0 ≤ 1 - (-m 2 0) ^ 2 := by nlinarith [sq_nonneg (m 2 1), sq_nonneg (m 2 2)]
  have hsq : (asin (-m 2 0)).cos ^ 2 = 1 - (-m 2 0) ^ 2 := sqrt_sq hnonneg
  refine ⟨sqrt_nonneg _, ?_, ?_⟩
  · linear_combination hrow - hsq
  · linear_combination hcol - hsq

/-- Away from the gimbal edge the angles are those of the rotation. -/
theorem rpyMatrix_eq {m : Mat3 K} (hm : IsRotation m) (h : ¬ |(asin (-m 2 0)).cos| < 1 / 10 ^ 9) : rpyMatrix m = m := by
  obtain ⟨hnonneg, hrow, hcol⟩ := pitch_spec hm
  have hpos : 0 < (asin (-m 2 0)).cos := by
    rw [abs_of_nonneg hnonneg, not_lt] at h
    exact lt_of_lt_of_le (by positivity) h
  have hroll := atan2_eq hpos ((add_comm _ _).trans hrow)
  have hyaw := atan2_eq hpos hcol
  unfold rpyMatrix toRpy
  dsimp only
  rw [if_neg h, hroll, hyaw]
  refine rollPitchYaw_eq hm hpos.ne' (neg_neg _) ?_ ?_ ?_ ?_ ?_
  · exact div_mul_cancel₀ _ hpos.ne'
  · exact div_mul_cancel₀ _ hpos.ne'
  · exact div_mul_cancel₀ _ hpos.ne'
  · exact div_mul_cancel₀ _ hpos.ne'
  · have hr := hm.entries.r2
    change (-m 2 0) ^ 2 + _ = 1
    linear_combination hr - hrow

/-- At the gimbal edge the roll is dropped. -/
theorem toRpy_edge {m : Mat3 K} (h : |(asin (-m 2 0)).cos| < 1 / 10 ^ 9) :
    toRpy m = { roll := ⟨1, 0⟩, pitch := asin (-m 2 0), yaw := atan2 (-m 0 1) (m 1 1) } := if_pos h

theorem rpyMatrix_edge {m : Mat3 K} (hm : IsRotation m) (h : |(asin (-m 2 0)).cos| < 1 / 10 ^ 9) :
    rpyMatrix m 2 0 = m 2 0 ∧ rpyMatrix m 2 1 = 0 ∧ 0 ≤ rpyMatrix m 2 2 := by
  have hnonneg := (pitch_spec hm).1
  refine ⟨?_, ?_, ?_⟩ <;> simp [rpyMatrix, toRpy_edge h, rollPitchYaw]
  · exact neg_neg _
  · exact hnonneg

/-- At the gimbal edge the angles are those of the rotation exactly where there is no roll. -/
theorem rpyMatrix_eq_iff {m : Mat3 K} (hm : IsRotation m) (h : |(asin (-m 2 0)).cos| < 1 / 10 ^ 9) :
    rpyMatrix m = m ↔ m 2 1 = 0 ∧ 0 ≤ m 2 2 := by
  constructor
  · intro heq
    obtain ⟨-, h21, h22⟩ := rpyMatrix_edge hm h
    rw [heq] at h21 h22
    exact ⟨h21, h22⟩
  · rintro ⟨h21, h22⟩
    obtain ⟨hnonneg, hrow, -⟩ := pitch_spec hm
    have hlength : m 1 1 ^ 2 + (-m 0 1) ^ 2 = 1 ^ 2 := by
      have hk := hm.entries.k1
      rw [h21] at hk
      linear_combination hk
    have hcos : (asin (-m 2 0)).cos = m 2 2 := by
      refine (pow_left_inj₀ hnonneg h22 two_ne_zero).mp ?_
      rw [← hrow, h21]
      ring
    rw [rpyMatrix, toRpy_edge h]
    refine rollPitchYaw_eq_of_level hm (neg_neg _) h21.symm hcos ?_ ?_
    · rw [atan2_eq one_pos hlength]
      simp
    · rw [atan2_eq one_pos hlength]
      simp

/-- The last row of the rotation that an export of this triple encodes. -/
theorem conjugateZup_rotXyz (E : Exact K) (rot : Arr3 Float) :
    conjugateZup (rotXyz E rot) 2 0 = E.cos rot.y * E.sin rot.z ∧
    conjugateZup (rotXyz E rot) 2 1 = E.sin rot.x * E.cos rot.z - E.cos rot.x * E.sin rot.y * E.sin rot.z ∧
    conjugateZup (rotXyz E rot) 2 2 = E.sin rot.x * E.sin rot.y * E.sin rot.z + E.cos rot.x * E.cos rot.z := by
  simp [conjugateZup_eq, rotXyz]

/-- The last row of the rotation that the bake has for it. -/
theorem conjugateZup_treeRot (E : Exact K) (rot : Arr3 Float) :
    conjugateZup (treeRot E rot) 2 0 = E.cos rot.x * E.sin rot.z ∧ conjugateZup (treeRot E rot) 2 1 = E.sin rot.x ∧
    conjugateZup (treeRot E rot) 2 2 = E.cos rot.x * E.cos rot.z := by
  simp [conjugateZup_eq, treeRot]

/-- Only a turn about Z leads to the gimbal edge. -/
theorem sin_ne_zero_of_edge (E : Exact K) {rot : Arr3 Float}
    (h : |(asin (-conjugateZup (rotXyz E rot) 2 0)).cos| < 1 / 10 ^ 9) : E.sin rot.z ≠ 0 := by
  intro hsz
  have hm := conjugateZup_isRotation (rotXyz_isRotation E rot)
  obtain ⟨hnonneg, hrow, -⟩ := pitch_spec hm
  have hr := hm.entries.r2
  rw [(conjugateZup_rotXyz E rot).1, hsz] at hr
  rw [abs_of_nonneg hnonneg] at h
  have hone : (asin (-conjugateZup (rotXyz E rot) 2 0)).cos ^ 2 = 1 := by linear_combination hr - hrow
  have hlt : (asin (-conjugateZup (rotXyz E rot) 2 0)).cos < 1 := h.trans (by norm_num)
  nlinarith

/-- Without turns about X and Y the edge is where the cosine of Z is small. -/
theorem edge_upright (E : Exact K) {rot : Arr3 Float} (hsx : E.sin rot.x = 0) (hsy : E.sin rot.y = 0) :
    |(asin (-conjugateZup (rotXyz E rot) 2 0)).cos| = |E.cos rot.z| := by
  have hm := conjugateZup_isRotation (rotXyz_isRotation E rot)
  obtain ⟨-, hrow, -⟩ := pitch_spec hm
  obtain ⟨-, h21, h22⟩ := conjugateZup_rotXyz E rot
  have hx := E.unit rot.x
  refine (sq_eq_sq_iff_abs_eq_abs _ _).mp ?_
  rw [← hrow, h21, h22, hsx, hsy]
  rw [hsx] at hx
  linear_combination E.cos rot.z ^ 2 * hx

/-- **The angles of a joint are those of the bake** exactly for these triples. -/
theorem rpyMatrix_eq_treeRot_iff (E : Exact K) (rot : Arr3 Float) :
    rpyMatrix (conjugateZup (rotXyz E rot)) = conjugateZup (treeRot E rot) ↔ Aligned E rot ∧ ¬ Folded E rot := by
  have hm := conjugateZup_isRotation (rotXyz_isRotation E rot)
  have hx := E.unit rot.x
  have hy := E.unit rot.y
  obtain ⟨h20, h21, h22⟩ := conjugateZup_rotXyz E rot
  obtain ⟨t20, t21, t22⟩ := conjugateZup_treeRot E rot
  by_cases hedge : |(asin (-conjugateZup (rotXyz E rot) 2 0)).cos| < 1 / 10 ^ 9
  · have hsz := sin_ne_zero_of_edge E hedge
    constructor
    · intro heq
      obtain ⟨e20, e21, e22⟩ := rpyMatrix_edge hm hedge
      rw [heq] at e20 e21 e22
      rw [t20, h20] at e20
      rw [t21] at e21
      rw [t22] at e22
      have hc : E.cos rot.x = E.cos rot.y := mul_right_cancel₀ hsz e20
      have hsy : E.sin rot.y = 0 := by
        refine (pow_eq_zero_iff two_ne_zero).mp ?_
        rw [e21, hc] at hx
        linear_combination hy - hx
      exact ⟨.inr ⟨e21, hsy, .inl hc⟩, fun hfold => absurd hfold.2.2 (not_lt.mpr e22)⟩
    · rintro ⟨halign, hfold⟩
      have hsame := (rotXyz_eq_treeRot_iff E rot).mpr halign
      rcases halign with ⟨h0, -⟩ | ⟨hsx, hsy, -⟩
      · exact absurd h0 hsz
      · rw [← hsame, rpyMatrix_eq_iff hm hedge, h21, h22, hsx, hsy]
        refine ⟨by ring, ?_⟩
        by_contra hneg
        have hlt : E.cos rot.x * E.cos rot.z < 0 := by
          rw [not_le] at hneg
          linarith
        refine hfold ⟨fun h0 => ?_, edge_upright E hsx hsy ▸ hedge, hlt⟩
        rw [h0, mul_zero] at hlt
        exact lt_irrefl _ hlt
  · rw [rpyMatrix_eq hm hedge, conjugateZup_injective, rotXyz_eq_treeRot_iff]
    refine (and_iff_left_of_imp ?_).symm
    rintro (⟨-, hcz⟩ | ⟨hsx, hsy, -⟩) ⟨-, hclose, -⟩
    · rw [hcz] at hclose
      norm_num at hclose
    · exact hedge (edge_upright E hsx hsy ▸ hclose)

/-! ### Along the chains -/

section

variable {E : Exact K} {spec : ModelSpec} {w : BTreeMap String (Mat4 K)}

/-- The turn of a motion to Z-up. -/
def zupTurn : Motion K →* Motion K := Motion.turn zup zup_isRotation

theorem turned_iff {a b : Motion K} : Turned a b.toMatrix ↔ a = zupTurn b := by
  unfold Turned
  rw [rotationPart_toMatrix, translationPart_toMatrix]
  exact ⟨fun h => Motion.ext h.1 h.2, fun h => h ▸ ⟨rfl, rfl⟩⟩

theorem localMotion_isUnit (E : Exact K) (n : Node) : IsUnit (localMotion E n) := Motion.isUnit (treeRot_isRotation E n.rot)

theorem Resolvable.rooted (h : Resolvable E spec w) : ∀ n ∈ spec.skeleton, Forest.Rooted Node.name Node.parent spec.skeleton n :=
  fun _ hn => Forest.rooted_of_resolve h.distinct (nodeWorldTransforms_eq_ok.mp h.resolved) hn

/-- The transform of a node is what the local motions compose to. -/
theorem Resolvable.get_eq (h : Resolvable E spec w) {n : Node} {b : Motion K} (hn : n ∈ spec.skeleton)
    (hb : Along (localMotion E) spec.skeleton n b) : w.get n.name = some b.toMatrix := by
  induction hb with
  | @root n hp =>
    rw [nodeWorld_eq h.distinct h.resolved hn, worldOf, hp, trs_eq]
  | @child n m p a hp hm hname _ ih =>
    rw [nodeWorld_eq h.distinct h.resolved hn, worldOf, hp, ← hname]
    simp [ih hm, trs_eq]

theorem bodyFrame_eq_iff (n : Node) : bodyFrame E n = zupTurn (localMotion E n) ↔ Aligned E n.rot := by
  have hrot : (bodyFrame E n).rot = conjugateZup (rotXyz E n.rot) :=
    ofQuaternion_toQuat (conjugateZup_isRotation (rotXyz_isRotation E n.rot))
  rw [← rotXyz_eq_treeRot_iff, ← conjugateZup_injective]
  constructor
  · intro h
    rw [← hrot, h]
    rfl
  · intro h
    exact Motion.ext (hrot.trans h) (toZup_eq _)

theorem jointOrigin_eq_iff (n : Node) :
    jointOrigin E n = zupTurn (localMotion E n) ↔ Aligned E n.rot ∧ ¬ Folded E n.rot := by
  rw [← rpyMatrix_eq_treeRot_iff]
  exact ⟨fun h => congrArg Motion.rot h, fun h => Motion.ext h (toZup_eq _)⟩

/-- **The bodies agree with the bake** exactly when every triple is one on which the orders do. -/
theorem bodiesAgree_iff (h : Resolvable E spec w) :
    BodiesAgree E spec w ↔ ∀ n ∈ spec.skeleton, Aligned E n.rot := by
  have hturn {n : Node} {b : Motion K} (hn : n ∈ spec.skeleton) (hb : Along (localMotion E) spec.skeleton n b) :
      Along (fun n => zupTurn (localMotion E n)) spec.skeleton n (zupTurn b) := hb.map zupTurn (fun _ _ => rfl) hn
  have hsame : BodiesAgree E spec w ↔ ∀ n ∈ spec.skeleton, ∃ a, Along (bodyFrame E) spec.skeleton n a ∧
      Along (fun n => zupTurn (localMotion E n)) spec.skeleton n a := by
    constructor
    · intro hagree n hn
      obtain ⟨a, m, ha, hm, ht⟩ := hagree n hn
      obtain ⟨b, hb⟩ := (h.rooted n hn).composed (localMotion E)
      obtain rfl := Option.some.inj ((h.get_eq hn hb).symm.trans hm)
      rw [turned_iff] at ht
      exact ⟨a, ha, ht ▸ hturn hn hb⟩
    · intro hall n hn
      obtain ⟨a, ha, ha'⟩ := hall n hn
      obtain ⟨b, hb⟩ := (h.rooted n hn).composed (localMotion E)
      exact ⟨a, _, ha, h.get_eq hn hb, turned_iff.mpr (ha'.unique h.distinct (hturn hn hb))⟩
  rw [hsame, Forest.composed_eq_iff h.distinct h.rooted fun n _ => (localMotion_isUnit E n).map zupTurn]
  exact forall₂_congr fun n _ => bodyFrame_eq_iff n

/-- The local motions relative to the root. -/
def relativeMotion (E : Exact K) (n : Node) : Motion K := if n.parent = none then 1 else localMotion E n

theorem relativeMotion_isUnit (E : Exact K) (n : Node) : IsUnit (relativeMotion E n) := by
  unfold relativeMotion
  split
  · exact isUnit_one
  · exact localMotion_isUnit E n

/-- What they compose to is where the node is in the frame of the root. -/
theorem along_of_relative {r : Node} (hr : ∀ n ∈ spec.skeleton, n.parent = none → n = r) {n : Node} {c : Motion K}
    (hn : n ∈ spec.skeleton) (hc : Along (relativeMotion E) spec.skeleton n c) :
    Along (localMotion E) spec.skeleton n (localMotion E r * c) := by
  induction hc with
  | @root n hp =>
    rw [relativeMotion, if_pos hp, mul_one, ← hr n hn hp]
    exact .root hp
  | @child n m p a hp hm hname _ ih =>
    rw [relativeMotion, if_neg (by simp [hp]), ← mul_assoc]
    exact .child hp hm hname (ih hm)

theorem linkFrame_eq_iff (n : Node) : linkFrame E n = zupTurn (relativeMotion E n) ↔
    (n.parent ≠ none → Aligned E n.rot ∧ ¬ Folded E n.rot) := by
  unfold linkFrame relativeMotion
  by_cases hp : n.parent = none
  · simp [hp]
  · simp only [if_neg hp, jointOrigin_eq_iff]
    exact ⟨fun h _ => h, fun h => h hp⟩

/-- **The links agree with the bake** exactly when the triples of the joints do, away from the folds. -/
theorem linksAgree_iff (h : Resolvable E spec w) : LinksAgree E spec w ↔
    ∀ n ∈ spec.skeleton, n.parent ≠ none → Aligned E n.rot ∧ ¬ Folded E n.rot := by
  obtain ⟨r, hr, hroot, hone⟩ := h.root
  have hbase : w.get r.name = some (localMotion E r).toMatrix := h.get_eq hr (.root hroot)
  have hturn {n : Node} {c : Motion K} (hn : n ∈ spec.skeleton) (hc : Along (relativeMotion E) spec.skeleton n c) :
      Along (fun n => zupTurn (relativeMotion E n)) spec.skeleton n (zupTurn c) := hc.map zupTurn (fun _ _ => rfl) hn
  have hworld {n : Node} {c : Motion K} (hn : n ∈ spec.skeleton) (hc : Along (relativeMotion E) spec.skeleton n c) :
      w.get n.name = some ((localMotion E r).toMatrix * c.toMatrix) := by
    rw [h.get_eq hn (along_of_relative hone hn hc), map_mul]
  have hsame : LinksAgree E spec w ↔ ∀ n ∈ spec.skeleton, ∃ a, Along (linkFrame E) spec.skeleton n a ∧
      Along (fun n => zupTurn (relativeMotion E n)) spec.skeleton n a := by
    constructor
    · intro hagree n hn
      obtain ⟨a, base, m, relative, ha, hb, hm, hrel, ht⟩ := hagree r hr hroot n hn
      obtain ⟨c, hc⟩ := (h.rooted n hn).composed (relativeMotion E)
      obtain rfl := Option.some.inj (hbase.symm.trans hb)
      obtain rfl := Option.some.inj ((hworld hn hc).symm.trans hm)
      obtain rfl := ((localMotion_isUnit E r).map Motion.toMatrix).mul_left_cancel hrel
      rw [turned_iff] at ht
      exact ⟨a, ha, ht ▸ hturn hn hc⟩
    · intro hall r' hr' hroot' n hn
      obtain rfl := hone r' hr' hroot'
      obtain ⟨a, ha, ha'⟩ := hall n hn
      obtain ⟨c, hc⟩ := (h.rooted n hn).composed (relativeMotion E)
      exact ⟨a, _, _, _, ha, hbase, hworld hn hc, rfl, turned_iff.mpr (ha'.unique h.distinct (hturn hn hc))⟩
  rw [hsame, Forest.composed_eq_iff h.distinct h.rooted fun n _ => (relativeMotion_isUnit E n).map zupTurn]
  exact forall₂_congr fun n _ => linkFrame_eq_iff n

/-- **Key result**: both exports put every node where the bake has it exactly when each triple is
one on which the two orders come to the same, and no joint is folded. -/
theorem frames_agree_iff (E : Exact K) (spec : ModelSpec) (w : BTreeMap String (Mat4 K)) (h : Resolvable E spec w) :
    BodiesAgree E spec w ∧ LinksAgree E spec w ↔
      ∀ n ∈ spec.skeleton, Aligned E n.rot ∧ (n.parent ≠ none → ¬ Folded E n.rot) := by
  rw [bodiesAgree_iff h, linksAgree_iff h]
  constructor
  · rintro ⟨hbody, hlink⟩ n hn
    exact ⟨hbody n hn, fun hp => (hlink n hn hp).2⟩
  · intro hall
    exact ⟨fun n hn => (hall n hn).1, fun n hn hp => ⟨(hall n hn).1, (hall n hn).2 hp⟩⟩

end

end

/-! ### Over the reals -/

noncomputable instance : EuclideanField ℝ where
  sqrt := Real.sqrt
  sqrt_nonneg := Real.sqrt_nonneg
  sqrt_sq := Real.sq_sqrt

/-- The sine and the cosine of the number that a double is. -/
noncomputable def trueAngles : Exact ℝ where
  sin a := Real.sin (num a)
  cos a := Real.cos (num a)
  unit a := Real.sin_sq_add_cos_sq (num a)

theorem resolvable_root {n : Node} (hn : n.parent = none) :
    ∃ w, Resolvable trueAngles (glider [n]) w := by
  refine ⟨_, by simp [glider], nodeWorldTransforms_eq_ok.mpr (Forest.resolve_roots ?_ .empty), n, ?_, hn, ?_⟩
  · simp [glider, hn]
  · simp [glider]
  · simp [glider]

/-- A root that is turned by one radian about X and about Z. -/
def tilted : Node := { hub 0.0 with rot := ⟨1.0, 0.0, 1.0⟩ }

theorem sin_num_one : trueAngles.sin 1.0 ≠ 0 := by
  have hone : floatValue 1.0 = 1 := by decide +kernel
  have hnum : (num (1.0 : Float) : ℝ) = 1 := by rw [num, hone, Rat.cast_one]
  change Real.sin (num 1.0) ≠ 0
  rw [hnum]
  exact (Real.sin_pos_of_pos_of_le_one one_pos le_rfl).ne'

/-- **A body that is turned about two axes is not where the bake has it.** -/
theorem tilted_disagrees : ∃ w, Resolvable trueAngles (glider [tilted]) w ∧
    ¬ (BodiesAgree trueAngles (glider [tilted]) w ∧ LinksAgree trueAngles (glider [tilted]) w) := by
  obtain ⟨w, hw⟩ := resolvable_root (n := tilted) rfl
  refine ⟨w, hw, fun h => ?_⟩
  rcases (bodiesAgree_iff hw).mp h.1 tilted (by simp [glider]) with ⟨hz, -⟩ | ⟨hx, -⟩
  · exact sin_num_one hz
  · exact sin_num_one hx

theorem angles_zero : trueAngles.sin 0.0 = 0 ∧ trueAngles.cos 0.0 = 1 := by
  have hzero : floatValue 0.0 = 0 := by decide +kernel
  have hnum : (num (0.0 : Float) : ℝ) = 0 := by rw [num, hzero, Rat.cast_zero]
  constructor
  · change Real.sin (num 0.0) = 0
    rw [hnum, Real.sin_zero]
  · change Real.cos (num 0.0) = 1
    rw [hnum, Real.cos_zero]

theorem cos_num_one : 0 < trueAngles.cos 1.0 := by
  have hone : floatValue 1.0 = 1 := by decide +kernel
  have hnum : (num (1.0 : Float) : ℝ) = 1 := by rw [num, hone, Rat.cast_one]
  change 0 < Real.cos (num 1.0)
  rw [hnum]
  exact Real.cos_one_pos

/-- A mast that is turned about X and Y, and a boom on it that is turned about Z. -/
def mast : Node := { hub 1.0 with rot := ⟨1.0, 0.5, 0.0⟩ }

def boom : Node := { hub 0.5 with name := "boom", parent := some "hub", rot := ⟨0.0, 0.0, 1.0⟩ }

theorem resolvable_boom : ∃ w, Resolvable trueAngles (glider [boom, mast]) w := by
  have hnodup : ([boom, mast].map Node.name).Nodup := by decide
  have hmast : Forest.Rooted Node.name Node.parent [boom, mast] mast := .root rfl
  have hrooted : ∀ n ∈ [boom, mast], Forest.Rooted Node.name Node.parent [boom, mast] n := by
    rw [List.forall_mem_cons, List.forall_mem_singleton]
    exact ⟨.child rfl (.tail _ (.head _)) rfl hmast, hmast⟩
  have hresolved : ∃ w, Forest.resolve Node.name Node.parent (place trueAngles) 2 [boom, mast] .empty = .ok w :=
    (Forest.resolve_isOk_iff hnodup).mpr hrooted
  obtain ⟨w, hw⟩ := hresolved
  refine ⟨w, hnodup, nodeWorldTransforms_eq_ok.mpr hw, mast, .tail _ (.head _), rfl, ?_⟩
  change ∀ n ∈ [boom, mast], n.parent = none → n = mast
  rw [List.forall_mem_cons, List.forall_mem_singleton]
  exact ⟨fun h => absurd h (by decide), fun _ => rfl⟩

/-- Each of the two triples is one on which the orders agree, and the boom is not folded. -/
theorem frames_agree_boom : ∃ w, Resolvable trueAngles (glider [boom, mast]) w ∧
    BodiesAgree trueAngles (glider [boom, mast]) w ∧ LinksAgree trueAngles (glider [boom, mast]) w := by
  obtain ⟨w, hw⟩ := resolvable_boom
  refine ⟨w, hw, (frames_agree_iff trueAngles _ w hw).mpr ?_⟩
  change ∀ n ∈ [boom, mast], Aligned trueAngles n.rot ∧ (n.parent ≠ none → ¬ Folded trueAngles n.rot)
  rw [List.forall_mem_cons, List.forall_mem_singleton]
  obtain ⟨hsin, hcos⟩ := angles_zero
  refine ⟨⟨.inr ⟨hsin, hsin, .inl rfl⟩, fun _ hfolded => ?_⟩, .inl angles_zero, fun h => absurd rfl h⟩
  have hback : trueAngles.cos 0.0 * trueAngles.cos 1.0 < 0 := hfolded.2.2
  rw [hcos, one_mul] at hback
  exact hback.not_gt cos_num_one

end Forge.Export
