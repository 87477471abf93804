import Forge.Motion.Ground
import Mathlib.Analysis.SpecialFunctions.Complex.Arg
import Mathlib.Analysis.SpecialFunctions.Trigonometric.Inverse

/-!
# Legs of two bones

The inverse and the forward kinematics of a leg, `leg_ik` and `leg_fk` of `forge-motion`, for any numbers with the
functions that they use (`LegNum`). On doubles this is the leg of the quadruped driver (`legIk_double`); here the numbers
are the reals with the ideal functions (`ideal`).

In the plane of the leg as complex numbers, the foot of a leg is at `e^(i·hip)·(l₁ + l₂·e^(i·knee))` (`foot_eq`), and the
two arctangents of `leg_ik` are arguments of complex numbers. The **key result** is `legFk_legIk`: the leg reaches out
in the direction of the target, as far as the lengths of the bones allow.
-/

namespace Forge.Motion

/-- The functions that the legs use. -/
structure LegNum (R : Type*) where
  sin : R → R
  cos : R → R
  acos : R → R
  atan2 : R → R → R
  sqrt : R → R
  fmin : R → R → R
  fmax : R → R → R
  clamp : R → R → R → R

structure LegPose (R : Type*) where
  hipPitch : R
  knee : R
  ankle : R

section

variable {R : Type*} [Add R] [Sub R] [Mul R] [Div R] [Neg R] [OfScientific R] (num : LegNum R)

/-- `leg_ik` -/
def legIk (l1 l2 dy dz : R) : LegPose R :=
  let reachMax := (l1 + l2) * 0.99999
  let d := num.fmax (num.fmin (num.sqrt (dy * dy + dz * dz)) reachMax) 1e-9
  let beta := num.acos (num.clamp ((d * d - l1 * l1 - l2 * l2) / (2.0 * l1 * l2)) (-1.0) 1.0)
  let gamma := num.atan2 dz (-dy)
  let delta := num.atan2 (l2 * num.sin beta) (l1 + l2 * num.cos beta)
  let hip := -gamma - delta
  { hipPitch := hip, knee := beta, ankle := -(hip + beta) }

/-- `leg_fk` -/
def legFk (l1 l2 : R) (pose : LegPose R) : R × R :=
  let t1 := pose.hipPitch
  let kneeDir := t1 + pose.knee
  (-(l1 * num.cos t1 + l2 * num.cos kneeDir), -(l1 * num.sin t1 + l2 * num.sin kneeDir))

end

/-- The functions on doubles. -/
def doubles (num : Drivers.MotionNum) : LegNum Float where
  sin := num.sin
  cos := num.cos
  acos := num.acos
  atan2 := num.atan2
  sqrt := Float.sqrt
  fmin := Geometry.Doubles.fmin
  fmax := Geometry.Doubles.fmax
  clamp := Drivers.clamp

/-- The legs of the quadruped driver. -/
theorem legIk_double (num : Drivers.MotionNum) (l1 l2 dy dz : Float) : Drivers.legIk num l1 l2 dy dz =
    ⟨(legIk (doubles num) l1 l2 dy dz).hipPitch, (legIk (doubles num) l1 l2 dy dz).knee,
      (legIk (doubles num) l1 l2 dy dz).ankle⟩ := rfl

/-! ### Exact reals -/

open Complex (I exp arg)

/-- The ideal functions on the reals. -/
noncomputable def ideal : LegNum ℝ where
  sin := Real.sin
  cos := Real.cos
  acos := Real.arccos
  atan2 y x := arg ⟨x, y⟩
  sqrt := Real.sqrt
  fmin := min
  fmax := max
  clamp x lower upper := if x < lower then lower else if upper < x then upper else x

theorem clamp_eq {x lower upper : ℝ} (h : lower ≤ upper) : ideal.clamp x lower upper = max lower (min x upper) := by
  simp only [ideal]
  split_ifs with h1 h2
  · exact (max_eq_left ((min_le_left _ _).trans h1.le)).symm
  · rw [min_eq_right h2.le, max_eq_right h]
  · rw [min_eq_left (not_lt.mp h2), max_eq_right (not_lt.mp h1)]

/-- A point of the plane of a leg: straight down is the real axis, backward the imaginary one. -/
def plane (p : ℝ × ℝ) : ℂ := ⟨-p.1, -p.2⟩

/-- How the lower bone stands to the upper one. -/
noncomputable def bones (l1 l2 knee : ℝ) : ℂ := ⟨l1 + l2 * Real.cos knee, l2 * Real.sin knee⟩

/-- Where the foot is. -/
theorem foot_eq (l1 l2 : ℝ) (pose : LegPose ℝ) : plane (legFk ideal l1 l2 pose) =
    exp (pose.hipPitch * I) * bones l1 l2 pose.knee := by
  apply Complex.ext
  · simp only [plane, legFk, ideal, bones, Complex.mul_re, Complex.exp_ofReal_mul_I_re, Complex.exp_ofReal_mul_I_im,
      Real.cos_add]
    ring
  · simp only [plane, legFk, ideal, bones, Complex.mul_im, Complex.exp_ofReal_mul_I_re, Complex.exp_ofReal_mul_I_im,
      Real.sin_add]
    ring

/-- The law of cosines. -/
theorem norm_bones_sq (l1 l2 knee : ℝ) : ‖bones l1 l2 knee‖ ^ 2 = l1 ^ 2 + l2 ^ 2 + 2 * l1 * l2 * Real.cos knee := by
  rw [bones, Complex.sq_norm, Complex.normSq_mk]
  linear_combination l2 ^ 2 * Real.sin_sq_add_cos_sq knee

/-- The knee that `leg_ik` chooses stretches the leg to the distance, unless the bones are too different. -/
theorem norm_bones_acos {l1 l2 d : ℝ} (h1 : 0 < l1) (h2 : 0 < l2) (hd : 0 ≤ d) (hreach : d ≤ l1 + l2) :
    ‖bones l1 l2 (ideal.acos (ideal.clamp ((d * d - l1 * l1 - l2 * l2) / (2.0 * l1 * l2)) (-1.0) 1.0))‖ =
      max |l1 - l2| d := by
  obtain ⟨q, hq⟩ : ∃ q, q = (d * d - l1 * l1 - l2 * l2) / (2.0 * l1 * l2) := ⟨_, rfl⟩
  have hproduct : 0 < 2 * l1 * l2 := mul_pos (mul_pos two_pos h1) h2
  have hcosine : d ^ 2 = l1 ^ 2 + l2 ^ 2 + 2 * l1 * l2 * q := by
    rw [hq]
    norm_num
    field_simp
    ring
  have hstretched : q ≤ 1 := by
    have hsq : d ^ 2 ≤ (l1 + l2) ^ 2 := pow_le_pow_left₀ hd hreach 2
    refine le_of_mul_le_mul_left ?_ hproduct
    linarith [add_sq l1 l2]
  have hclamp : ideal.clamp q (-1.0) 1.0 = max (-1) q := by
    rw [clamp_eq (by norm_num), min_eq_left (hstretched.trans (by norm_num))]
    norm_num
  rw [← hq, hclamp, ← sq_eq_sq₀ (norm_nonneg _) (le_max_of_le_right hd), norm_bones_sq]
  have hcos : Real.cos (ideal.acos (max (-1) q)) = max (-1) q :=
    Real.cos_arccos (le_max_left _ _) (max_le (by norm_num) hstretched)
  rw [hcos]
  have hsplit : l1 ^ 2 + l2 ^ 2 + 2 * l1 * l2 * (-1) = |l1 - l2| ^ 2 := by
    rw [sq_abs]
    ring
  rcases le_total q (-1) with hfolded | hopen
  · have hnear : d ≤ |l1 - l2| := by
      rw [← sq_le_sq₀ hd (abs_nonneg _), ← hsplit, hcosine]
      exact add_le_add_right (mul_le_mul_of_nonneg_left hfolded hproduct.le) _
    rw [max_eq_left hfolded, max_eq_left hnear, hsplit]
  · have hfar : |l1 - l2| ≤ d := by
      rw [← sq_le_sq₀ (abs_nonneg _) hd, ← hsplit, hcosine]
      exact add_le_add_right (mul_le_mul_of_nonneg_left hopen hproduct.le) _
    rw [max_eq_right hopen, max_eq_right hfar, hcosine]

/-- A target in polar coordinates, with the angle that `leg_ik` computes. -/
theorem plane_eq (dy dz : ℝ) : plane (dy, dz) = √(dy ^ 2 + dz ^ 2) * exp (-ideal.atan2 dz (-dy) * I) := by
  obtain ⟨t, ht⟩ : ∃ t : ℂ, t = ⟨-dy, dz⟩ := ⟨_, rfl⟩
  have hconj : plane (dy, dz) = (starRingEnd ℂ) t := by rw [ht]; rfl
  have hnorm : ‖t‖ = √(dy ^ 2 + dz ^ 2) := by
    rw [ht, Complex.norm_eq_sqrt_sq_add_sq, neg_sq]
  have hexp : (starRingEnd ℂ) (exp (arg t * I)) = exp (-arg t * I) := by
    rw [← Complex.exp_conj, map_mul, Complex.conj_ofReal, Complex.conj_I, mul_neg, neg_mul]
  rw [hconj, ← Complex.norm_mul_exp_arg_mul_I t, map_mul, Complex.conj_ofReal, hexp, hnorm, ht]
  rfl

/-- The foot has the direction of the target, at the distance of the bones. -/
theorem foot_legIk (l1 l2 dy dz : ℝ) :
    √(dy ^ 2 + dz ^ 2) * plane (legFk ideal l1 l2 (legIk ideal l1 l2 dy dz)) =
      ‖bones l1 l2 (legIk ideal l1 l2 dy dz).knee‖ * plane (dy, dz) := by
  have hhip : (legIk ideal l1 l2 dy dz).hipPitch =
      -ideal.atan2 dz (-dy) - arg (bones l1 l2 (legIk ideal l1 l2 dy dz).knee) := rfl
  rw [foot_eq, plane_eq, hhip]
  nth_rewrite 2 [← Complex.norm_mul_exp_arg_mul_I (bones l1 l2 (legIk ideal l1 l2 dy dz).knee)]
  push_cast
  rw [sub_mul, Complex.exp_sub]
  field_simp

/-- How far the leg reaches for a target. -/
noncomputable def footDistance (l1 l2 dy dz : ℝ) : ℝ :=
  ideal.clamp √(dy ^ 2 + dz ^ 2) |l1 - l2| (0.99999 * (l1 + l2))

/-- **The leg reaches out in the direction of the target.** -/
theorem legFk_legIk {l1 l2 dy dz : ℝ} (h1 : 0 < l1) (h2 : 0 < l2) (htarget : (dy, dz) ≠ (0, 0))
    (hfloor : 1e-9 ≤ min √(dy ^ 2 + dz ^ 2) (0.99999 * (l1 + l2))) :
    (|l1 - l2| ≤ 0.99999 * (l1 + l2) → legFk ideal l1 l2 (legIk ideal l1 l2 dy dz) =
      (footDistance l1 l2 dy dz * (dy / √(dy ^ 2 + dz ^ 2)), footDistance l1 l2 dy dz * (dz / √(dy ^ 2 + dz ^ 2)))) ∧
    (|l1 - l2| ≤ √(dy ^ 2 + dz ^ 2) → √(dy ^ 2 + dz ^ 2) ≤ 0.99999 * (l1 + l2) →
      legFk ideal l1 l2 (legIk ideal l1 l2 dy dz) = (dy, dz)) ∧
    (legIk ideal l1 l2 dy dz).hipPitch + (legIk ideal l1 l2 dy dz).knee + (legIk ideal l1 l2 dy dz).ankle = 0 := by
  obtain ⟨d, hd⟩ : ∃ d, d = √(dy ^ 2 + dz ^ 2) := ⟨_, rfl⟩
  have hd0 : 0 < d := by
    rw [hd, Real.sqrt_pos]
    by_contra hle
    apply htarget
    have hy : dy ^ 2 = 0 := by linarith [sq_nonneg dy, sq_nonneg dz]
    have hz : dz ^ 2 = 0 := by linarith [sq_nonneg dy, sq_nonneg dz]
    rw [pow_eq_zero_iff two_ne_zero] at hy hz
    rw [hy, hz]
  have hreach : min d (0.99999 * (l1 + l2)) ≤ l1 + l2 := by
    refine (min_le_right _ _).trans ?_
    linarith
  have hknee : ‖bones l1 l2 (legIk ideal l1 l2 dy dz).knee‖ = max |l1 - l2| (min d (0.99999 * (l1 + l2))) := by
    have hdistance : ideal.fmax (ideal.fmin (ideal.sqrt (dy * dy + dz * dz)) ((l1 + l2) * 0.99999)) 1e-9 =
        min d (0.99999 * (l1 + l2)) := by
      rw [hd]
      simp only [ideal, ← sq, mul_comm (l1 + l2)]
      exact max_eq_left hfloor
    rw [← norm_bones_acos h1 h2 (le_min hd0.le (by positivity)) hreach, ← hdistance]
    rfl
  have hfoot := foot_legIk l1 l2 dy dz
  rw [hknee, ← hd] at hfoot
  have hpoint : legFk ideal l1 l2 (legIk ideal l1 l2 dy dz) = (max |l1 - l2| (min d (0.99999 * (l1 + l2))) * (dy / d),
      max |l1 - l2| (min d (0.99999 * (l1 + l2))) * (dz / d)) := by
    have hre := congrArg Complex.re hfoot
    have him := congrArg Complex.im hfoot
    rw [Complex.re_ofReal_mul, Complex.re_ofReal_mul] at hre
    rw [Complex.im_ofReal_mul, Complex.im_ofReal_mul] at him
    simp only [plane] at hre him
    refine Prod.ext (show _ = _ * (dy / d) from ?_) (show _ = _ * (dz / d) from ?_)
    · rw [← mul_div_assoc, eq_div_iff hd0.ne']
      linarith
    · rw [← mul_div_assoc, eq_div_iff hd0.ne']
      linarith
  rw [hpoint, footDistance, ← hd]
  refine ⟨fun hinterval => by rw [clamp_eq hinterval], fun hnear hfar => ?_, ?_⟩
  · rw [min_eq_left hfar, max_eq_right hnear, mul_div_cancel₀ _ hd0.ne', mul_div_cancel₀ _ hd0.ne']
  · exact add_neg_cancel _

/-- A leg of two bones of length one that reaches for a point above the hip. -/
theorem legFk_legIk_above : legFk ideal 1 1 (legIk ideal 1 1 1 0) = (1, 0) := by
  refine (legFk_legIk one_pos one_pos (by norm_num) ?_).2.1 ?_ ?_ <;> norm_num

end Forge.Motion
