import Forge.Data.Numerals
import Mathlib.Analysis.Convex.Join
import Mathlib.Tactic.FieldSimp
import Mathlib.Tactic.LinearCombination
import Mathlib.Tactic.Linarith
import Mathlib.Tactic.Positivity

/-!
# Plane cuts

The points where a triangle is cut by the plane on which an affine function vanishes. A side with its ends on
different sides is cut in a point of it (`cut_mem_segment`), and a triangle with one vertex on one side and two on the
other is cut in the segment between two of these (`mem_segment_cut`).
-/

namespace PlaneCut

variable {K V : Type} [Field K] [LinearOrder K] [IsStrictOrderedRing K] [AddCommGroup V] [Module K V] (f : V →ᵃ[K] K)

/-- The point of the line through `a` and `s` on the plane. -/
def cut (a s : V) : V := AffineMap.lineMap a s (f a / (f a - f s))

variable {f} {a b s x y : V}

omit [LinearOrder K] [IsStrictOrderedRing K] in
theorem apply_cut (h : f a ≠ f s) : f (cut f a s) = 0 := by
  have hne : f a - f s ≠ 0 := sub_ne_zero.mpr h
  rw [cut, AffineMap.apply_lineMap, AffineMap.lineMap_apply_ring']
  field_simp
  ring

omit [LinearOrder K] [IsStrictOrderedRing K] in
theorem cut_neg : cut (-f) a s = cut f a s := by
  have : -f a / (-f a - -f s) = f a / (f a - f s) := by
    rw [neg_sub_neg, ← neg_sub (f a), neg_div_neg_eq]
  rw [cut, cut]
  exact congrArg _ this

/-- The ends of a side are not on one side of the plane. -/
theorem cut_mem_segment (h : f a ≠ f s) (hsign : f a * f s ≤ 0) : cut f a s ∈ segment K a s := by
  have hne : f a - f s ≠ 0 := sub_ne_zero.mpr h
  have hsq : 0 < (f a - f s) * (f a - f s) := mul_self_pos.mpr hne
  have hle : 0 ≤ f a / (f a - f s) := by
    rw [← mul_div_mul_right _ _ hne]
    exact div_nonneg (by nlinarith [mul_self_nonneg (f a)]) hsq.le
  have hone : f a / (f a - f s) ≤ 1 := by
    rw [← mul_div_mul_right _ _ hne, div_le_one hsq]
    nlinarith [mul_self_nonneg (f s)]
  rw [segment_eq_image_lineMap]
  exact ⟨_, ⟨hle, hone⟩, rfl⟩

/-- The values of an affine function on a triangle. -/
theorem exists_weights (h : x ∈ convexHull K {s, a, b}) : ∃ u v w : K, 0 ≤ u ∧ 0 ≤ v ∧ 0 ≤ w ∧ u + v + w = 1 ∧
    x = u • s + v • a + w • b ∧ ∀ g : V →ᵃ[K] K, g x = u * g s + v * g a + w * g b := by
  rw [convexHull_insert ⟨a, by simp⟩, convexHull_pair, convexJoin_singleton_left] at h
  simp only [Set.mem_iUnion] at h
  obtain ⟨y, hy, hx⟩ := h
  obtain ⟨p, q, hp, hq, hpq, rfl⟩ := hy
  obtain ⟨u, r, hu, hr, hur, rfl⟩ := hx
  have hg (g : V →ᵃ[K] K) (c d : K) (hcd : c + d = 1) (v w : V) : g (c • v + d • w) = c * g v + d * g w := by
    rw [Convex.combo_affine_apply hcd, smul_eq_mul, smul_eq_mul]
  refine ⟨u, r * p, r * q, hu, mul_nonneg hr hp, mul_nonneg hr hq, ?_, ?_, fun g => ?_⟩
  · rw [add_assoc, ← mul_add, hpq, mul_one, hur]
  · rw [smul_add, smul_smul, smul_smul, add_assoc]
  · rw [hg g u r hur, hg g p q hpq]
    ring

/-- **The cut of a triangle** with a vertex strictly on one side, and the two others not on that side. -/
theorem mem_segment_cut (hs : f s < 0) (ha : 0 ≤ f a) (hb : 0 ≤ f b) (hx : x ∈ convexHull K {s, a, b}) (h : f x = 0) :
    x ∈ segment K (cut f a s) (cut f b s) := by
  obtain ⟨u, v, w, -, hv, hw, hsum, hcombo, hvalue⟩ := exists_weights hx
  have hzero := hvalue f
  rw [h] at hzero
  have hda : 0 < f a - f s := by linarith
  have hdb : 0 < f b - f s := by linarith
  have hsne : f s ≠ 0 := hs.ne
  have hpos : 0 < -f s := by linarith
  refine ⟨v * ((f a - f s) / -f s), w * ((f b - f s) / -f s), by positivity, by positivity, ?_, ?_⟩
  · field_simp
    linear_combination hzero + f s * hsum
  · have hu : u = v * (f a / -f s) + w * (f b / -f s) := by
      field_simp
      linear_combination -hzero
    rw [cut, cut, AffineMap.lineMap_apply_module, AffineMap.lineMap_apply_module, hcombo, hu]
    match_scalars <;> field_simp <;> ring

end PlaneCut
