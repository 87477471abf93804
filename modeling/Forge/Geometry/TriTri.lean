import Forge.Data.PlaneCut
import Forge.Geometry.Bvh

/-!
# The test for two triangles

`triTriIntersect` against the closed triangles. Each of them meets the plane of the other in the segment between two
cuts, whose coordinates on an axis are what `interval` computes; on the line of both planes a point is known by its
coordinate on the dominant axis (`eq_of_axis`).

**`triTriIntersect_correct`**: triangles that cross are found as far as the tolerance tells their values apart, and
triangles that are found share a point, unless one is apart from the plane of the other. A triangle whose first vertex
lies on the plane of the other, between the two others, is not promised to be found.
-/

namespace Forge.Geometry

open PlaneCut (cut)

/-! ### What is claimed -/

/-- The closed triangle. -/
def closed (t : Tri) : Set Vec := convexHull ℚ {t 0, t 1, t 2}

/-- Values strictly on both sides. -/
def Straddles (dv : Vec) : Prop := (∃ i, 0 < dv i) ∧ ∃ j, dv j < 0

/-- Values strictly on one side. -/
def OneSided (dv : Vec) : Prop := (∀ k, 0 < dv k) ∨ ∀ k, dv k < 0

/-- Each triangle has vertices strictly on both sides of the plane of the other, and what they have in common is a
segment of positive length. -/
structure Crosses (t1 t2 : Tri) : Prop where
  left : Straddles (planeValues t2 t1)
  right : Straddles (planeValues t1 t2)
  common : ∃ x y, x ≠ y ∧ closed t1 ∩ closed t2 = segment ℚ x y

/-- One triangle lies strictly on one side of the plane of the other. -/
def Apart (t1 t2 : Tri) : Prop := OneSided (planeValues t2 t1) ∨ OneSided (planeValues t1 t2)

/-- The value of the vertex on one side differs from those of the two on the other by more than the tolerance. -/
def ToldApart (dv : Vec) : Prop :=
  eps < |dv (pairing dv).2.1 - dv (pairing dv).1| ∧ eps < |dv (pairing dv).2.2 - dv (pairing dv).1|

instance (dv : Vec) : Decidable (ToldApart dv) := inferInstanceAs (Decidable (_ ∧ _))

/-- The tolerance tells the first triangle from the plane of the second, and the sides of each from its own others. -/
structure Measured (t1 t2 : Tri) : Prop where
  off : ∃ k, eps < |planeValues t2 t1 k|
  left : ToldApart (planeValues t2 t1)
  right : ToldApart (planeValues t1 t2)

/-! ### Planes -/

def dotLin (n : Vec) : Vec →ₗ[ℚ] ℚ where
  toFun := dot n
  map_add' x y := by simp only [dot, Pi.add_apply]; ring
  map_smul' c x := by simp only [dot, Pi.smul_apply, smul_eq_mul, RingHom.id_apply]; ring

/-- The plane of a triangle, as the function that vanishes on it. -/
def plane (t : Tri) : Vec →ᵃ[ℚ] ℚ := (dotLin (normal t)).toAffineMap + AffineMap.const ℚ Vec (-dot (normal t) (t 0))

variable {t t1 t2 u : Tri} {d e n x y : Vec}

theorem plane_apply : plane t x = dot (normal t) x + -dot (normal t) (t 0) := rfl

theorem planeValues_eq : planeValues t u = fun k => plane t (u k) := rfl

theorem dot_sub : dot n (x - y) = dot n x - dot n y := map_sub (dotLin n) x y

theorem dot_sub_eq : dot (normal t) (x - y) = plane t x - plane t y := by
  rw [dot_sub, plane_apply, plane_apply]
  ring

theorem plane_vertex (k : Fin 3) : plane t (t k) = 0 := by
  fin_cases k <;> simp [plane_apply, dot, normal, cross, sub] <;> ring

/-- A triangle lies on its plane. -/
theorem plane_of_mem (h : x ∈ closed t) : plane t x = 0 := by
  obtain ⟨a, b, c, -, -, -, -, -, hvalue⟩ := PlaneCut.exists_weights h
  rw [hvalue, plane_vertex, plane_vertex, plane_vertex]
  ring

/-- A triangle strictly on one side does not meet the plane. -/
theorem plane_ne_zero (h : OneSided (planeValues t u)) (hx : x ∈ closed u) : plane t x ≠ 0 := by
  rw [planeValues_eq] at h
  have hconvex := hx
  rcases h with h | h
  · have hsub : closed u ⊆ {y | 0 < plane t y} := by
      refine convexHull_min ?_ ((convex_Ioi 0).affine_preimage (plane t))
      rintro y (rfl | rfl | rfl)
      exacts [h 0, h 1, h 2]
    exact (hsub hx).ne'
  · have hsub : closed u ⊆ {y | plane t y < 0} := by
      refine convexHull_min ?_ ((convex_Iio 0).affine_preimage (plane t))
      rintro y (rfl | rfl | rfl)
      exacts [h 0, h 1, h 2]
    exact (hsub hx).ne

/-! ### The line of two planes -/

/-- The double cross product. -/
theorem cross_cross (m : Vec) (k : Fin 3) : cross d (cross m n) k = m k * dot n d - n k * dot m d := by
  fin_cases k <;> simp [cross, dot] <;> ring

theorem eq_zero_of_cross {a : Fin 3} (h : cross d e = 0) (ha : e a ≠ 0) (hd : d a = 0) : d = 0 := by
  have h0 : d 1 * e 2 - d 2 * e 1 = 0 := congrFun h 0
  have h1 : d 2 * e 0 - d 0 * e 2 = 0 := congrFun h 1
  have h2 : d 0 * e 1 - d 1 * e 0 = 0 := congrFun h 2
  funext k
  fin_cases a <;> fin_cases k <;> simp_all

theorem abs_le_dominantAxis (k : Fin 3) : |d k| ≤ |d (dominantAxis d)| := by
  rw [dominantAxis]
  split_ifs with h0 h1
  · fin_cases k
    exacts [le_refl _, h0.1, h0.2]
  · have h01 : |d 0| ≤ |d 1| := by
      by_contra hlt
      exact h0 ⟨(not_le.mp hlt).le, h1.trans (not_le.mp hlt).le⟩
    fin_cases k
    exacts [h01, le_refl _, h1]
  · have h12 : |d 1| ≤ |d 2| := (not_le.mp h1).le
    have h02 : |d 0| ≤ |d 2| := by
      by_contra hlt
      exact h0 ⟨h12.trans (not_le.mp hlt).le, (not_le.mp hlt).le⟩
    fin_cases k
    exacts [h02, h12, le_refl _]

theorem dominantAxis_ne_zero (h : d ≠ 0) : d (dominantAxis d) ≠ 0 := by
  intro hzero
  refine h (funext fun k => abs_nonpos_iff.mp ?_)
  have := abs_le_dominantAxis (d := d) k
  rwa [hzero, abs_zero] at this

/-- A point of the line of two planes is known by its coordinate on the dominant axis. -/
theorem eq_of_axis (hdir : cross (normal t1) (normal t2) ≠ 0) (hx1 : plane t1 x = 0) (hx2 : plane t2 x = 0)
    (hy1 : plane t1 y = 0) (hy2 : plane t2 y = 0)
    (h : x (dominantAxis (cross (normal t1) (normal t2))) = y (dominantAxis (cross (normal t1) (normal t2)))) :
    x = y := by
  refine sub_eq_zero.mp (eq_zero_of_cross (e := cross (normal t1) (normal t2)) ?_ (dominantAxis_ne_zero hdir) ?_)
  · funext k
    rw [cross_cross, dot_sub_eq, dot_sub_eq, hx1, hx2, hy1, hy2]
    simp
  · simp [h]

/-! ### The interval of a triangle -/

section

variable {axis s i j : Fin 3}

theorem pairing_cases (dv : Vec) : pairing dv = (2, 0, 1) ∧ 0 < dv 0 * dv 1 ∨
    pairing dv = (1, 0, 2) ∧ dv 0 * dv 1 ≤ 0 ∧ 0 < dv 0 * dv 2 ∨
    pairing dv = (0, 1, 2) ∧ dv 0 * dv 1 ≤ 0 ∧ dv 0 * dv 2 ≤ 0 := by
  rw [pairing]
  split_ifs with h1 h2
  · exact .inl ⟨rfl, h1⟩
  · exact .inr (.inl ⟨rfl, not_lt.mp h1, h2⟩)
  · exact .inr (.inr ⟨rfl, not_lt.mp h1, not_lt.mp h2⟩)

theorem closed_eq (hp : pairing (planeValues t u) = (s, i, j)) : closed u = convexHull ℚ {u s, u i, u j} := by
  rcases pairing_cases (planeValues t u) with ⟨h, -⟩ | ⟨h, -⟩ | ⟨h, -⟩ <;> rw [h] at hp <;> cases hp
  · exact congrArg (convexHull ℚ) (by rw [Set.insert_comm (u 2), Set.pair_comm])
  · exact congrArg (convexHull ℚ) (Set.insert_comm _ _ _)
  · rfl

theorem oneSided_iff {dv : Vec} :
    OneSided dv ↔ 0 < dv 0 ∧ 0 < dv 1 ∧ 0 < dv 2 ∨ dv 0 < 0 ∧ dv 1 < 0 ∧ dv 2 < 0 := by
  simp [OneSided, Fin.forall_fin_succ]

theorem straddles_iff {dv : Vec} :
    Straddles dv ↔ (0 < dv 0 ∨ 0 < dv 1 ∨ 0 < dv 2) ∧ (dv 0 < 0 ∨ dv 1 < 0 ∨ dv 2 < 0) := by
  simp [Straddles, Fin.exists_fin_succ]

/-- The sides that are cut have their ends not on one side, unless all vertices are. -/
theorem sides_of_pairing {dv : Vec} (hp : pairing dv = (s, i, j)) (h : ¬ OneSided dv) :
    dv i * dv s ≤ 0 ∧ dv j * dv s ≤ 0 := by
  rcases pairing_cases dv with ⟨hpair, h01⟩ | ⟨hpair, h01, h02⟩ | ⟨hpair, h01, h02⟩ <;> rw [hpair] at hp <;> cases hp
  · rw [oneSided_iff, not_or] at h
    rcases mul_pos_iff.mp h01 with ⟨h0, h1⟩ | ⟨h0, h1⟩
    · have h2 : dv 2 ≤ 0 := not_lt.mp fun h2 => h.1 ⟨h0, h1, h2⟩
      exact ⟨mul_nonpos_of_nonneg_of_nonpos h0.le h2, mul_nonpos_of_nonneg_of_nonpos h1.le h2⟩
    · have h2 : 0 ≤ dv 2 := not_lt.mp fun h2 => h.2 ⟨h0, h1, h2⟩
      exact ⟨mul_nonpos_of_nonpos_of_nonneg h0.le h2, mul_nonpos_of_nonpos_of_nonneg h1.le h2⟩
  · refine ⟨h01, ?_⟩
    rcases mul_pos_iff.mp h02 with ⟨h0, h2⟩ | ⟨h0, h2⟩
    · exact mul_nonpos_of_nonneg_of_nonpos h2.le (nonpos_of_mul_nonpos_right h01 h0)
    · exact mul_nonpos_of_nonpos_of_nonneg h2.le (nonneg_of_mul_nonpos_right h01 h0)
  · rw [mul_comm (dv 1), mul_comm (dv 2)]
    exact ⟨h01, h02⟩

/-- The vertex that is alone on its side. -/
theorem solo_of_pairing {dv : Vec} (hp : pairing dv = (s, i, j)) (h : Straddles dv) (hfirst : dv 0 ≠ 0) :
    dv s < 0 ∧ 0 ≤ dv i ∧ 0 ≤ dv j ∨ 0 < dv s ∧ dv i ≤ 0 ∧ dv j ≤ 0 := by
  obtain ⟨hpos, hneg⟩ := straddles_iff.mp h
  rcases lt_or_gt_of_ne hfirst with h0 | h0
  · rcases pairing_cases dv with ⟨hpair, h01⟩ | ⟨hpair, h01, h02⟩ | ⟨hpair, h01, h02⟩ <;> rw [hpair] at hp <;>
      cases hp
    · have h1 := neg_of_mul_pos_right h01 h0.le
      exact .inr ⟨by grind, h0.le, h1.le⟩
    · have h2 := neg_of_mul_pos_right h02 h0.le
      exact .inr ⟨by grind, h0.le, h2.le⟩
    · exact .inl ⟨h0, nonneg_of_mul_nonpos_right h01 h0, nonneg_of_mul_nonpos_right h02 h0⟩
  · rcases pairing_cases dv with ⟨hpair, h01⟩ | ⟨hpair, h01, h02⟩ | ⟨hpair, h01, h02⟩ <;> rw [hpair] at hp <;>
      cases hp
    · have h1 := pos_of_mul_pos_right h01 h0.le
      exact .inl ⟨by grind, h0.le, h1.le⟩
    · have h2 := pos_of_mul_pos_right h02 h0.le
      exact .inl ⟨by grind, h0.le, h2.le⟩
    · exact .inr ⟨h0, nonpos_of_mul_nonpos_right h01 h0, nonpos_of_mul_nonpos_right h02 h0⟩

theorem vertex_mem (a : Fin 3) : u a ∈ closed u := subset_convexHull ℚ _ (by fin_cases a <;> simp)

theorem cut_mem {a b : Fin 3} (h : plane t (u a) ≠ plane t (u b)) (hsign : plane t (u a) * plane t (u b) ≤ 0) :
    cut (plane t) (u a) (u b) ∈ closed u :=
  (convex_convexHull ℚ _).segment_subset (vertex_mem a) (vertex_mem b) (PlaneCut.cut_mem_segment h hsign)

theorem cut_apply (a b : Vec) : cut (plane t) a b axis =
    a axis + (b axis - a axis) * (plane t a / (plane t a - plane t b)) := by
  rw [cut, AffineMap.lineMap_apply_module', Pi.add_apply, Pi.smul_apply, Pi.sub_apply, smul_eq_mul]
  ring

theorem interval_eq (hp : pairing (planeValues t u) = (s, i, j)) :
    interval (fun k => u k axis) (planeValues t u) =
      if |plane t (u i) - plane t (u s)| ≤ eps ∨ |plane t (u j) - plane t (u s)| ≤ eps then none
      else some (min (cut (plane t) (u i) (u s) axis) (cut (plane t) (u j) (u s) axis),
        max (cut (plane t) (u i) (u s) axis) (cut (plane t) (u j) (u s) axis)) := by
  unfold interval
  rw [hp]
  simp only [cut_apply]
  rfl

theorem interval_isSome_iff {p dv : Vec} : (∃ r, interval p dv = some r) ↔ ToldApart dv := by
  rcases hp : pairing dv with ⟨solo, i, j⟩
  simp only [interval, ToldApart, hp, ← not_le, ← not_or]
  split_ifs with h <;> simp [h]

theorem ne_of_eps_lt {a b : ℚ} (h : eps < |a - b|) : a ≠ b := by
  rintro rfl
  rw [sub_self, abs_zero] at h
  exact absurd h (by decide +kernel)

/-- The values between the ends of the interval are coordinates of points of the triangle on the plane. -/
theorem exists_of_mem_interval {r : ℚ × ℚ} {v : ℚ} (h : ¬ OneSided (planeValues t u))
    (hr : interval (fun k => u k axis) (planeValues t u) = some r) (hlo : r.1 ≤ v) (hhi : v ≤ r.2) :
    ∃ x ∈ closed u, plane t x = 0 ∧ x axis = v := by
  rcases hp : pairing (planeValues t u) with ⟨s, i, j⟩
  obtain ⟨hsi, hsj⟩ := sides_of_pairing hp h
  rw [interval_eq hp] at hr
  split_ifs at hr with hsmall
  obtain ⟨hi, hj⟩ := not_or.mp hsmall
  have hne {a : Fin 3} (ha : ¬ |plane t (u a) - plane t (u s)| ≤ eps) : plane t (u a) ≠ plane t (u s) :=
    ne_of_eps_lt (not_le.mp ha)
  obtain rfl := Option.some.inj hr
  have hv : v ∈ segment ℚ (cut (plane t) (u i) (u s) axis) (cut (plane t) (u j) (u s) axis) := by
    rw [segment_eq_uIcc]
    exact ⟨hlo, hhi⟩
  obtain ⟨p, q, hp0, hq0, hpq, rfl⟩ := hv
  refine ⟨p • cut (plane t) (u i) (u s) + q • cut (plane t) (u j) (u s), ?_, ?_, rfl⟩
  · exact convex_convexHull ℚ _ (cut_mem (hne hi) hsi) (cut_mem (hne hj) hsj) hp0 hq0 hpq
  · rw [Convex.combo_affine_apply hpq, PlaneCut.apply_cut (hne hi), PlaneCut.apply_cut (hne hj), smul_zero, smul_zero,
      add_zero]

/-- The coordinates of the points of the triangle on the plane lie between the ends of the interval. -/
theorem mem_interval {r : ℚ × ℚ} (h : Straddles (planeValues t u)) (hfirst : planeValues t u 0 ≠ 0)
    (hr : interval (fun k => u k axis) (planeValues t u) = some r) (hx : x ∈ closed u) (hx0 : plane t x = 0) :
    r.1 ≤ x axis ∧ x axis ≤ r.2 := by
  rcases hp : pairing (planeValues t u) with ⟨s, i, j⟩
  rw [closed_eq hp] at hx
  have hseg : x ∈ segment ℚ (cut (plane t) (u i) (u s)) (cut (plane t) (u j) (u s)) := by
    rcases solo_of_pairing hp h hfirst with ⟨hs, hi, hj⟩ | ⟨hs, hi, hj⟩
    · exact PlaneCut.mem_segment_cut hs hi hj hx hx0
    · rw [← PlaneCut.cut_neg, ← PlaneCut.cut_neg (a := u j)]
      exact PlaneCut.mem_segment_cut (neg_neg_of_pos hs) (neg_nonneg.mpr hi) (neg_nonneg.mpr hj) hx
        (neg_eq_zero.mpr hx0)
  have haxis : x axis ∈ segment ℚ (cut (plane t) (u i) (u s) axis) (cut (plane t) (u j) (u s) axis) := by
    obtain ⟨p, q, hp0, hq0, hpq, rfl⟩ := hseg
    exact ⟨p, q, hp0, hq0, hpq, rfl⟩
  rw [segment_eq_uIcc] at haxis
  rw [interval_eq hp] at hr
  split_ifs at hr
  obtain rfl := Option.some.inj hr
  exact haxis

end

/-! ### The test -/

theorem triTriIntersect_iff : triTriIntersect t1 t2 = true ↔
    oneSide (planeValues t2 t1) = false ∧ oneSide (planeValues t1 t2) = false ∧ (∃ k, eps < |planeValues t2 t1 k|) ∧
    ∃ r1 r2, interval (fun k => t1 k (dominantAxis (cross (normal t1) (normal t2)))) (planeValues t2 t1) = some r1 ∧
      interval (fun k => t2 k (dominantAxis (cross (normal t1) (normal t2)))) (planeValues t1 t2) = some r2 ∧
      max r1.1 r2.1 ≤ min r1.2 r2.2 := by
  have hoff : (∃ k, eps < |planeValues t2 t1 k|) ↔
      ¬ (|planeValues t2 t1 0| ≤ eps ∧ |planeValues t2 t1 1| ≤ eps ∧ |planeValues t2 t1 2| ≤ eps) := by
    rw [← not_iff_not]
    simp [Fin.forall_fin_succ]
  rw [hoff]
  unfold triTriIntersect
  by_cases h1 : oneSide (planeValues t2 t1) = true
  · simp [h1]
  by_cases h2 : oneSide (planeValues t1 t2) = true
  · simp [h2]
  rw [if_neg h1, if_neg h2]
  split_ifs with hflat
  · simp [hflat]
  · simp only [Bool.eq_false_iff.mpr h1, Bool.eq_false_iff.mpr h2, hflat, not_false_eq_true, true_and]
    cases interval (fun k => t1 k (dominantAxis (cross (normal t1) (normal t2)))) (planeValues t2 t1) <;>
      cases interval (fun k => t2 k (dominantAxis (cross (normal t1) (normal t2)))) (planeValues t1 t2) <;> simp

/-- The values of the vertices on the plane of the other triangle do not differ when the planes are parallel. -/
theorem plane_vertex_eq (h : cross (normal t1) (normal t2) = 0) (hne : normal t1 ≠ 0) (a b : Fin 3) :
    plane t2 (t1 a) = plane t2 (t1 b) := by
  by_contra hab
  refine hne (funext fun k => ?_)
  have hk := cross_cross (d := t1 a - t1 b) (n := normal t2) (normal t1) k
  rw [h, dot_sub_eq, dot_sub_eq, plane_vertex, plane_vertex, sub_self, mul_zero, sub_zero] at hk
  have hzero : cross (t1 a - t1 b) 0 k = 0 := by fin_cases k <;> simp [cross]
  exact (mul_eq_zero.mp (hk.symm.trans hzero)).resolve_right (sub_ne_zero.mpr hab)

/-- A plane without a normal separates nothing. -/
theorem normal_ne_zero {a b : Vec} (h : plane t a ≠ plane t b) : normal t ≠ 0 := by
  intro hzero
  refine h (sub_eq_zero.mp ?_)
  rw [← dot_sub_eq, hzero]
  simp [dot]

theorem normals_cross (h1 : ToldApart (planeValues t2 t1)) (h2 : ToldApart (planeValues t1 t2)) :
    cross (normal t1) (normal t2) ≠ 0 := by
  intro hzero
  rw [planeValues_eq, ToldApart] at h1 h2
  exact ne_of_eps_lt h1.1 (plane_vertex_eq hzero (normal_ne_zero (ne_of_eps_lt h2.1)) _ _)

theorem not_oneSide {dv : Vec} (h : Straddles dv) : oneSide dv = false := by
  obtain ⟨hpos, hneg⟩ := straddles_iff.mp h
  have heps : (0 : ℚ) < eps := by decide +kernel
  simp only [oneSide, Bool.or_eq_false_iff, Bool.and_eq_false_iff, decide_eq_false_iff_not, not_lt]
  constructor
  · rcases hneg with h | h | h
    · exact .inl (.inl (by linarith))
    · exact .inl (.inr (by linarith))
    · exact .inr (by linarith)
  · rcases hpos with h | h | h
    · exact .inl (.inl (by linarith))
    · exact .inl (.inr (by linarith))
    · exact .inr (by linarith)

/-- **The test is correct up to its tolerance**: triangles that cross are found when the tolerance tells their values
apart, and triangles that are found share a point unless one is apart from the plane of the other. -/
theorem triTriIntersect_correct (t1 t2 : Tri) :
    (Crosses t1 t2 → planeValues t2 t1 0 ≠ 0 → planeValues t1 t2 0 ≠ 0 →
      (triTriIntersect t1 t2 = true ↔ Measured t1 t2)) ∧
    (triTriIntersect t1 t2 = true → ¬ Apart t1 t2 → (closed t1 ∩ closed t2).Nonempty) := by
  constructor
  · intro hcross h1 h2
    rw [triTriIntersect_iff]
    constructor
    · rintro ⟨-, -, hoff, r1, r2, hr1, hr2, -⟩
      exact ⟨hoff, interval_isSome_iff.mp ⟨r1, hr1⟩, interval_isSome_iff.mp ⟨r2, hr2⟩⟩
    · intro hm
      obtain ⟨x, y, -, hxy⟩ := hcross.common
      obtain ⟨hx1, hx2⟩ : x ∈ closed t1 ∩ closed t2 := hxy ▸ left_mem_segment ℚ x y
      obtain ⟨r1, hr1⟩ := interval_isSome_iff.mpr hm.left
      obtain ⟨r2, hr2⟩ := interval_isSome_iff.mpr hm.right
      refine ⟨not_oneSide hcross.left, not_oneSide hcross.right, hm.off, r1, r2, hr1, hr2, ?_⟩
      obtain ⟨hlo1, hhi1⟩ := mem_interval hcross.left h1 hr1 hx1 (plane_of_mem hx2)
      obtain ⟨hlo2, hhi2⟩ := mem_interval hcross.right h2 hr2 hx2 (plane_of_mem hx1)
      exact (max_le hlo1 hlo2).trans (le_min hhi1 hhi2)
  · intro h hapart
    obtain ⟨-, -, -, r1, r2, hr1, hr2, hle⟩ := triTriIntersect_iff.mp h
    obtain ⟨hapart1, hapart2⟩ := not_or.mp hapart
    obtain ⟨x, hx, hx2, hxv⟩ := exists_of_mem_interval hapart1 hr1 (le_max_left _ _) (hle.trans (min_le_left _ _))
    obtain ⟨y, hy, hy1, hyv⟩ := exists_of_mem_interval hapart2 hr2 (le_max_right _ _) (hle.trans (min_le_right _ _))
    have hxy : x = y := eq_of_axis
      (normals_cross (interval_isSome_iff.mp ⟨r1, hr1⟩) (interval_isSome_iff.mp ⟨r2, hr2⟩))
      (plane_of_mem hx) hx2 hy1 (plane_of_mem hy) (hxv.trans hyv.symm)
    exact ⟨x, hx, hxy ▸ hy⟩

/-! ### Two triangles of any size -/

/-- A triangle in the plane of the first two axes. -/
def lying (h : ℚ) : Tri := ![![-h, 0, 0], ![h, h, 0], ![h, -h, 0]]

/-- A triangle in the plane of the last two axes. -/
def standing (h : ℚ) : Tri := ![![0, 0, -h], ![0, h, h], ![0, -h, h]]

variable {h : ℚ}

theorem plane_lying : plane (lying h) x = -4 * h ^ 2 * x 2 := by
  simp only [plane_apply, dot, normal, cross, sub, lying, Matrix.cons_val_zero, Matrix.cons_val_one,
    Matrix.cons_val_two, Matrix.head_cons, Matrix.tail_cons]
  ring

theorem plane_standing : plane (standing h) x = 4 * h ^ 2 * x 0 := by
  simp only [plane_apply, dot, normal, cross, sub, standing, Matrix.cons_val_zero, Matrix.cons_val_one,
    Matrix.cons_val_two, Matrix.head_cons, Matrix.tail_cons]
  ring

/-- Each of the two is cut at these points. -/
theorem cut_lying (hpos : 0 < h) : cut (plane (standing h)) (lying h 1) (lying h 0) = ![0, h / 2, 0] ∧
    cut (plane (standing h)) (lying h 2) (lying h 0) = ![0, -h / 2, 0] := by
  have hne : h ≠ 0 := hpos.ne'
  constructor <;> funext axis <;> rw [cut_apply, plane_standing, plane_standing] <;> fin_cases axis <;>
    simp only [lying, Fin.zero_eta, Fin.mk_one, Fin.reduceFinMk, Matrix.cons_val_zero, Matrix.cons_val_one,
      Matrix.cons_val_two, Matrix.head_cons, Matrix.tail_cons] <;> field_simp <;> ring

theorem cut_standing (hpos : 0 < h) : cut (plane (lying h)) (standing h 1) (standing h 0) = ![0, h / 2, 0] ∧
    cut (plane (lying h)) (standing h 2) (standing h 0) = ![0, -h / 2, 0] := by
  have hne : h ≠ 0 := hpos.ne'
  constructor <;> funext axis <;> rw [cut_apply, plane_lying, plane_lying] <;> fin_cases axis <;>
    simp only [standing, Fin.zero_eta, Fin.mk_one, Fin.reduceFinMk, Matrix.cons_val_zero, Matrix.cons_val_one,
      Matrix.cons_val_two, Matrix.head_cons, Matrix.tail_cons] <;> field_simp <;> ring

theorem values_lying (k : Fin 3) : planeValues (standing h) (lying h) k = 4 * h ^ 2 * ![-h, h, h] k := by
  rw [planeValues_eq]
  dsimp only
  rw [plane_standing]
  fin_cases k <;> rfl

theorem values_standing (k : Fin 3) : planeValues (lying h) (standing h) k = -4 * h ^ 2 * ![-h, h, h] k := by
  rw [planeValues_eq]
  dsimp only
  rw [plane_lying]
  fin_cases k <;> rfl

/-- They cross along a segment of their size. -/
theorem crosses_lying_standing (hpos : 0 < h) : Crosses (lying h) (standing h) := by
  have hcube : 0 < 4 * h ^ 2 * h := by positivity
  have hvalue (k : Fin 3) : plane (standing h) (lying h k) = 4 * h ^ 2 * ![-h, h, h] k := values_lying k
  have hvalue' (k : Fin 3) : plane (lying h) (standing h k) = -4 * h ^ 2 * ![-h, h, h] k := values_standing k
  have h0 : plane (standing h) (lying h 0) < 0 := by rw [hvalue]; simp; linarith
  have h1 : 0 < plane (standing h) (lying h 1) := by rw [hvalue]; simpa using hcube
  have h2 : 0 < plane (standing h) (lying h 2) := by rw [hvalue]; simpa using hcube
  have h0' : 0 < plane (lying h) (standing h 0) := by rw [hvalue']; simp; linarith
  have h1' : plane (lying h) (standing h 1) < 0 := by rw [hvalue']; simp; linarith
  have h2' : plane (lying h) (standing h 2) < 0 := by rw [hvalue']; simp; linarith
  refine ⟨⟨⟨1, h1⟩, ⟨0, h0⟩⟩, ⟨⟨0, h0'⟩, ⟨1, h1'⟩⟩, ![0, h / 2, 0], ![0, -h / 2, 0], ?_, Set.Subset.antisymm ?_ ?_⟩
  · intro heq
    have : h / 2 = -h / 2 := congrFun heq 1
    linarith
  · rintro x ⟨hx, hx'⟩
    rw [← (cut_lying hpos).1, ← (cut_lying hpos).2]
    exact PlaneCut.mem_segment_cut h0 h1.le h2.le hx (plane_of_mem hx')
  · refine ((convex_convexHull ℚ _).inter (convex_convexHull ℚ _)).segment_subset ⟨?_, ?_⟩ ⟨?_, ?_⟩
    · rw [← (cut_lying hpos).1]
      exact cut_mem (h0.trans h1).ne' (mul_nonpos_of_nonneg_of_nonpos h1.le h0.le)
    · rw [← (cut_standing hpos).1]
      exact cut_mem (h1'.trans h0').ne (mul_nonpos_of_nonpos_of_nonneg h1'.le h0'.le)
    · rw [← (cut_lying hpos).2]
      exact cut_mem (h0.trans h2).ne' (mul_nonpos_of_nonneg_of_nonpos h2.le h0.le)
    · rw [← (cut_standing hpos).2]
      exact cut_mem (h2'.trans h0').ne (mul_nonpos_of_nonpos_of_nonneg h2'.le h0'.le)

/-- Of the size of one meter they are found. -/
theorem triTriIntersect_correct_meter : triTriIntersect (lying 1) (standing 1) = true :=
  ((triTriIntersect_correct (lying 1) (standing 1)).1 (crosses_lying_standing one_pos) (by decide +kernel)
    (by decide +kernel)).mpr ⟨⟨0, by decide +kernel⟩, by decide +kernel, by decide +kernel⟩

/-- **Small triangles and near misses**: of the size of a hundredth of a millimeter they are not found, and a triangle
that misses a plane by less than the tolerance is. -/
theorem tolerance_is_absolute :
    (¬ ∀ t1 t2, normal t1 ≠ 0 → normal t2 ≠ 0 → Crosses t1 t2 → triTriIntersect t1 t2 = true) ∧
    ¬ ∀ t1 t2, normal t1 ≠ 0 → normal t2 ≠ 0 → triTriIntersect t1 t2 = true → (closed t1 ∩ closed t2).Nonempty := by
  constructor
  · intro hall
    have hfound := hall (lying (1 / 100000)) (standing (1 / 100000)) (by decide +kernel) (by decide +kernel)
      (crosses_lying_standing (by norm_num))
    exact absurd hfound (by decide +kernel)
  · intro hall
    obtain ⟨x, habove, hflat⟩ := hall PartBvh.above PartBvh.flat (by decide +kernel) (by decide +kernel)
      (by decide +kernel)
    exact plane_ne_zero (.inl (by decide +kernel)) habove (plane_of_mem hflat)

end Forge.Geometry
