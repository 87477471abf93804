import Forge.Data.Numerals
import Mathlib.Algebra.Order.Field.Basic
import Mathlib.Order.Interval.Set.Basic

/-!
# Slabs

A line `t ↦ origin + t * delta` in one coordinate, over a window of parameters, and the slab `lo ≤ x ≤ hi` of that
coordinate. `clip` shrinks the window to the parameters at which the line is in the slab; **`mem_clip`** says that it
keeps exactly these. Clipping against one slab after the other decides whether a segment meets a box.
-/

namespace Forge.Slab

variable {K : Type*} [Field K] [LinearOrder K] [IsStrictOrderedRing K]

/-- The parameters of a window. -/
def span (w : K × K) : Set K := Set.Icc w.1 w.2

omit [Field K] [IsStrictOrderedRing K] in
theorem exists_span {w : K × K} : (∃ t, t ∈ span w) ↔ w.1 ≤ w.2 := Set.nonempty_Icc

/-- Two values in increasing order. -/
def sorted (near far : K) : K × K := if far < near then (far, near) else (near, far)

/-- Shrink the window to the slab; the line is not parallel to it. -/
def clip (origin delta lo hi : K) (w : K × K) : K × K :=
  let crossed := sorted ((lo - origin) * (1 / delta)) ((hi - origin) * (1 / delta))
  (max w.1 crossed.1, min w.2 crossed.2)

omit [Field K] [IsStrictOrderedRing K] in
theorem span_inter (w v : K × K) (t : K) : t ∈ span (max w.1 v.1, min w.2 v.2) ↔ t ∈ span w ∧ t ∈ span v := by
  simp only [span, Set.mem_Icc, max_le_iff, le_min_iff]
  tauto

/-- The parameters at which a line is in a slab that it is not parallel to. -/
theorem mem_crossed {origin delta lo hi : K} (hdelta : delta ≠ 0) (hle : lo ≤ hi) (t : K) :
    t ∈ span (sorted ((lo - origin) * (1 / delta)) ((hi - origin) * (1 / delta))) ↔
      origin + t * delta ∈ Set.Icc lo hi := by
  rcases lt_or_gt_of_ne hdelta with hneg | hpos
  · have hlo : t ≤ (lo - origin) / delta ↔ lo ≤ origin + t * delta := by
      rw [le_div_iff_of_neg hneg, sub_le_iff_le_add']
    have hhi : (hi - origin) / delta ≤ t ↔ origin + t * delta ≤ hi := by
      rw [div_le_iff_of_neg hneg, le_sub_iff_add_le']
    have horder : (hi - origin) / delta ≤ (lo - origin) / delta :=
      div_le_div_of_nonpos_of_le hneg.le (sub_le_sub_right hle _)
    simp only [mul_one_div, sorted, span]
    split
    · rw [Set.mem_Icc, Set.mem_Icc, hlo, hhi]
      exact and_comm
    · next hnot =>
      have heq := le_antisymm horder (not_lt.mp hnot)
      rw [Set.mem_Icc, Set.mem_Icc, ← heq, hhi, heq, hlo]
      exact and_comm
  · have hlo : (lo - origin) / delta ≤ t ↔ lo ≤ origin + t * delta := by
      rw [div_le_iff₀ hpos, sub_le_iff_le_add']
    have hhi : t ≤ (hi - origin) / delta ↔ origin + t * delta ≤ hi := by
      rw [le_div_iff₀ hpos, le_sub_iff_add_le']
    have horder : ¬ (hi - origin) / delta < (lo - origin) / delta :=
      not_lt.mpr (div_le_div_of_nonneg_right (sub_le_sub_right hle _) hpos.le)
    simp only [mul_one_div, sorted, span, if_neg horder]
    rw [Set.mem_Icc, Set.mem_Icc, hlo, hhi]

/-- **Key result**: clipping keeps exactly the parameters at which the line is in the slab. -/
theorem mem_clip {origin delta lo hi : K} (hdelta : delta ≠ 0) (hle : lo ≤ hi) (w : K × K) (t : K) :
    t ∈ span (clip origin delta lo hi w) ↔ t ∈ span w ∧ origin + t * delta ∈ Set.Icc lo hi := by
  rw [clip, span_inter, mem_crossed hdelta hle]

end Forge.Slab
