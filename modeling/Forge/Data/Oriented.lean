import Forge.Data.Numerals
import Mathlib.Algebra.BigOperators.Group.List.Lemmas
import Mathlib.Algebra.BigOperators.Ring.List
import Mathlib.Algebra.Module.Submodule.Defs
import Mathlib.Algebra.Module.LinearMap.Defs
import Mathlib.Algebra.Module.Pi
import Mathlib.Algebra.Field.Basic
import Mathlib.Algebra.CharZero.Defs
import Mathlib.Algebra.Ring.CharZero
import Mathlib.Data.List.Perm.Basic
import Mathlib.Tactic.Abel
import Mathlib.Tactic.LinearCombination

/-!
# Closed surfaces of oriented triangles

A surface is a list of triangles, and is closed when its directed edges together are the same as these edges reversed.
A quantity of triangles is a boundary when it is the sum, over the three edges, of a quantity of directed edges that
changes its sign with the direction. **`total_eq_zero`**: boundaries add up to nothing on a closed surface.

This is the rule of Stokes for sums over triangles: two quantities have the same total on every closed surface when
their difference is a boundary.
-/

namespace Forge.Oriented

variable {V K : Type*}

/-- The directed edges of a triangle. -/
def edges (t : V × V × V) : List (V × V) := [(t.1, t.2.1), (t.2.1, t.2.2), (t.2.2, t.1)]

/-- The directed edges of a surface. -/
def allEdges (ts : List (V × V × V)) : List (V × V) := ts.flatMap edges

/-- Every directed edge comes with its reverse, as often. -/
def Closed (ts : List (V × V × V)) : Prop := (allEdges ts).Perm ((allEdges ts).map Prod.swap)

instance [DecidableEq V] (ts : List (V × V × V)) : Decidable (Closed ts) :=
  inferInstanceAs (Decidable ((allEdges ts).Perm ((allEdges ts).map Prod.swap)))

/-- It suffices that every directed edge has exactly one reverse. -/
theorem closed_of_count [DecidableEq V] {ts : List (V × V × V)}
    (h : ∀ e ∈ allEdges ts, (allEdges ts).count e.swap = 1) : Closed ts := by
  have hswap (e : V × V) : e ∈ allEdges ts → e.swap ∈ allEdges ts := fun he =>
    List.count_pos_iff.mp (by rw [h e he]; exact Nat.one_pos)
  have hone (e : V × V) (he : e ∈ allEdges ts) : (allEdges ts).count e = 1 := by
    have := h e.swap (hswap e he)
    rwa [Prod.swap_swap] at this
  have hnodup : (allEdges ts).Nodup := List.nodup_iff_count_le_one.mpr fun e => by
    by_cases he : e ∈ allEdges ts
    · exact (hone e he).le
    · rw [List.count_eq_zero_of_not_mem he]
      exact Nat.zero_le 1
  refine (List.perm_ext_iff_of_nodup hnodup (hnodup.map Prod.swap_injective)).mpr fun e => ?_
  rw [List.mem_map]
  constructor
  · intro he
    exact ⟨e.swap, hswap e he, Prod.swap_swap e⟩
  · rintro ⟨e, he, rfl⟩
    exact hswap e he

/-! ### Totals and boundaries -/

variable [Field K]

/-- The sum of a quantity over the triangles. -/
def total (ts : List (V × V × V)) : (V × V × V → K) →ₗ[K] K where
  toFun E := (ts.map E).sum
  map_add' _ _ := List.sum_map_add
  map_smul' c E := List.sum_map_mul_left ts E c

theorem total_apply (ts : List (V × V × V)) (E : V × V × V → K) : total ts E = (ts.map E).sum := rfl

/-- The quantities that a quantity of directed edges gives. -/
def boundaries (V K : Type*) [Field K] : Submodule K (V × V × V → K) where
  carrier := {E | ∃ h : V → V → K, (∀ p q, h q p = -h p q) ∧ ∀ a b c, E (a, b, c) = h a b + h b c + h c a}
  zero_mem' := ⟨fun _ _ => 0, by simp, by simp⟩
  add_mem' := by
    rintro E F ⟨h, hh, hE⟩ ⟨h', hh', hF⟩
    refine ⟨fun p q => h p q + h' p q, fun p q => ?_, fun a b c => ?_⟩
    · dsimp only
      rw [hh, hh', neg_add]
    · rw [Pi.add_apply, hE, hF]
      dsimp only
      abel
  smul_mem' := by
    rintro k E ⟨h, hh, hE⟩
    refine ⟨fun p q => k * h p q, fun p q => ?_, fun a b c => ?_⟩
    · dsimp only
      rw [hh, mul_neg]
    · rw [Pi.smul_apply, hE, smul_eq_mul, mul_add, mul_add]

/-- The total of a boundary is the sum over the directed edges. -/
theorem sum_allEdges (ts : List (V × V × V)) (h : V → V → K) :
    ((allEdges ts).map fun e => h e.1 e.2).sum = total ts fun t => h t.1 t.2.1 + h t.2.1 t.2.2 + h t.2.2 t.1 := by
  rw [allEdges, List.map_flatMap, total_apply]
  induction ts with
  | nil => rfl
  | cons t ts ih =>
    rw [List.flatMap_cons, List.sum_append, ih, List.map_cons, List.sum_cons]
    simp [edges, add_assoc]

/-- **Key result**: on a closed surface a boundary has no total. -/
theorem total_eq_zero [CharZero K] {ts : List (V × V × V)} (hclosed : Closed ts) {E : V × V × V → K}
    (hE : E ∈ boundaries V K) : total ts E = 0 := by
  obtain ⟨h, hh, hE⟩ := hE
  have hsum := sum_allEdges ts h
  have hswap := (hclosed.map fun e => h e.1 e.2).sum_eq
  rw [List.map_map] at hswap
  have hneg : ((allEdges ts).map ((fun e => h e.1 e.2) ∘ Prod.swap)).sum =
      -((allEdges ts).map fun e => h e.1 e.2).sum := by
    rw [List.sum_neg, List.map_map]
    exact congrArg List.sum (List.map_congr_left fun e _ => hh e.1 e.2)
  have hzero : ((allEdges ts).map fun e => h e.1 e.2).sum = 0 := self_eq_neg.mp (hswap.trans hneg)
  have hfun : E = fun t => h t.1 t.2.1 + h t.2.1 t.2.2 + h t.2.2 t.1 := funext fun t => hE t.1 t.2.1 t.2.2
  rw [hfun, ← hsum, hzero]

/-- Quantities that differ by a boundary have one total. -/
theorem total_congr [CharZero K] {ts : List (V × V × V)} (hclosed : Closed ts) {E F : V × V × V → K}
    (h : E - F ∈ boundaries V K) : total ts E = total ts F := by
  rw [← sub_eq_zero, ← map_sub]
  exact total_eq_zero hclosed h

end Forge.Oriented
