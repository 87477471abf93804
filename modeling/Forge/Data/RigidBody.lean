import Forge.Data.Numerals
import Mathlib.Algebra.BigOperators.Group.List.Lemmas
import Mathlib.Algebra.BigOperators.Ring.List
import Mathlib.Tactic.FieldSimp
import Mathlib.Tactic.LinearCombination
import Mathlib.Tactic.Ring

/-!
# Rigid bodies

A body is given by its mass, its first moments and its moments of inertia about the three axes through the origin.
Bodies add up to a compound (`compound`).

**`about_eq`** is the theorem of parallel axes: about an axis through any point a body has its moment about the parallel
axis through its centre of mass, and that of its mass there. `sum_about_ofCentre` gives the moments of a compound from
those of its members about their own centres.
-/

namespace Forge

/-- The square of the distance between a point and an axis through the origin. -/
def offAxis {K : Type*} [Field K] (v : Fin 3 → K) (k : Fin 3) : K := v (k + 1) ^ 2 + v (k + 2) ^ 2

structure RigidBody (K : Type*) where
  mass : K
  first : Fin 3 → K
  /-- About the axes through the origin. -/
  moment : Fin 3 → K

namespace RigidBody

variable {K : Type*} [Field K]

/-- The body with this mass, this centre and these moments about its centre. -/
def ofCentre (mass : K) (centre moment : Fin 3 → K) : RigidBody K where
  mass
  first k := mass * centre k
  moment k := moment k + mass * offAxis centre k

/-- Several bodies as one. -/
def compound (bodies : List (RigidBody K)) : RigidBody K where
  mass := (bodies.map mass).sum
  first k := (bodies.map fun b => b.first k).sum
  moment k := (bodies.map fun b => b.moment k).sum

/-- The moment about an axis through the centre of mass. -/
def central (b : RigidBody K) (k : Fin 3) : K := b.moment k - offAxis b.first k / b.mass

/-- The moment about an axis through a point. -/
def about (b : RigidBody K) (p : Fin 3 → K) (k : Fin 3) : K :=
  b.moment k - 2 * (b.first (k + 1) * p (k + 1) + b.first (k + 2) * p (k + 2)) + b.mass * offAxis p k

theorem about_ofCentre (mass : K) (centre moment p : Fin 3 → K) (k : Fin 3) :
    (ofCentre mass centre moment).about p k = moment k + mass * offAxis (fun j => centre j - p j) k := by
  simp only [about, ofCentre, offAxis]
  ring

theorem about_compound (bodies : List (RigidBody K)) (p : Fin 3 → K) (k : Fin 3) :
    (compound bodies).about p k = (bodies.map fun b => b.about p k).sum := by
  induction bodies with
  | nil => simp [about, compound]
  | cons b bodies ih =>
    rw [List.map_cons, List.sum_cons, ← ih]
    simp only [about, compound, List.map_cons, List.sum_cons]
    ring

/-- **The theorem of parallel axes.** -/
theorem about_eq {b : RigidBody K} (hb : b.mass ≠ 0) (p : Fin 3 → K) (k : Fin 3) :
    b.about p k = b.central k + b.mass * offAxis (fun j => b.first j / b.mass - p j) k := by
  simp only [about, central, offAxis]
  field_simp
  ring

/-- **The moments of a compound** about its centre of mass. -/
theorem sum_about_ofCentre {ι : Type*} (members : List ι) (mass : ι → K) (centre moment : ι → Fin 3 → K)
    (hmass : (members.map mass).sum ≠ 0) (k : Fin 3) :
    (members.map fun i => moment i k + mass i * offAxis (fun j => centre i j -
      (members.map fun i => mass i * centre i j).sum / (members.map mass).sum) k).sum =
      (compound (members.map fun i => ofCentre (mass i) (centre i) (moment i))).central k := by
  have hcompound : (compound (members.map fun i => ofCentre (mass i) (centre i) (moment i))).mass =
      (members.map mass).sum := by
    simp only [compound, List.map_map]
    rfl
  have habout := about_eq (hcompound.trans_ne hmass) (fun j =>
    (members.map fun i => mass i * centre i j).sum / (members.map mass).sum) k
  have hzero : (fun j => (compound (members.map fun i => ofCentre (mass i) (centre i) (moment i))).first j /
      (compound (members.map fun i => ofCentre (mass i) (centre i) (moment i))).mass -
      (members.map fun i => mass i * centre i j).sum / (members.map mass).sum) = fun _ => 0 := by
    funext j
    rw [hcompound, sub_eq_zero]
    simp only [compound, List.map_map]
    rfl
  rw [hzero, about_compound, List.map_map] at habout
  have hnone : offAxis (fun _ => (0 : K)) k = 0 := by simp [offAxis]
  rw [hnone, mul_zero, add_zero] at habout
  rw [← habout]
  exact congrArg List.sum (List.map_congr_left fun i _ => (about_ofCentre _ _ _ _ _).symm)

end RigidBody

end Forge
