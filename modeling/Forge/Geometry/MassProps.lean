import Forge.Contract.Model
import Forge.Data.Oriented
import Mathlib.Algebra.Module.Submodule.Basic
import Mathlib.Algebra.Order.Field.Rat
import Mathlib.Data.Fin.VecNotation
import Mathlib.Tactic.FinCases
import Mathlib.Tactic.Linarith
import Mathlib.Tactic.NormNum
import Mathlib.Tactic.Ring

/-!
# Mass properties

Volume, centre of mass and inertia of a mesh (`massprops.rs`), by sums over its triangles, in exact arithmetic.

The **key result** is `compute_laws`: on a closed mesh the volume does not depend on where the mesh is, the centre of
mass moves along with it, and the inertia about that centre stays; the sums of two meshes in one buffer add; and
turning all triangles around negates volume and inertia.

Each of the ten sums of a moved mesh is a combination of the sums before the move, up to terms that are boundaries:
what they add up to on the triangles can be read from the directed edges, and cancels.
-/

namespace Forge.Geometry.MassProps

open Contract (Arr3)
open Oriented

/-! ### Meshes -/

/-- Flat buffers: three coordinates for each vertex, three vertices for each triangle. -/
structure Mesh (K : Type) where
  positions : List K
  indices : List ℕ
  wholeVertices : 3 ∣ positions.length
  wholeTriangles : 3 ∣ indices.length
  inRange : ∀ i ∈ indices, 3 * i + 2 < positions.length

/-- `chunks_exact(3)` -/
def chunks : List ℕ → List (ℕ × ℕ × ℕ)
  | a :: b :: c :: rest => (a, b, c) :: chunks rest
  | _ => []

section

variable {K : Type}

/-- The vertex at an index of the buffer. -/
def vertexAt [Zero K] (positions : List K) (i : ℕ) : Arr3 K :=
  ⟨positions.getD (i * 3) 0, positions.getD (i * 3 + 1) 0, positions.getD (i * 3 + 2) 0⟩

/-- The triangles of the mesh, as points. -/
def Mesh.triangles [Zero K] (mesh : Mesh K) : List (Arr3 K × Arr3 K × Arr3 K) :=
  (chunks mesh.indices).map fun t =>
    (vertexAt mesh.positions t.1, vertexAt mesh.positions t.2.1, vertexAt mesh.positions t.2.2)

/-! ### The sums -/

structure SubExpressions (K : Type) where
  f1 : K
  f2 : K
  f3 : K
  g0 : K
  g1 : K
  g2 : K

variable [Field K]

/-- `sub_expressions` -/
def subExpressions (w0 w1 w2 : K) : SubExpressions K :=
  let temp0 := w0 + w1
  let f1 := temp0 + w2
  let temp1 := w0 * w0
  let temp2 := temp1 + w1 * temp0
  let f2 := temp2 + w2 * f1
  { f1
    f2
    f3 := w0 * temp1 + w1 * temp2 + w2 * f2
    g0 := f2 + w0 * (f1 + w0)
    g1 := f2 + w1 * (f1 + w1)
    g2 := f2 + w2 * (f1 + w2) }

/-- What a triangle adds to the ten sums. -/
def contribution : Arr3 K × Arr3 K × Arr3 K → Fin 10 → K
  | (⟨x0, y0, z0⟩, ⟨x1, y1, z1⟩, ⟨x2, y2, z2⟩) =>
    let a1 := x1 - x0
    let b1 := y1 - y0
    let c1 := z1 - z0
    let a2 := x2 - x0
    let b2 := y2 - y0
    let c2 := z2 - z0
    let d0 := b1 * c2 - b2 * c1
    let d1 := a2 * c1 - a1 * c2
    let d2 := a1 * b2 - a2 * b1
    let x := subExpressions x0 x1 x2
    let y := subExpressions y0 y1 y2
    let z := subExpressions z0 z1 z2
    ![d0 * x.f1, d0 * x.f2, d1 * y.f2, d2 * z.f2, d0 * x.f3, d1 * y.f3, d2 * z.f3,
      d0 * (y0 * x.g0 + y1 * x.g1 + y2 * x.g2), d1 * (z0 * y.g0 + z1 * y.g1 + z2 * y.g2),
      d2 * (x0 * z.g0 + x1 * z.g1 + x2 * z.g2)]

/-- `K` -/
def scale : Fin 10 → K :=
  ![1 / 6, 1 / 24, 1 / 24, 1 / 24, 1 / 60, 1 / 60, 1 / 60, 1 / 120, 1 / 120, 1 / 120]

/-- `intg` -/
def integrals (mesh : Mesh K) : Fin 10 → K :=
  (mesh.triangles.foldl (fun intg t => intg + contribution t) 0) * scale

/-! ### Properties -/

/-- About the centre of mass, for unit density. -/
structure Inertia (K : Type) where
  ixx : K
  iyy : K
  izz : K
  ixy : K
  iyz : K
  ixz : K
deriving DecidableEq

structure MassProperties (K : Type) where
  volume : K
  com : Arr3 K
  inertiaUnitDensity : Inertia K
deriving DecidableEq

variable [LinearOrder K]

/-- The centre of mass, from the volume and the first moments; the origin where there is no volume. -/
def centre (intg : Fin 10 → K) : Arr3 K :=
  if 1 / 10 ^ 30 < |intg 0| then ⟨intg 1 / intg 0, intg 2 / intg 0, intg 3 / intg 0⟩ else ⟨0, 0, 0⟩

/-- The inertia about a centre, by the theorem of parallel axes. -/
def inertiaAbout (intg : Fin 10 → K) (com : Arr3 K) : Inertia K :=
  let m := intg 0
  { ixx := intg 5 + intg 6 - m * (com.y * com.y + com.z * com.z)
    iyy := intg 4 + intg 6 - m * (com.x * com.x + com.z * com.z)
    izz := intg 4 + intg 5 - m * (com.x * com.x + com.y * com.y)
    ixy := -intg 7 + m * com.x * com.y
    iyz := -intg 8 + m * com.y * com.z
    ixz := -intg 9 + m * com.x * com.z }

/-- `compute` -/
def compute (mesh : Mesh K) : MassProperties K where
  volume := integrals mesh 0
  com := centre (integrals mesh)
  inertiaUnitDensity := inertiaAbout (integrals mesh) (centre (integrals mesh))

end

/-! ### Boundaries -/

section

variable {V K : Type} [Field K] (x y z : V → K)

/-- Twice the area of a triangle that is projected along an axis; `y` and `z` are the other two coordinates. -/
def area (t : V × V × V) : K := (y t.2.1 - y t.1) * (z t.2.2 - z t.1) - (y t.2.2 - y t.1) * (z t.2.1 - z t.1)

/-- The sum of a coordinate over the vertices. -/
def sumOf (t : V × V × V) : K := x t.1 + x t.2.1 + x t.2.2

/-- The sum of the products of a coordinate, over all pairs of vertices. -/
def squares (t : V × V × V) : K :=
  x t.1 * x t.1 + x t.2.1 * x t.2.1 + x t.2.2 * x t.2.2 + x t.1 * x t.2.1 + x t.2.1 * x t.2.2 + x t.2.2 * x t.1

/-- The sum of the products of a coordinate, over all triples of vertices. -/
def cubes (t : V × V × V) : K := (subExpressions (x t.1) (x t.2.1) (x t.2.2)).f3

/-- The sum of the products of twice a coordinate and once another. -/
def products (t : V × V × V) : K :=
  let w := subExpressions (x t.1) (x t.2.1) (x t.2.2)
  y t.1 * w.g0 + y t.2.1 * w.g1 + y t.2.2 * w.g2

/-- Twelve times the mean of the product of two coordinates over the triangle. -/
def mixed (t : V × V × V) : K :=
  y t.1 * (sumOf x t + x t.1) + y t.2.1 * (sumOf x t + x t.2.1) + y t.2.2 * (sumOf x t + x t.2.2)

theorem area_mem : area y z ∈ boundaries V K :=
  ⟨fun p q => y p * z q - y q * z p, fun p q => by ring, fun a b c => by simp only [area]; ring⟩

theorem area_mul_sumOf_mem : area y z * sumOf y ∈ boundaries V K :=
  ⟨fun p q => (z q - z p) * (y p * y p + y p * y q + y q * y q), fun p q => by ring, fun a b c => by
    simp only [Pi.mul_apply, area, sumOf]
    ring⟩

/-- Both are the volume below the surface, along two axes. -/
theorem volume_sub_mem : area y z * sumOf x - area z x * sumOf y ∈ boundaries V K :=
  ⟨fun p q => (z q - z p) * (2 * (x p * y p) + 2 * (x q * y q) + x p * y q + x q * y p), fun p q => by ring,
    fun a b c => by
      simp only [Pi.sub_apply, Pi.mul_apply, area, sumOf]
      ring⟩

/-- Both are a first moment, along two axes. -/
theorem moment_sub_mem : area y z * mixed x y - area z x * squares y ∈ boundaries V K :=
  ⟨fun p q => (z q - z p) * (x p * (3 * (y p * y p) + 2 * (y p * y q) + y q * y q) +
      x q * (y p * y p + 2 * (y p * y q) + 3 * (y q * y q))), fun p q => by ring, fun a b c => by
    simp only [Pi.sub_apply, Pi.mul_apply, area, mixed, sumOf, squares]
    ring⟩

section

variable {ts : List (V × V × V)} (hclosed : Closed ts) [CharZero K] (a b c : K)
include hclosed

theorem total_volume_eq : total ts (area z x * sumOf y) = total ts (area y z * sumOf x) :=
  (total_congr hclosed (volume_sub_mem x y z)).symm

/-- The volume of a moved surface. -/
theorem total_sumOf : total ts (area (y · + b) (z · + c) * sumOf (x · + a)) = total ts (area y z * sumOf x) := by
  refine total_congr hclosed ?_
  have heq : area (y · + b) (z · + c) * sumOf (x · + a) - area y z * sumOf x = (3 * a) • area y z := by
    funext t
    simp only [Pi.sub_apply, Pi.mul_apply, Pi.smul_apply, smul_eq_mul, area, sumOf]
    ring
  rw [heq]
  exact Submodule.smul_mem _ _ (area_mem y z)

/-- The first moment of a moved surface. -/
theorem total_squares : total ts (area (y · + b) (z · + c) * squares (x · + a)) =
    total ts (area y z * squares x) + 4 * a * total ts (area y z * sumOf x) := by
  have heq : area (y · + b) (z · + c) * squares (x · + a) - (area y z * squares x + (4 * a) • (area y z * sumOf x)) =
      (6 * a ^ 2) • area y z := by
    funext t
    simp only [Pi.sub_apply, Pi.add_apply, Pi.mul_apply, Pi.smul_apply, smul_eq_mul, area, sumOf, squares]
    ring
  rw [total_congr hclosed (heq ▸ Submodule.smul_mem _ _ (area_mem y z)), map_add, map_smul, smul_eq_mul]

/-- The second moment of a moved surface. -/
theorem total_cubes : total ts (area (y · + b) (z · + c) * cubes (x · + a)) =
    total ts (area y z * cubes x) + 5 * a * total ts (area y z * squares x) +
      10 * a ^ 2 * total ts (area y z * sumOf x) := by
  have heq : area (y · + b) (z · + c) * cubes (x · + a) -
      (area y z * cubes x + (5 * a) • (area y z * squares x) + (10 * a ^ 2) • (area y z * sumOf x)) =
      (10 * a ^ 3) • area y z := by
    funext t
    simp only [Pi.sub_apply, Pi.add_apply, Pi.mul_apply, Pi.smul_apply, smul_eq_mul, area, sumOf, squares, cubes,
      subExpressions]
    ring
  rw [total_congr hclosed (heq ▸ Submodule.smul_mem _ _ (area_mem y z)), map_add, map_add, map_smul, map_smul,
    smul_eq_mul, smul_eq_mul]

/-- The mixed moment of a moved surface. -/
theorem total_products : total ts (area (y · + b) (z · + c) * products (x · + a) (y · + b)) =
    total ts (area y z * products x y) + 5 * b * total ts (area y z * squares x) +
      5 * a * total ts (area z x * squares y) + 20 * a * b * total ts (area y z * sumOf x) := by
  have heq : area (y · + b) (z · + c) * products (x · + a) (y · + b) - (area y z * products x y +
      (5 * b) • (area y z * squares x) + (5 * a) • (area z x * squares y) +
      (20 * a * b) • (area y z * sumOf x)) =
      (5 * a) • (area y z * mixed x y - area z x * squares y) + (10 * a ^ 2) • (area y z * sumOf y) +
        (30 * a ^ 2 * b) • area y z := by
    funext t
    simp only [Pi.sub_apply, Pi.add_apply, Pi.mul_apply, Pi.smul_apply, smul_eq_mul, area, sumOf, squares, mixed,
      products, subExpressions]
    ring
  have hmem := add_mem (add_mem (Submodule.smul_mem _ (5 * a) (moment_sub_mem x y z))
    (Submodule.smul_mem _ (10 * a ^ 2) (area_mul_sumOf_mem y z))) (Submodule.smul_mem _ (30 * a ^ 2 * b) (area_mem y z))
  rw [total_congr hclosed (heq ▸ hmem)]
  simp only [map_add, map_smul, smul_eq_mul]

end

end

/-! ### Moving a mesh -/

section

variable {K : Type} [Field K]

def move (v p : Arr3 K) : Arr3 K := ⟨p.x + v.x, p.y + v.y, p.z + v.z⟩

/-- The triangle, moved by `v`. -/
def moveTriangle (v : Arr3 K) (t : Arr3 K × Arr3 K × Arr3 K) : Arr3 K × Arr3 K × Arr3 K :=
  (move v t.1, move v t.2.1, move v t.2.2)

/-- The coordinate of `v` that belongs to a place of the buffer. -/
def coordinateAt (v : Arr3 K) (i : ℕ) : K := if i % 3 = 0 then v.x else if i % 3 = 1 then v.y else v.z

/-- The mesh, moved by `v`. -/
def Mesh.translate (v : Arr3 K) (mesh : Mesh K) : Mesh K where
  positions := mesh.positions.mapIdx fun i c => c + coordinateAt v i
  indices := mesh.indices
  wholeVertices := by rw [List.length_mapIdx]; exact mesh.wholeVertices
  wholeTriangles := mesh.wholeTriangles
  inRange i hi := by rw [List.length_mapIdx]; exact mesh.inRange i hi

theorem vertexAt_translate {positions : List K} {i : ℕ} (v : Arr3 K) (hi : 3 * i + 2 < positions.length) :
    vertexAt (positions.mapIdx fun i c => c + coordinateAt v i) i = move v (vertexAt positions i) := by
  have hat (j : ℕ) (hj : j < positions.length) :
      (positions.mapIdx fun i c => c + coordinateAt v i).getD j 0 = positions.getD j 0 + coordinateAt v j := by
    simp [List.getD_eq_getElem?_getD, List.getElem?_eq_getElem hj]
  rw [vertexAt, hat _ (by omega), hat _ (by omega), hat _ (by omega), vertexAt, move]
  simp [coordinateAt, Nat.add_mod]

theorem mem_of_mem_chunks {l : List ℕ} {t : ℕ × ℕ × ℕ} (ht : t ∈ chunks l) : t.1 ∈ l ∧ t.2.1 ∈ l ∧ t.2.2 ∈ l := by
  fun_induction chunks l with
  | case1 a b c rest ih =>
    rcases List.mem_cons.mp ht with rfl | ht
    · simp
    · obtain ⟨h1, h2, h3⟩ := ih ht
      simp [h1, h2, h3]
  | case2 => cases ht

theorem triangles_translate (v : Arr3 K) (mesh : Mesh K) :
    (mesh.translate v).triangles = mesh.triangles.map (moveTriangle v) := by
  rw [Mesh.triangles, Mesh.triangles, List.map_map]
  refine List.map_congr_left fun t ht => ?_
  obtain ⟨h1, h2, h3⟩ := mem_of_mem_chunks ht
  simp only [Mesh.translate, Function.comp, moveTriangle, vertexAt_translate v (mesh.inRange _ h1),
    vertexAt_translate v (mesh.inRange _ h2), vertexAt_translate v (mesh.inRange _ h3)]

/-- One of the ten quantities of a triangle. -/
def part (k : Fin 10) (t : Arr3 K × Arr3 K × Arr3 K) : K := contribution t k

/-- The quantity of the moved triangle. -/
def movedPart (v : Arr3 K) (k : Fin 10) (t : Arr3 K × Arr3 K × Arr3 K) : K := contribution (moveTriangle v t) k

theorem foldl_add_eq_total (ts : List (Arr3 K × Arr3 K × Arr3 K)) (k : Fin 10) (intg : Fin 10 → K) :
    ts.foldl (fun intg t => intg + contribution t) intg k = intg k + total ts (part k) := by
  induction ts generalizing intg with
  | nil => exact (add_zero _).symm
  | cons t ts ih =>
    rw [List.foldl_cons, ih, Pi.add_apply, add_assoc]
    rfl

theorem integrals_apply (mesh : Mesh K) (k : Fin 10) : integrals mesh k = total mesh.triangles (part k) * scale k := by
  rw [integrals, Pi.mul_apply, foldl_add_eq_total, Pi.zero_apply, zero_add]

theorem integrals_translate (v : Arr3 K) (mesh : Mesh K) (k : Fin 10) :
    integrals (mesh.translate v) k = total mesh.triangles (movedPart v k) * scale k := by
  rw [integrals_apply, triangles_translate, total_apply, List.map_map]
  rfl

/-! ### The ten quantities -/

/-- The ten quantities of a triangle, by its coordinates. -/
def quantity {V : Type} (x y z : V → K) : Fin 10 → V × V × V → K :=
  ![area y z * sumOf x, area y z * squares x, area z x * squares y, area x y * squares z, area y z * cubes x,
    area z x * cubes y, area x y * cubes z, area y z * products x y, area z x * products y z, area x y * products z x]

theorem contribution_eq (t : Arr3 K × Arr3 K × Arr3 K) (k : Fin 10) :
    contribution t k = quantity Arr3.x Arr3.y Arr3.z k t := by
  obtain ⟨⟨x0, y0, z0⟩, ⟨x1, y1, z1⟩, ⟨x2, y2, z2⟩⟩ := t
  fin_cases k <;>
    simp only [Fin.reduceFinMk, contribution, quantity, Matrix.cons_val, Pi.mul_apply, area, sumOf, squares, cubes,
      products, subExpressions] <;> ring

theorem part_eq (k : Fin 10) : part k = quantity (K := K) Arr3.x Arr3.y Arr3.z k := funext fun t => contribution_eq t k

theorem movedPart_eq (v : Arr3 K) (k : Fin 10) :
    movedPart v k = quantity (fun p : Arr3 K => p.x + v.x) (fun p => p.y + v.y) (fun p => p.z + v.z) k := by
  funext t
  rw [movedPart, contribution_eq]
  fin_cases k <;> rfl

/-- How the ten sums of a mesh change when it is moved by `v`. -/
structure Moved (v : Arr3 K) (intg intg' : Fin 10 → K) : Prop where
  volume : intg' 0 = intg 0
  x : intg' 1 = intg 1 + v.x * intg 0
  y : intg' 2 = intg 2 + v.y * intg 0
  z : intg' 3 = intg 3 + v.z * intg 0
  xx : intg' 4 = intg 4 + 2 * v.x * intg 1 + v.x ^ 2 * intg 0
  yy : intg' 5 = intg 5 + 2 * v.y * intg 2 + v.y ^ 2 * intg 0
  zz : intg' 6 = intg 6 + 2 * v.z * intg 3 + v.z ^ 2 * intg 0
  xy : intg' 7 = intg 7 + v.y * intg 1 + v.x * intg 2 + v.x * v.y * intg 0
  yz : intg' 8 = intg 8 + v.z * intg 2 + v.y * intg 3 + v.y * v.z * intg 0
  zx : intg' 9 = intg 9 + v.x * intg 3 + v.z * intg 1 + v.z * v.x * intg 0

theorem moved_integrals [CharZero K] {mesh : Mesh K} (hclosed : Closed mesh.triangles) (v : Arr3 K) :
    Moved v (integrals mesh) (integrals (mesh.translate v)) := by
  have hy := total_volume_eq Arr3.x Arr3.y Arr3.z hclosed
  have hz := (total_volume_eq Arr3.y Arr3.z Arr3.x hclosed).trans hy
  constructor
  all_goals rw [integrals_translate]
  all_goals simp only [integrals_apply, movedPart_eq, part_eq, quantity, scale, Matrix.cons_val]
  · rw [total_sumOf _ _ _ hclosed]
  · rw [total_squares _ _ _ hclosed]
    ring
  · rw [total_squares _ _ _ hclosed, hy]
    ring
  · rw [total_squares _ _ _ hclosed, hz]
    ring
  · rw [total_cubes _ _ _ hclosed]
    ring
  · rw [total_cubes _ _ _ hclosed, hy]
    ring
  · rw [total_cubes _ _ _ hclosed, hz]
    ring
  · rw [total_products _ _ _ hclosed]
    ring
  · rw [total_products _ _ _ hclosed, hy]
    ring
  · rw [total_products _ _ _ hclosed, hz]
    ring

end

/-! ### What the moved sums give -/

section

variable {K : Type} [Field K] [LinearOrder K] [IsStrictOrderedRing K] {intg intg' : Fin 10 → K} {v : Arr3 K}

theorem Moved.centre_eq (h : Moved v intg intg') (hvolume : 1 / 10 ^ 30 < |intg 0|) :
    centre intg' = move v (centre intg) := by
  have hne : intg 0 ≠ 0 := by
    intro h0
    rw [h0, abs_zero] at hvolume
    exact absurd hvolume (not_lt.mpr (by positivity))
  rw [centre, centre, h.volume, if_pos hvolume, if_pos hvolume, h.x, h.y, h.z, move, add_div, add_div, add_div,
    mul_div_cancel_right₀ _ hne, mul_div_cancel_right₀ _ hne, mul_div_cancel_right₀ _ hne]

/-- The first moments are the volume times the centre of mass. -/
theorem centre_mul (hvolume : 1 / 10 ^ 30 < |intg 0|) :
    intg 1 = intg 0 * (centre intg).x ∧ intg 2 = intg 0 * (centre intg).y ∧ intg 3 = intg 0 * (centre intg).z := by
  have hne : intg 0 ≠ 0 := by
    intro h0
    rw [h0, abs_zero] at hvolume
    exact absurd hvolume (not_lt.mpr (by positivity))
  rw [centre, if_pos hvolume]
  exact ⟨(mul_div_cancel₀ _ hne).symm, (mul_div_cancel₀ _ hne).symm, (mul_div_cancel₀ _ hne).symm⟩

/-- The inertia about the centre of mass does not change. -/
theorem Moved.inertia_eq (h : Moved v intg intg') (hvolume : 1 / 10 ^ 30 < |intg 0|) :
    inertiaAbout intg' (centre intg') = inertiaAbout intg (centre intg) := by
  obtain ⟨hx, hy, hz⟩ := centre_mul hvolume
  rw [h.centre_eq hvolume]
  simp only [inertiaAbout, move, h.volume, h.xx, h.yy, h.zz, h.xy, h.yz, h.zx, hx, hy, hz, Inertia.mk.injEq]
  refine ⟨by ring, by ring, by ring, by ring, by ring, by ring⟩

end

/-! ### Two meshes in one buffer -/

theorem chunks_append {l : List ℕ} (hl : 3 ∣ l.length) (l' : List ℕ) : chunks (l ++ l') = chunks l ++ chunks l' := by
  fun_induction chunks l with
  | case1 a b c rest ih =>
    have hrest : 3 ∣ rest.length := by
      simp only [List.length_cons] at hl
      omega
    rw [List.cons_append, List.cons_append, List.cons_append, chunks, ih hrest, List.cons_append]
  | case2 l hshort =>
    match l, hshort, hl with
    | [], _, _ => rfl
    | [_], _, hl => simp at hl
    | [_, _], _, hl => simp at hl
    | a :: b :: c :: rest, hshort, _ => exact absurd rfl (hshort a b c rest)

theorem chunks_map (f : ℕ → ℕ) (l : List ℕ) :
    chunks (l.map f) = (chunks l).map fun t => (f t.1, f t.2.1, f t.2.2) := by
  fun_induction chunks l with
  | case1 a b c rest ih => rw [List.map_cons, List.map_cons, List.map_cons, chunks, ih, List.map_cons]
  | case2 l hshort =>
    match l, hshort with
    | [], _ => rfl
    | [_], _ => rfl
    | [_, _], _ => rfl
    | a :: b :: c :: rest, hshort => exact absurd rfl (hshort a b c rest)

section

variable {K : Type}

/-- Two meshes in one buffer: the vertices of the second come after those of the first. -/
def Mesh.append (a b : Mesh K) : Mesh K where
  positions := a.positions ++ b.positions
  indices := a.indices ++ b.indices.map (· + a.positions.length / 3)
  wholeVertices := by
    rw [List.length_append]
    exact Nat.dvd_add a.wholeVertices b.wholeVertices
  wholeTriangles := by
    rw [List.length_append, List.length_map]
    exact Nat.dvd_add a.wholeTriangles b.wholeTriangles
  inRange i hi := by
    have hwhole := a.wholeVertices
    rw [List.length_append]
    rcases List.mem_append.mp hi with hi | hi
    · have := a.inRange i hi
      omega
    · obtain ⟨j, hj, rfl⟩ := List.mem_map.mp hi
      have := b.inRange j hj
      omega

variable [Field K]

theorem triangles_append (a b : Mesh K) : (a.append b).triangles = a.triangles ++ b.triangles := by
  have hleft {i : ℕ} (hi : i ∈ a.indices) : vertexAt (a.positions ++ b.positions) i = vertexAt a.positions i := by
    have hlen := a.inRange i hi
    simp only [vertexAt, List.getD_eq_getElem?_getD]
    rw [List.getElem?_append_left (by omega), List.getElem?_append_left (by omega),
      List.getElem?_append_left (by omega)]
  have hright (i : ℕ) : vertexAt (a.positions ++ b.positions) (i + a.positions.length / 3) =
      vertexAt b.positions i := by
    have hwhole := Nat.div_mul_cancel a.wholeVertices
    simp only [vertexAt, List.getD_eq_getElem?_getD]
    rw [List.getElem?_append_right (by omega), List.getElem?_append_right (by omega),
      List.getElem?_append_right (by omega)]
    congr 4 <;> omega
  rw [Mesh.triangles, Mesh.append, chunks_append a.wholeTriangles, chunks_map, List.map_append, List.map_map]
  congr 1
  · refine List.map_congr_left fun t ht => ?_
    obtain ⟨h1, h2, h3⟩ := mem_of_mem_chunks ht
    rw [hleft h1, hleft h2, hleft h3]
  · refine List.map_congr_left fun t _ => ?_
    simp only [Function.comp, hright]

/-- **The sums** of two meshes add. -/
theorem integrals_append (a b : Mesh K) (k : Fin 10) :
    integrals (a.append b) k = integrals a k + integrals b k := by
  rw [integrals_apply, integrals_apply, integrals_apply, triangles_append, total_apply, List.map_append,
    List.sum_append, add_mul]
  rfl

/-! ### Turning the triangles around -/

/-- The mesh with every triangle turned around. -/
def Mesh.reverse (mesh : Mesh K) : Mesh K where
  positions := mesh.positions
  indices := (chunks mesh.indices).flatMap fun t => [t.1, t.2.2, t.2.1]
  wholeVertices := mesh.wholeVertices
  wholeTriangles := by simp [List.length_flatMap]
  inRange i hi := by
    obtain ⟨t, ht, hi⟩ := List.mem_flatMap.mp hi
    obtain ⟨h1, h2, h3⟩ := mem_of_mem_chunks ht
    simp only [List.mem_cons, List.not_mem_nil, or_false] at hi
    rcases hi with rfl | rfl | rfl
    · exact mesh.inRange _ h1
    · exact mesh.inRange _ h3
    · exact mesh.inRange _ h2

theorem triangles_reverse (mesh : Mesh K) :
    mesh.reverse.triangles = mesh.triangles.map fun t => (t.1, t.2.2, t.2.1) := by
  have hchunks (ts : List (ℕ × ℕ × ℕ)) :
      chunks (ts.flatMap fun t => [t.1, t.2.2, t.2.1]) = ts.map fun t => (t.1, t.2.2, t.2.1) := by
    induction ts with
    | nil => rfl
    | cons t ts ih =>
      rw [List.flatMap_cons, List.map_cons, ← ih]
      rfl
  rw [Mesh.triangles, Mesh.reverse, hchunks, Mesh.triangles, List.map_map, List.map_map]
  rfl

theorem contribution_reverse (t : Arr3 K × Arr3 K × Arr3 K) (k : Fin 10) :
    contribution (t.1, t.2.2, t.2.1) k = -contribution t k := by
  rw [contribution_eq, contribution_eq]
  fin_cases k <;>
    simp only [Fin.reduceFinMk, quantity, Matrix.cons_val, Pi.mul_apply, area, sumOf, squares, cubes, products,
      subExpressions] <;> ring

/-- **The sums** of the reversed mesh are the negated sums. -/
theorem integrals_reverse (mesh : Mesh K) (k : Fin 10) : integrals mesh.reverse k = -integrals mesh k := by
  have hneg : total mesh.reverse.triangles (part k) = -total mesh.triangles (part k) := by
    rw [triangles_reverse, total_apply, total_apply, List.map_map, List.sum_neg, List.map_map]
    exact congrArg List.sum (List.map_congr_left fun t _ => contribution_reverse t k)
  rw [integrals_apply, integrals_apply, hneg, neg_mul]

def Inertia.neg (i : Inertia K) : Inertia K := ⟨-i.ixx, -i.iyy, -i.izz, -i.ixy, -i.iyz, -i.ixz⟩

variable [LinearOrder K]

theorem centre_neg {intg intg' : Fin 10 → K} (h : ∀ k, intg' k = -intg k) : centre intg' = centre intg := by
  simp only [centre, h, abs_neg, neg_div_neg_eq]

omit [LinearOrder K] in
theorem inertiaAbout_neg {intg intg' : Fin 10 → K} (h : ∀ k, intg' k = -intg k) (com : Arr3 K) :
    inertiaAbout intg' com = (inertiaAbout intg com).neg := by
  simp only [inertiaAbout, Inertia.neg, h, Inertia.mk.injEq]
  refine ⟨by ring, by ring, by ring, by ring, by ring, by ring⟩

end

/-! ### The laws -/

/-- The integrals of the three coordinates over the solid. -/
def firstMoments (mesh : Mesh ℚ) : Arr3 ℚ := ⟨integrals mesh 1, integrals mesh 2, integrals mesh 3⟩

/-- **Key result**: translation invariance, additivity and reversal of the mass properties. -/
theorem compute_laws :
    (∀ (mesh : Mesh ℚ) (v : Arr3 ℚ), Closed mesh.triangles →
      (compute (mesh.translate v)).volume = (compute mesh).volume ∧
        (1 / 10 ^ 30 < |(compute mesh).volume| →
          (compute (mesh.translate v)).com = move v (compute mesh).com ∧
            (compute (mesh.translate v)).inertiaUnitDensity = (compute mesh).inertiaUnitDensity)) ∧
    (∀ a b : Mesh ℚ, (compute (a.append b)).volume = (compute a).volume + (compute b).volume ∧
      firstMoments (a.append b) = move (firstMoments a) (firstMoments b)) ∧
    (∀ mesh : Mesh ℚ, 1 / 10 ^ 30 < |(compute mesh).volume| → firstMoments mesh =
      ⟨(compute mesh).volume * (compute mesh).com.x, (compute mesh).volume * (compute mesh).com.y,
        (compute mesh).volume * (compute mesh).com.z⟩) ∧
    ∀ mesh : Mesh ℚ, (compute mesh.reverse).volume = -(compute mesh).volume ∧
      (compute mesh.reverse).com = (compute mesh).com ∧
      (compute mesh.reverse).inertiaUnitDensity = (compute mesh).inertiaUnitDensity.neg := by
  refine ⟨fun mesh v hclosed => ?_, fun a b => ?_, fun mesh hvolume => ?_, fun mesh => ?_⟩
  · have hmoved := moved_integrals hclosed v
    exact ⟨hmoved.volume, fun hvolume => ⟨hmoved.centre_eq hvolume, hmoved.inertia_eq hvolume⟩⟩
  · refine ⟨integrals_append a b 0, ?_⟩
    simp only [firstMoments, move, integrals_append, add_comm]
  · obtain ⟨hx, hy, hz⟩ := centre_mul hvolume
    rw [firstMoments, hx, hy, hz]
    rfl
  · have hneg := integrals_reverse mesh
    refine ⟨hneg 0, centre_neg hneg, ?_⟩
    change inertiaAbout (integrals mesh.reverse) (centre (integrals mesh.reverse)) = _
    rw [centre_neg hneg, inertiaAbout_neg hneg]
    rfl

/-! ### A tetrahedron -/

/-- The corner of a box, cut off: a tetrahedron at the origin. -/
def tetrahedron (a b c : ℚ) : Mesh ℚ where
  positions := [0, 0, 0, a, 0, 0, 0, b, 0, 0, 0, c]
  indices := [0, 2, 1, 0, 1, 3, 0, 3, 2, 1, 2, 3]
  wholeVertices := by simp
  wholeTriangles := by decide
  inRange := by simp

theorem compute_laws_tetrahedron :
    (compute ((tetrahedron 1 1 1).translate ⟨1, 2, 3⟩)).volume = (compute (tetrahedron 1 1 1)).volume ∧
      (compute ((tetrahedron 1 1 1).translate ⟨1, 2, 3⟩)).com = move ⟨1, 2, 3⟩ (compute (tetrahedron 1 1 1)).com ∧
      (compute ((tetrahedron 1 1 1).translate ⟨1, 2, 3⟩)).inertiaUnitDensity =
        (compute (tetrahedron 1 1 1)).inertiaUnitDensity ∧
      firstMoments (tetrahedron 1 1 1) = ⟨(compute (tetrahedron 1 1 1)).volume * (compute (tetrahedron 1 1 1)).com.x,
        (compute (tetrahedron 1 1 1)).volume * (compute (tetrahedron 1 1 1)).com.y,
        (compute (tetrahedron 1 1 1)).volume * (compute (tetrahedron 1 1 1)).com.z⟩ := by
  have hclosed : Closed (tetrahedron 1 1 1).triangles := closed_of_count (by decide +kernel)
  have hvolume : 1 / 10 ^ 30 < |(compute (tetrahedron 1 1 1)).volume| := by decide +kernel
  obtain ⟨h, hmoved⟩ := compute_laws.1 (tetrahedron 1 1 1) ⟨1, 2, 3⟩ hclosed
  exact ⟨h, (hmoved hvolume).1, (hmoved hvolume).2, compute_laws.2.2.1 _ hvolume⟩

/-- A volume of exactly `1e-30` is taken for none, so that the centre of mass stays at the origin. -/
theorem com_stays_at_threshold :
    ¬ ∀ (mesh : Mesh ℚ) (v : Arr3 ℚ), Closed mesh.triangles → 1 / 10 ^ 30 ≤ (compute mesh).volume →
      (compute (mesh.translate v)).com = move v (compute mesh).com := by
  intro h
  have hcom := h (tetrahedron (1 / 10 ^ 10) (1 / 10 ^ 10) (6 / 10 ^ 10)) ⟨1, 0, 0⟩ (closed_of_count (by decide +kernel))
    (by decide +kernel)
  exact absurd hcom (by decide +kernel)

end Forge.Geometry.MassProps
