import Forge.Data.Numerals
import Mathlib.Data.Fin.VecNotation
import Mathlib.Data.List.Sort
import Mathlib.Data.Rat.Defs
import Mathlib.Algebra.Order.Ring.Rat

/-!
# Collision of triangles

The interval test for two triangles (`triTriIntersect`), the boxes around triangles, and the hierarchy of boxes over
the triangles of a part (`PartBvh`): an array of nodes, built by splitting an array of triangle numbers, and searched
with a stack of pairs of nodes. Coordinates are rational numbers, computed with exactly.
-/

namespace Forge.Geometry

abbrev Vec := Fin 3 → ℚ

abbrev Tri := Fin 3 → Vec

def sub (a b : Vec) : Vec := fun k => a k - b k

def cross (a b : Vec) : Vec := ![a 1 * b 2 - a 2 * b 1, a 2 * b 0 - a 0 * b 2, a 0 * b 1 - a 1 * b 0]

def dot (a b : Vec) : ℚ := a 0 * b 0 + a 1 * b 1 + a 2 * b 2

/-! ### The test for two triangles -/

/-- `EPS` -/
def eps : ℚ := 1 / 1000000000000

def normal (t : Tri) : Vec := cross (sub (t 1) (t 0)) (sub (t 2) (t 0))

/-- The values of the plane of `t` at the vertices of `u`. -/
def planeValues (t u : Tri) : Vec := fun k => dot (normal t) (u k) + -dot (normal t) (t 0)

/-- All three values are on one side. -/
def oneSide (dv : Vec) : Bool :=
  (eps < dv 0 && eps < dv 1 && eps < dv 2) || (dv 0 < -eps && dv 1 < -eps && dv 2 < -eps)

/-- The axis on which the direction is longest. -/
def dominantAxis (dir : Vec) : Fin 3 :=
  if |dir 1| ≤ |dir 0| ∧ |dir 2| ≤ |dir 0| then 0 else if |dir 2| ≤ |dir 1| then 1 else 2

/-- The vertex on one side, and the two on the other. -/
def pairing (dv : Vec) : Fin 3 × Fin 3 × Fin 3 :=
  if 0 < dv 0 * dv 1 then (2, 0, 1) else if 0 < dv 0 * dv 2 then (1, 0, 2) else (0, 1, 2)

def interval (p dv : Vec) : Option (ℚ × ℚ) :=
  let (solo, i, j) := pairing dv
  let denomI := dv i - dv solo
  let denomJ := dv j - dv solo
  if |denomI| ≤ eps ∨ |denomJ| ≤ eps then none
  else
    let tI := p i + (p solo - p i) * (dv i / denomI)
    let tJ := p j + (p solo - p j) * (dv j / denomJ)
    some (min tI tJ, max tI tJ)

def triTriIntersect (t1 t2 : Tri) : Bool :=
  let dv1 := planeValues t2 t1
  if oneSide dv1 then false
  else
    let dv2 := planeValues t1 t2
    if oneSide dv2 then false
    else if |dv1 0| ≤ eps ∧ |dv1 1| ≤ eps ∧ |dv1 2| ≤ eps then false
    else
      let axis := dominantAxis (cross (normal t1) (normal t2))
      match interval (fun k => t1 k axis) dv1, interval (fun k => t2 k axis) dv2 with
      | some (lo1, hi1), some (lo2, hi2) => max lo1 lo2 ≤ min hi1 hi2
      | _, _ => false

/-! ### Boxes -/

structure Aabb where
  min : Vec
  max : Vec

namespace Aabb

def ofTri (t : Tri) : Aabb where
  min k := Min.min (Min.min (t 0 k) (t 1 k)) (t 2 k)
  max k := Max.max (Max.max (t 0 k) (t 1 k)) (t 2 k)

def union (a o : Aabb) : Aabb where
  min k := Min.min (a.min k) (o.min k)
  max k := Max.max (a.max k) (o.max k)

def overlaps (a o : Aabb) : Bool := (List.finRange 3).all fun k => a.min k ≤ o.max k && o.min k ≤ a.max k

def longestAxis (a : Aabb) : Fin 3 :=
  let e : Vec := fun k => a.max k - a.min k
  if e 1 ≤ e 0 ∧ e 2 ≤ e 0 then 0 else if e 2 ≤ e 1 then 1 else 2

end Aabb

/-! ### The hierarchy -/

inductive BvhNode where
  | leaf (bounds : Aabb) (start count : ℕ)
  | branch (bounds : Aabb) (left right : ℕ)

def BvhNode.bounds : BvhNode → Aabb
  | leaf b _ _ => b
  | branch b _ _ => b

structure PartBvh where
  tris : List Tri
  order : List ℕ
  nodes : List BvhNode
  root : ℕ

/-- `LEAF_SIZE` -/
def leafSize : ℕ := 8

/-- `order[start..stop]` -/
def slice (order : List ℕ) (start stop : ℕ) : List ℕ := (order.drop start).take (stop - start)

/-- The union of the boxes with these numbers; there is none of no box, and none when a number is out of range. -/
def boundsOf (boxes : List Aabb) (numbers : List ℕ) : Option Aabb := do
  match ← numbers.mapM (boxes[·]?) with
  | [] => none
  | box :: rest => some (rest.foldl Aabb.union box)

/-- The mean of the vertices of a triangle on an axis. -/
def centroid (tris : List Tri) (axis : Fin 3) (i : ℕ) : ℚ :=
  match tris[i]? with
  | some t => (t 0 axis + t 1 axis + t 2 axis) / 3
  | none => 0

/-- `split`: the order, the nodes and the number of the node after it, unless it panics. -/
def split (tris : List Tri) (boxes : List Aabb) (order : List ℕ) (start stop : ℕ) (nodes : List BvhNode) :
    Option (List ℕ × List BvhNode × ℕ) := do
  let bounds ← boundsOf boxes (slice order start stop)
  if stop - start ≤ leafSize then
    some (order, nodes ++ [.leaf bounds start (stop - start)], nodes.length)
  else
    let axis := bounds.longestAxis
    let sorted := (slice order start stop).mergeSort fun a b => centroid tris axis a ≤ centroid tris axis b
    let mid := (start + stop) / 2
    let (order, nodes, left) ← split tris boxes (order.take start ++ sorted ++ order.drop stop) start mid nodes
    let (order, nodes, right) ← split tris boxes order mid stop nodes
    some (order, nodes ++ [.branch bounds left right], nodes.length)
termination_by stop - start
decreasing_by all_goals (simp only [leafSize] at *; omega)

/-- `build`, of the triangles of a mesh. -/
def PartBvh.build (tris : List Tri) : Option PartBvh := do
  let (order, nodes, root) ← split tris (tris.map Aabb.ofTri) (List.range tris.length) 0 tris.length []
  some { tris, order, nodes, root }

/-- Two triangles by their numbers. -/
def testAt (tris1 tris2 : List Tri) (i j : ℕ) : Bool :=
  match tris1[i]?, tris2[j]? with
  | some t1, some t2 => triTriIntersect t1 t2
  | _, _ => false

/-- The loop of `intersects`: at most `fuel` rounds from a stack of pairs of nodes. It gives nothing when it is not
over by then, or when it panics. -/
def PartBvh.search (p q : PartBvh) : ℕ → List (ℕ × ℕ) → Option Bool
  | _, [] => some false
  | 0, _ :: _ => none
  | fuel + 1, (a, b) :: stack =>
    match p.nodes[a]?, q.nodes[b]? with
    | some m, some n =>
      if m.bounds.overlaps n.bounds then
        match m, n with
        | .leaf _ start count, .leaf _ start' count' =>
          if (slice p.order start (start + count)).any fun i =>
              (slice q.order start' (start' + count')).any fun j => testAt p.tris q.tris i j then
            some true
          else search p q fuel stack
        | .branch _ left right, _ => search p q fuel ((right, b) :: (left, b) :: stack)
        | .leaf .., .branch _ left right => search p q fuel ((a, right) :: (a, left) :: stack)
      else search p q fuel stack
    | _, _ => none

/-- `intersects`; a round for each pair of nodes is enough (`search_eq`). -/
def PartBvh.intersects (p q : PartBvh) : Option Bool :=
  if p.tris = [] ∨ q.tris = [] then some false
  else p.search q (p.nodes.length * q.nodes.length) [(p.root, q.root)]

end Forge.Geometry
