import Forge.Geometry.Pose

/-!
# Transforms in doubles

The transforms of `forge-geometry` as they are computed: sixteen doubles, column by column. The transcendental
functions of `forge_num` are parameters (`ForgeNum`).
-/

namespace Forge.Geometry

open Contract

/-- `forge_num` -/
structure ForgeNum where
  sin : Float → Float
  cos : Float → Float
  pow : Float → Float → Float

/-- `[f64; 3]` -/
abbrev Vec3 := Fin 3 → Float

def Vec3.ofArr (a : Arr3 Float) : Vec3 := ![a.x, a.y, a.z]

namespace Doubles

/-- `f64::MAX` -/
def largest : Float := .ofBits 0x7FEFFFFFFFFFFFFF

/-- `f64::INFINITY` -/
def infinity : Float := .ofBits 0x7FF0000000000000

/-- `f64::min`: NaN counts only when both are. -/
def fmin (a b : Float) : Float := if a.isNaN then b else if b.isNaN then a else if b < a then b else a

/-- `f64::max` -/
def fmax (a b : Float) : Float := if a.isNaN then b else if b.isNaN then a else if a < b then b else a

/-- `Mat4` -/
abbrev F64Mat4 := Fin 16 → Float

def identity : F64Mat4 := ![1.0, 0.0, 0.0, 0.0,
                         0.0, 1.0, 0.0, 0.0,
                         0.0, 0.0, 1.0, 0.0,
                         0.0, 0.0, 0.0, 1.0]

/-- Column-major multiply. -/
def mul (a b : F64Mat4) : F64Mat4 := fun i =>
  (List.finRange 4).foldl (fun s (k : Fin 4) =>
    s + a ⟨k * 4 + i % 4, by omega⟩ * b ⟨i / 4 * 4 + k, by omega⟩) 0.0

variable (num : ForgeNum)

/-- `rot_x` -/
def rotX (a : Float) : F64Mat4 := ![1.0, 0.0, 0.0, 0.0,
                                 0.0, num.cos a, num.sin a, 0.0,
                                 0.0, -num.sin a, num.cos a, 0.0,
                                 0.0, 0.0, 0.0, 1.0]

/-- `rot_y` -/
def rotY (a : Float) : F64Mat4 := ![num.cos a, 0.0, -num.sin a, 0.0,
                                 0.0, 1.0, 0.0, 0.0,
                                 num.sin a, 0.0, num.cos a, 0.0,
                                 0.0, 0.0, 0.0, 1.0]

/-- `rot_z` -/
def rotZ (a : Float) : F64Mat4 := ![num.cos a, num.sin a, 0.0, 0.0,
                                 -num.sin a, num.cos a, 0.0, 0.0,
                                 0.0, 0.0, 1.0, 0.0,
                                 0.0, 0.0, 0.0, 1.0]

/-- The identity with a translation in its last column. -/
def translation (pos : Arr3 Float) : F64Mat4 := ![1.0, 0.0, 0.0, 0.0,
                                               0.0, 1.0, 0.0, 0.0,
                                               0.0, 0.0, 1.0, 0.0,
                                               pos.x, pos.y, pos.z, 1.0]

/-- `trs`: T·Ry·Rx·Rz. -/
def trs (pos rot : Arr3 Float) : F64Mat4 :=
  mul (translation pos) (mul (rotY num rot.y) (mul (rotX num rot.x) (rotZ num rot.z)))

/-- `transform_point` -/
def transformPoint (m : F64Mat4) (p : Vec3) : Vec3 := ![
  m 0 * p 0 + m 4 * p 1 + m 8 * p 2 + m 12,
  m 1 * p 0 + m 5 * p 1 + m 9 * p 2 + m 13,
  m 2 * p 0 + m 6 * p 1 + m 10 * p 2 + m 14]

/-! ### The skeleton -/

/-- The transform of a node, given that of its parent. -/
def place (n : Node) (parent : Option F64Mat4) : F64Mat4 := mul (parent.getD identity) (trs num n.pos n.rot)

/-- `node_world_transforms` -/
def nodeWorldTransforms (spec : ModelSpec) : Except BakeError (BTreeMap String F64Mat4) :=
  (Forest.resolve Node.name Node.parent (place num) spec.skeleton.length spec.skeleton .empty).mapError fun stuck =>
    .skeletonCycle stuck.name

/-- The rotation and the offset that are added to those of a node. -/
structure NodePose where
  rot : Arr3 Float
  off : Arr3 Float

/-- The local transform of a node that may be moved. -/
def posedLocal (poses : BTreeMap String NodePose) (n : Node) : F64Mat4 :=
  match poses.get n.name with
  | some pose => trs num (addArr3 n.pos pose.off) (addArr3 n.rot pose.rot)
  | none => trs num n.pos n.rot

/-- The transform of a node that may be moved, given that of its parent. -/
def placePosed (poses : BTreeMap String NodePose) (n : Node) (parent : Option F64Mat4) : F64Mat4 :=
  mul (parent.getD identity) (posedLocal num poses n)

/-- `node_world_posed` -/
def nodeWorldPosed (spec : ModelSpec) (poses : BTreeMap String NodePose) : Except BakeError (BTreeMap String F64Mat4) :=
  (Forest.resolve Node.name Node.parent (placePosed num poses) spec.skeleton.length spec.skeleton .empty).mapError
    fun stuck => .skeletonCycle stuck.name

/-! ### Boxes -/

/-- `([f64; 3], [f64; 3])` -/
structure Box where
  min : Vec3
  max : Vec3

def Box.extend (box : Box) (p : Vec3) : Box where
  min k := fmin (box.min k) (p k)
  max k := fmax (box.max k) (p k)

/-- The chunks of three; an incomplete one at the end is left out. -/
def triples {α : Type} : List α → List (α × α × α)
  | a :: b :: c :: rest => (a, b, c) :: triples rest
  | _ => []

def points (mesh : MeshBuffers) : List Vec3 :=
  (triples mesh.positions).map fun (x, y, z) => ![x.toFloat, y.toFloat, z.toFloat]

/-- `part_world_aabb`, of a mesh in the world. -/
def partWorldAabb (mesh : MeshBuffers) (world : F64Mat4) : Box :=
  ((points mesh).map (transformPoint world)).foldl Box.extend ⟨fun _ => infinity, fun _ => -infinity⟩

/-- `mesh_local_aabb` -/
def meshLocalAabb (mesh : MeshBuffers) : Box :=
  (points mesh).foldl Box.extend ⟨fun _ => largest, fun _ => -largest⟩

/-- `transformed_aabb`: the box around the eight corners of a box in the world. -/
def transformedAabb (box : Box) (m : F64Mat4) : Box :=
  let corners := [box.min 0, box.max 0].flatMap fun cx => [box.min 1, box.max 1].flatMap fun cy =>
    [box.min 2, box.max 2].map fun cz => transformPoint m ![cx, cy, cz]
  corners.foldl Box.extend ⟨fun _ => largest, fun _ => -largest⟩

/-- `aabbs_overlap` -/
def aabbsOverlap (a b : Box) (tol : Float) : Bool :=
  (List.finRange 3).all fun k => a.min k + tol < b.max k && b.min k + tol < a.max k

/-- Nothing is greater than infinity. -/
theorem not_infinity_lt (x : Float) : ¬ infinity < x := by
  intro h
  rw [float_lt_iff] at h
  have hinf : infinity.toModel.unpack = .infinity .positive := rfl
  rw [hinf] at h
  cases hx : x.toModel.unpack with
  | notANumber => rw [hx] at h; cases h
  | infinity s => rw [hx] at h; cases s <;> cases h
  | zero s => rw [hx] at h; cases h
  | finite s m e hm => rw [hx] at h; cases h

end Doubles

end Forge.Geometry
