import Forge.Geometry.Bake

/-!
# Poses

The transforms of a skeleton whose joints are turned (`node_world_with_joints`) or whose nodes are moved by a
driver (`node_world_posed`). The two have the loop of `node_world_transforms` with another local transform.

**`skeletonResolution`**: for distinct names the loop ends after at most as many passes as there are nodes, and
succeeds exactly when every chain of parents ends at a root; then every node has the product of the local
transforms on its path, in whatever order the nodes are listed.
-/

namespace Forge.Geometry

open Contract

section

variable {K : Type} [DivisionRing K] (E : Exact K)

/-- `axis_angle`: the rotation about an axis, by the formula of Rodrigues. -/
def axisAngle (axis : Arr3 Float) (angle : Float) : Mat4 K :=
  let len := (axis.x * axis.x + axis.y * axis.y + axis.z * axis.z).sqrt
  if len < 1e-12 then identity
  else
    let x : K := num (axis.x / len)
    let y : K := num (axis.y / len)
    let z : K := num (axis.z / len)
    let s := E.sin angle
    let c := E.cos angle
    let t := 1 - c
    .ofColumns ![t * x * x + c, t * x * y + s * z, t * x * z - s * y, 0,
                 t * x * y - s * z, t * y * y + c, t * y * z + s * x, 0,
                 t * x * z + s * y, t * y * z - s * x, t * z * z + c, 0,
                 0, 0, 0, 1]

/-- The axis of the joint of a node, or the vertical one. -/
def jointAxis (n : Node) : Arr3 Float := (n.joint.bind Joint.axis).getD ⟨0.0, 1.0, 0.0⟩

/-- The local transform of a node whose joint is turned. -/
def jointLocal (jointAngles : BTreeMap String Float) (n : Node) : Mat4 K :=
  match jointAngles.get n.name with
  | some angle => trs E n.pos n.rot * axisAngle E (jointAxis n) angle
  | none => trs E n.pos n.rot

/-- The transform of a node, given that of its parent; a root is placed at the offset. -/
def placeJoint (jointAngles : BTreeMap String Float) (rootOffset : Option (Mat4 K)) (n : Node)
    (parent : Option (Mat4 K)) : Mat4 K :=
  parent.getD (rootOffset.getD identity) * jointLocal E jointAngles n

/-- `node_world_with_joints` -/
def nodeWorldWithJoints (spec : ModelSpec) (jointAngles : BTreeMap String Float) (rootOffset : Option (Mat4 K)) :
    Except BakeError (BTreeMap String (Mat4 K)) :=
  (Forest.resolve Node.name Node.parent (placeJoint E jointAngles rootOffset) spec.skeleton.length spec.skeleton
    .empty).mapError fun stuck => .skeletonCycle stuck.name

/-- The sum of two vectors of doubles. -/
def addArr3 (a b : Arr3 Float) : Arr3 Float := ⟨a.x + b.x, a.y + b.y, a.z + b.z⟩

/-- The local transform of a node that is moved: a rotation and an offset are added to its own. -/
def posedLocal (poses : BTreeMap String (Arr3 Float × Arr3 Float)) (n : Node) : Mat4 K :=
  match poses.get n.name with
  | some (rot, off) => trs E (addArr3 n.pos off) (addArr3 n.rot rot)
  | none => trs E n.pos n.rot

/-- The transform of a node, given that of its parent. -/
def placePosed (poses : BTreeMap String (Arr3 Float × Arr3 Float)) (n : Node) (parent : Option (Mat4 K)) : Mat4 K :=
  parent.getD identity * posedLocal E poses n

/-- `node_world_posed` -/
def nodeWorldPosed (spec : ModelSpec) (poses : BTreeMap String (Arr3 Float × Arr3 Float)) :
    Except BakeError (BTreeMap String (Mat4 K)) :=
  (Forest.resolve Node.name Node.parent (placePosed E poses) spec.skeleton.length spec.skeleton .empty).mapError
    fun stuck => .skeletonCycle stuck.name

end

/-! ### What is claimed of the three -/

/-- The chain of parents of every node ends at a root. -/
def AllRooted (skeleton : List Node) : Prop := ∀ n ∈ skeleton, Forest.Rooted Node.name Node.parent skeleton n

section

variable {K : Type} [DivisionRing K]

/-- The loop with these transforms of roots and children ends by itself, succeeds exactly on rooted skeletons, and
gives a transform to the names of the skeleton. -/
structure Resolves (place : Node → Option (Mat4 K) → Mat4 K) (skeleton : List Node) : Prop where
  /-- More passes than nodes change nothing. -/
  terminates : ∀ fuel, skeleton.length ≤ fuel → Forest.resolve Node.name Node.parent place fuel skeleton .empty =
    Forest.resolve Node.name Node.parent place skeleton.length skeleton .empty
  isOk : (∃ w, Forest.resolve Node.name Node.parent place skeleton.length skeleton .empty = .ok w) ↔ AllRooted skeleton
  keys : ∀ w, Forest.resolve Node.name Node.parent place skeleton.length skeleton .empty = .ok w →
    ∀ name, name ∈ w.keys ↔ name ∈ skeleton.map Node.name

/-- What holds of the transforms of a skeleton. -/
structure SkeletonResolution (E : Exact K) (spec : ModelSpec) : Prop where
  rest : Resolves (place E) spec.skeleton
  isOk : (∃ w, nodeWorldTransforms E spec = .ok w) ↔ AllRooted spec.skeleton
  /-- Every node has the product of the local transforms on its path from the root. -/
  product : ∀ w, nodeWorldTransforms E spec = .ok w → ∀ n ∈ spec.skeleton, ∃ m, w.get n.name = some m ∧
    Forest.Composed Node.name Node.parent (fun n => trs E n.pos n.rot) spec.skeleton n m
  /-- The order of the nodes does not matter. -/
  order : ∀ skeleton, spec.skeleton.Perm skeleton → ∀ w, nodeWorldTransforms E spec = .ok w →
    nodeWorldTransforms E (withSkeleton spec skeleton) = .ok w
  /-- Turned joints and poses do not change where the loop succeeds, and for which names. -/
  joints : ∀ jointAngles rootOffset, Resolves (placeJoint E jointAngles rootOffset) spec.skeleton ∧
    ((∃ w, nodeWorldWithJoints E spec jointAngles rootOffset = .ok w) ↔ ∃ w, nodeWorldTransforms E spec = .ok w)
  posed : ∀ poses, Resolves (placePosed E poses) spec.skeleton ∧
    ((∃ w, nodeWorldPosed E spec poses = .ok w) ↔ ∃ w, nodeWorldTransforms E spec = .ok w)
  /-- Without angles, offset and poses the three are one. -/
  jointsAtRest : nodeWorldWithJoints E spec .empty none = nodeWorldTransforms E spec
  posedAtRest : nodeWorldPosed E spec .empty = nodeWorldTransforms E spec

variable {E : Exact K} {spec : ModelSpec} {place : Node → Option (Mat4 K) → Mat4 K} {skeleton : List Node}

omit [DivisionRing K] in
theorem resolves (hd : (skeleton.map Node.name).Nodup) : Resolves place skeleton where
  terminates fuel h := Forest.resolve_of_le h le_rfl
  isOk := Forest.resolve_isOk_iff hd
  keys w h name := by
    constructor
    · intro hname
      obtain ⟨m, hm⟩ : ∃ m, w.get name = some m := by
        rw [← Option.isSome_iff_exists, Option.isSome_iff_ne_none, ne_eq, BTreeMap.get_eq_none_iff, not_not]
        exact hname
      obtain ⟨n, hn, -, rfl⟩ := (Forest.between_of_resolve hd h).named name m hm
      exact List.mem_map_of_mem hn
    · intro hname
      obtain ⟨n, hn, rfl⟩ := List.mem_map.mp hname
      obtain ⟨m, hm, -⟩ := Forest.placed_of_resolve hd h hn
      by_contra hno
      rw [BTreeMap.get_eq_none_iff.mpr hno] at hm
      cases hm

omit [DivisionRing K] in
theorem mapError_isOk {β δ : Type} {x : Except β (BTreeMap String (Mat4 K))} {f : β → δ} :
    (∃ w, x.mapError f = .ok w) ↔ ∃ w, x = .ok w :=
  exists_congr fun _ => mapError_eq_ok

/-- A node that has the transform it has by its parent has the product on its path. -/
theorem composed_of_rooted {w : BTreeMap String (Mat4 K)}
    (hw : ∀ n ∈ skeleton, w.get n.name = worldOf E w n) {n : Node} (hn : n ∈ skeleton)
    (h : Forest.Rooted Node.name Node.parent skeleton n) : ∃ m, w.get n.name = some m ∧
      Forest.Composed Node.name Node.parent (fun n => trs E n.pos n.rot) skeleton n m := by
  induction h with
  | @root n hp =>
    refine ⟨trs E n.pos n.rot, ?_, .root hp⟩
    rw [hw n hn, worldOf, hp]
  | @child n parent p hp hm hname _ ih =>
    obtain ⟨m, hget, hcomposed⟩ := ih hm
    refine ⟨m * trs E n.pos n.rot, ?_, .child hp hm hname hcomposed⟩
    rw [hw n hn, worldOf, hp]
    simp only [← hname, hget, Option.map_some]

theorem placeJoint_rest : placeJoint E .empty none = Geometry.place E := by
  funext n parent
  rfl

theorem placePosed_rest : placePosed E .empty = Geometry.place E := by
  funext n parent
  rfl

/-- **Resolution of skeletons** with distinct names. -/
theorem skeletonResolution (E : Exact K) (spec : ModelSpec) (hd : (spec.skeleton.map Node.name).Nodup) :
    SkeletonResolution E spec := by
  have hisOk : (∃ w, nodeWorldTransforms E spec = .ok w) ↔ AllRooted spec.skeleton :=
    mapError_isOk.trans (resolves hd).isOk
  refine ⟨resolves hd, hisOk, ?_, ?_, ?_, ?_, ?_, ?_⟩
  · intro w h n hn
    exact composed_of_rooted (fun m hm => nodeWorld_eq hd h hm) hn (hisOk.mp ⟨w, h⟩ n hn)
  · intro skeleton hperm w h
    exact nodeWorldTransforms_eq_ok.mpr (Forest.resolve_perm hperm hd (nodeWorldTransforms_eq_ok.mp h))
  · intro jointAngles rootOffset
    exact ⟨resolves hd, (mapError_isOk.trans (resolves hd).isOk).trans hisOk.symm⟩
  · intro poses
    exact ⟨resolves hd, (mapError_isOk.trans (resolves hd).isOk).trans hisOk.symm⟩
  · rw [nodeWorldWithJoints, placeJoint_rest]
    rfl
  · rw [nodeWorldPosed, placePosed_rest]
    rfl

end

/-! ### A child listed before its parent -/

/-- An arm that hangs on `hub`. -/
def arm : Node :=
  { name := "arm", parent := some "hub", pos := ⟨0.5, 0.0, 0.0⟩, rot := ⟨0.0, 0.0, 0.0⟩, limits := none, joint := none }

theorem skeletonResolution_arm : SkeletonResolution (K := ℚ) ⟨fun _ => 0, fun _ => 1, fun _ => by simp⟩
    (glider [arm, hub 1.0]) :=
  skeletonResolution _ _ (by decide)

end Forge.Geometry
