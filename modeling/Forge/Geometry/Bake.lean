import Forge.Data.Except
import Forge.Data.Forest
import Forge.Geometry.Transform

/-!
# The bake

`node_world_transforms` gives every skeleton node its transform in the world, in passes over
the nodes whose parents have none yet; `bake` gives every physical part its mesh. The mesh of
one part (`primitives::bake_part`) is a parameter: nothing here depends on how it is made.

`nodeWorld_eq` is the **key result** on transforms, for nodes with distinct names: a root has
its local transform, and any other node the transform of its parent times its local one.
`bake_perm` adds that the order of the skeleton does not matter.
-/

namespace Forge.Geometry

open Contract

/-! ### Meshes and errors -/

/-- Flat mesh buffers for one part. -/
structure MeshBuffers where
  positions : List Float32
  normals : List Float32
  indices : List UInt32

def MeshBuffers.faceCount (mesh : MeshBuffers) : ℕ := mesh.indices.length / 3

/-- Polygon-mesh counts. -/
structure Counts where
  verts : ℕ
  polys : ℕ

/-- `primitives::BuildError` -/
inductive BuildError where
  | meshRef (assetRef : String)
  | degenerate (message : String)

/-- `primitives::bake_part` -/
abbrev Builder : Type := Geom → Option PartPose → Except BuildError (MeshBuffers × Counts)

inductive BakeError where
  | unknownNode (partIndex : ℕ) (node : String)
  | meshRefUnsupported (partIndex : ℕ) (assetRef : String)
  | badGeom (partIndex : ℕ) (message : String)
  | skeletonCycle (node : String)
deriving DecidableEq

def BakeError.text : BakeError → String
  | unknownNode partIndex node => s!"part {partIndex}: unknown node '{node}'"
  | meshRefUnsupported partIndex assetRef =>
    s!"part {partIndex}: mesh ref '{assetRef}' requires the asset store (P5)"
  | badGeom partIndex message => s!"part {partIndex}: {message}"
  | skeletonCycle node => s!"skeleton cycle at '{node}'"

structure BakedPart where
  /-- JSON Pointer to the source part in the contract. -/
  sourcePath : String
  partIndex : ℕ
  node : String
  material : MaterialClass
  color : String
  collision : CollisionPolicy
  explode : Option Explode
  polyVerts : ℕ
  polyFaces : ℕ
  mesh : MeshBuffers

structure BakedModel (K : Type) where
  parts : List BakedPart
  /-- Node name to world transform. -/
  nodeWorld : BTreeMap String (Mat4 K)
  totalPolygons : ℕ
  totalVertices : ℕ
  totalFaces : ℕ

/-! ### Baking -/

section

variable {K : Type} [DivisionRing K] (E : Exact K) (build : Builder)

/-- The transform of a node, given that of its parent. -/
def place (n : Node) (parent : Option (Mat4 K)) : Mat4 K := parent.getD identity * trs E n.pos n.rot

/-- `node_world_transforms` -/
def nodeWorldTransforms (spec : ModelSpec) : Except BakeError (BTreeMap String (Mat4 K)) :=
  (Forest.resolve Node.name Node.parent (place E) spec.skeleton.length spec.skeleton .empty).mapError fun stuck =>
    .skeletonCycle stuck.name

/-- One turn of the loop of `bake`. -/
def bakePart (nodeWorld : BTreeMap String (Mat4 K)) (i : ℕ) (sourcePath : String) (part : Part) :
    Except BakeError BakedPart :=
  if nodeWorld.get part.node = none then .error (.unknownNode i part.node)
  else match build part.geom part.pose with
    | .error (.meshRef assetRef) => .error (.meshRefUnsupported i assetRef)
    | .error (.degenerate message) => .error (.badGeom i message)
    | .ok (mesh, counts) =>
      .ok { sourcePath, partIndex := i, node := part.node, material := part.material, color := part.color,
            collision := part.collision, explode := part.explode, polyVerts := counts.verts,
            polyFaces := counts.polys, mesh }

/-- `bake` -/
def bake (spec : ModelSpec) : Except BakeError (BakedModel K) := do
  let nodeWorld ← nodeWorldTransforms E spec
  let parts ← spec.physicalPartsWithPaths.zipIdx.mapM fun e => bakePart build nodeWorld e.2 e.1.1 e.1.2
  pure { parts, nodeWorld
         totalPolygons := (parts.map BakedPart.polyFaces).sum
         totalVertices := (parts.map BakedPart.polyVerts).sum
         totalFaces := (parts.map fun p => p.mesh.faceCount).sum }

/-- `part_mass_g`; `volume` is the volume of a mesh. -/
def partMassG (volume : MeshBuffers → Float) (mass : Option MassSpec) (material : MaterialClass) (mesh : MeshBuffers) :
    Float :=
  let density := match material with
    | .gloss | .satin | .matte => 1200.0
    | .metal => 2700.0
    | .rubber => 1100.0
  match mass.bind MassSpec.valueG, mass.bind MassSpec.densityKgm3 with
  | some g, _ => g
  | none, some d => volume mesh * d * 1000.0
  | none, none => volume mesh * density * 1000.0

/-- The physical part that a part was baked from. -/
def physicalPart (spec : ModelSpec) (bp : BakedPart) : Option Part :=
  (spec.physicalPartsWithPaths[bp.partIndex]?).map Prod.snd

/-- `model_mass_g` -/
def modelMassG (volume : MeshBuffers → Float) (spec : ModelSpec) (parts : List BakedPart) : Float :=
  (parts.map fun bp =>
    (physicalPart spec bp).elim 0.0 fun part => partMassG volume part.mass part.material bp.mesh).foldl (· + ·) 0.0

end

/-! ### What the transforms are -/

section

variable {K : Type} [DivisionRing K] {E : Exact K} {build : Builder} {spec : ModelSpec}

theorem nodeWorldTransforms_eq_ok {w : BTreeMap String (Mat4 K)} : nodeWorldTransforms E spec = .ok w ↔
    Forest.resolve Node.name Node.parent (place E) spec.skeleton.length spec.skeleton .empty = .ok w :=
  mapError_eq_ok

/-- The transform that a node has by its parent. -/
def worldOf (E : Exact K) (w : BTreeMap String (Mat4 K)) (n : Node) : Option (Mat4 K) :=
  match n.parent with
  | none => some (trs E n.pos n.rot)
  | some p => (w.get p).map fun m => m * trs E n.pos n.rot

theorem valueIn_eq_worldOf (w : BTreeMap String (Mat4 K)) (n : Node) :
    Forest.valueIn Node.parent (place E) w n = worldOf E w n := by
  unfold Forest.valueIn worldOf
  cases n.parent with
  | none => simp [place, identity_eq_one]
  | some p => simp [place]

/-- **Key result**: with distinct names every node has the transform that it has by its parent. -/
theorem nodeWorld_eq (hd : (spec.skeleton.map Node.name).Nodup) {w : BTreeMap String (Mat4 K)}
    (h : nodeWorldTransforms E spec = .ok w) {n : Node} (hn : n ∈ spec.skeleton) :
    w.get n.name = worldOf E w n := by
  obtain ⟨v, hv, hvalue⟩ := Forest.placed_of_resolve hd (nodeWorldTransforms_eq_ok.mp h) hn
  rw [hv, ← hvalue, valueIn_eq_worldOf]

/-- The same contract with its skeleton in another order. -/
def withSkeleton (spec : ModelSpec) (skeleton : List Node) : ModelSpec := { spec with skeleton }

/-- **The order of the skeleton does not matter to the bake**, when names are distinct. -/
theorem bake_perm (hd : (spec.skeleton.map Node.name).Nodup) {skeleton : List Node}
    (hperm : spec.skeleton.Perm skeleton) {baked : BakedModel K} (h : bake E build spec = .ok baked) :
    bake E build (withSkeleton spec skeleton) = .ok baked := by
  obtain ⟨w, hw, hparts⟩ := bind_eq_ok.mp h
  refine bind_eq_ok.mpr ⟨w, ?_, hparts⟩
  exact nodeWorldTransforms_eq_ok.mpr (Forest.resolve_perm hperm hd (nodeWorldTransforms_eq_ok.mp hw))

theorem nodeWorld_of_bake {baked : BakedModel K} (h : bake E build spec = .ok baked) :
    nodeWorldTransforms E spec = .ok baked.nodeWorld := by
  obtain ⟨w, hw, hparts⟩ := bind_eq_ok.mp h
  obtain ⟨parts, -, hb⟩ := bind_eq_ok.mp hparts
  rw [← pure_eq_ok.mp hb]
  exact hw

end

/-! ### A model without parts -/

/-- A root called `hub` at this distance. -/
def hub (x : Float) : Node :=
  { name := "hub", parent := none, pos := ⟨x, 0.0, 0.0⟩, rot := ⟨0.0, 0.0, 0.0⟩, limits := none, joint := none }

@[simp] theorem hub_name (x : Float) : (hub x).name = "hub" := rfl

@[simp] theorem hub_parent (x : Float) : (hub x).parent = none := rfl

/-- A glider without parts on this skeleton. -/
def glider (skeleton : List Node) : ModelSpec :=
  { «meta» := { id := "glider", name := "Glider", version := "0.1.0", archetype := .fixedwing, license := "CC0"
                provenance := { kind := .human, promptHash := none, modelVersion := none, seed := none } }
    env := .default, skeleton, parts := [], slots := [], lockfile := .empty, ports := [], chains := []
    driver := { archetype := .fixedwing, params := .null }, sim := .default }

end Forge.Geometry
