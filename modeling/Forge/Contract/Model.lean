import Forge.Json.Value

/-!
# The model contract

The types of a `ModelSpec` document (`lib.rs`), field by field: doubles are
`Float`, `u32`/`u64`/`i8` are the fixed-width integers, `[f64; 3]` is `Arr3
Float`, a `BTreeMap` is a sorted map, and `driver.params` is any JSON value. The
`Default` values are given next to the types that have them. Derived
`PartialEq` is the `BEq` instance (doubles compared as IEEE does), while `=` is
equality bit for bit.

The lookups that decide what a document *installs* are here too: the equipped
variant of a slot (`Slot.equippedVariant`), the component references in use
(`ModelSpec.eachRef`) and the physical parts in bake order
(`ModelSpec.physicalPartsWithPaths`).
-/

namespace Forge.Contract

/-- `[T; 2]` -/
structure Arr2 (α : Type) where
  fst : α
  snd : α
deriving DecidableEq, BEq

/-- `[T; 3]` -/
structure Arr3 (α : Type) where
  x : α
  y : α
  z : α
deriving DecidableEq, BEq

/-- The schema version the validators expose. -/
def schemaVersion : String := "2.2.0"

/-! ### Meta -/

inductive Archetype where
  | biped | multirotor | rover | arm | quadruped | fixedwing
deriving DecidableEq

inductive ProvenanceKind where
  | human | parametricGenerator | llmGeneration
deriving DecidableEq

structure Provenance where
  kind : ProvenanceKind
  promptHash : Option String
  modelVersion : Option String
  seed : Option UInt64
deriving DecidableEq

structure Meta where
  id : String
  name : String
  /-- Semver of the model document itself. -/
  version : String
  archetype : Archetype
  provenance : Provenance
  license : String
deriving DecidableEq

/-! ### Environment -/

structure Wind where
  mean : Float
  gust : Float
deriving DecidableEq

def Wind.default : Wind := { mean := 0.0, gust := 0.0 }

structure EnvBlock where
  gravity : Float
  airDensity : Float
  wind : Wind
deriving DecidableEq

def EnvBlock.defaultGravity : Float := 9.80665

def EnvBlock.defaultAirDensity : Float := 1.225

def EnvBlock.default : EnvBlock :=
  { gravity := defaultGravity, airDensity := defaultAirDensity, wind := Wind.default }

/-! ### Skeleton -/

inductive JointKind where
  | fixed | revolute | spherical
deriving DecidableEq

structure Joint where
  kind : JointKind
  axis : Option (Arr3 Float)
  maxTorqueNm : Option Float
  maxVelRad : Option Float
deriving DecidableEq

structure Node where
  name : String
  /-- `none` for the root node. -/
  parent : Option String
  /-- Meters, parent-local. -/
  pos : Arr3 Float
  /-- Radians, XYZ euler, parent-local. -/
  rot : Arr3 Float
  /-- Per-axis joint limits in radians. -/
  limits : Option (Arr3 (Arr2 Float))
  joint : Option Joint
deriving DecidableEq

/-! ### Parts and geometry -/

inductive MaterialClass where
  | gloss | metal | satin | matte | rubber
deriving DecidableEq

inductive CollisionPolicy where
  | auto | hull | primitive | none
deriving DecidableEq

structure MassSpec where
  valueG : Option Float
  densityKgm3 : Option Float
deriving DecidableEq

/-- Loft cross-section. -/
inductive LoftProfile where
  /-- Superellipse with exponent `e`, `n` segments per quadrant. -/
  | sq (e : Float) (n : UInt32)
  | circle (n : UInt32)
deriving DecidableEq, BEq

structure LoftStation where
  /-- Height along local Y. -/
  y : Float
  /-- Half-extent along X. -/
  sx : Float
  /-- Half-extent along Z. -/
  sz : Float
  /-- Corner roundness. -/
  r : Option Float
deriving DecidableEq, BEq

/-- The primitive vocabulary. -/
inductive Geom where
  | box (w h d : Float)
  /-- Vertical edges cut by `ch`. -/
  | cbox (w h d ch : Float)
  /-- Bottom `(w0, d0)` to top `(w1, d1)` over height `h`. -/
  | taper (w0 d0 w1 d1 h : Float)
  | cyl (r0 : Float) (r1 : Option Float) (h : Float) (n : Option UInt32)
  /-- `[radius, y]` pairs revolved around local Y. -/
  | lathe (profile : List (Arr2 Float)) (n : Option UInt32)
  | squircle (rx rz h e : Float) (n : Option UInt32)
  | loft (profile : LoftProfile) (stations : List LoftStation)
  /-- Imported mesh by asset reference. -/
  | mesh (assetRef : String)
deriving DecidableEq, BEq

structure Explode where
  dir : Arr3 Float
  mag : Float
  t0 : Float
  t1 : Float
  leader : Option String
deriving DecidableEq, BEq

/-- Part-local pose, composed as `T·Ry·Rx·Rz·S`. -/
structure PartPose where
  p : Arr3 Float
  r : Arr3 Float
  s : Arr3 Float
deriving DecidableEq, BEq

def PartPose.unitScale : Arr3 Float := ⟨1.0, 1.0, 1.0⟩

def PartPose.default : PartPose := { p := ⟨0.0, 0.0, 0.0⟩, r := ⟨0.0, 0.0, 0.0⟩, s := unitScale }

structure Part where
  /-- Skeleton node the part attaches to. -/
  node : String
  geom : Geom
  pose : Option PartPose
  material : MaterialClass
  color : String
  explode : Option Explode
  renderBias : Option Float
  comp : Option String
  mass : Option MassSpec
  collision : CollisionPolicy
deriving DecidableEq

/-! ### Slots, ports, chains -/

structure Variant where
  id : String
  name : Option String
  desc : Option String
  /-- Inline parts. -/
  parts : Option (List Part)
  /-- Semver-ranged reference into the catalog. -/
  componentRef : Option String
  /-- Ports contributed by the variant. -/
  ports : BTreeMap String String
deriving DecidableEq

structure Slot where
  id : String
  label : String
  mountNodes : List String
  joint : Option Joint
  /-- The one alternative that contributes parts, refs and ports. -/
  equippedVariantId : Option String
  variants : List Variant
deriving DecidableEq

/-- The equipped alternative of a slot: the first variant with the equipped id. -/
def Slot.equippedVariant (slot : Slot) : Option Variant := do
  let equipped ← slot.equippedVariantId
  slot.variants.find? fun variant => variant.id = equipped

structure Port where
  id : String
  node : String
  kind : String
  frame : Arr2 (Arr3 Float)
  capped : Bool
deriving DecidableEq

structure Chain where
  id : String
  stage : UInt32
  nodes : List String
  dir : Option (Arr3 Float)
  mag : Option Float
  t0 : Option Float
  t1 : Option Float
deriving DecidableEq

/-! ### Driver and simulation block -/

structure Driver where
  archetype : Archetype
  /-- Archetype-specific parameters: any JSON value. -/
  params : Json
deriving DecidableEq

structure Battery where
  cells : UInt32
  capacityMah : Float
  cRating : Option Float
  rIntMohm : Float
deriving DecidableEq

structure MotorSpec where
  kv : Option Float
  rIntMohm : Option Float
  maxCurrentA : Option Float
  /-- Catalog reference, resolved through the lockfile. -/
  componentRef : Option String
  mount : String
  /-- Spin direction. -/
  dir : Option Int8
deriving DecidableEq

structure PropSpec where
  diameterIn : Float
  pitchIn : Float
  blades : UInt32
  ctTable : Option String
deriving DecidableEq

structure ColliderBudget where
  perNode : UInt32
  perModel : UInt32
deriving DecidableEq

def ColliderBudget.default : ColliderBudget := { perNode := 8, perModel := 24 }

structure ColliderPolicy where
  policy : String
  budget : ColliderBudget
deriving DecidableEq

def ColliderPolicy.default : ColliderPolicy := { policy := "per-node-compound", budget := ColliderBudget.default }

inductive EstimatorKind where
  | complementary | ekf
deriving DecidableEq

structure Estimator where
  kind : EstimatorKind
  gyroNoise : Float
  accelNoise : Float
  bias : Float
  latencyMs : Float
deriving DecidableEq

structure SimBlock where
  battery : Option Battery
  motors : List MotorSpec
  props : List PropSpec
  colliders : ColliderPolicy
  estimator : Option Estimator
  aggregateMassG : Option Float
deriving DecidableEq

def SimBlock.default : SimBlock :=
  { battery := none, motors := [], props := [], colliders := ColliderPolicy.default, estimator := none,
    aggregateMassG := none }

/-! ### The document -/

/-- The model contract document. -/
structure ModelSpec where
  «meta» : Meta
  env : EnvBlock
  skeleton : List Node
  parts : List Part
  slots : List Slot
  /-- Component reference with range → exact immutable revision. -/
  lockfile : BTreeMap String String
  ports : List Port
  chains : List Chain
  driver : Driver
  sim : SimBlock
deriving DecidableEq

namespace ModelSpec

/-- The skeleton node called `name`. -/
def node (spec : ModelSpec) (name : String) : Option Node := spec.skeleton.find? fun n => n.name = name

/-- The component references in use, in visiting order: of the equipped variant of each
slot, then of each motor. -/
def eachRef (spec : ModelSpec) : List String :=
  spec.slots.filterMap (fun slot => slot.equippedVariant.bind Variant.componentRef) ++
    spec.sim.motors.filterMap MotorSpec.componentRef

/-- The inline parts of the equipped variant of the slot at `slotIndex`, with their paths. -/
def slotParts (slotIndex : ℕ) (slot : Slot) : List (String × Part) :=
  match slot.equippedVariantId with
  | none => []
  | some equippedId =>
    match slot.variants.zipIdx.find? fun (variant, _) => variant.id = equippedId with
    | none => []
    | some (variant, variantIndex) =>
      (variant.parts.getD []).zipIdx.map fun (part, partIndex) =>
        (s!"/slots/{slotIndex}/variants/{variantIndex}/parts/{partIndex}", part)

/-- Physical parts in bake order with their source paths: the base parts, then the inline
parts of each equipped variant. -/
def physicalPartsWithPaths (spec : ModelSpec) : List (String × Part) :=
  spec.parts.zipIdx.map (fun (part, index) => (s!"/parts/{index}", part)) ++
    spec.slots.zipIdx.flatMap fun (slot, slotIndex) => slotParts slotIndex slot

end ModelSpec

end Forge.Contract
