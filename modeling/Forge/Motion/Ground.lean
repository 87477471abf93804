import Forge.Motion.Drivers
import Forge.Validate.Params

/-!
# Rovers and quadrupeds

The drivers of `forge-motion` for the two archetypes that drive over the ground (`RoverDriver`, `QuadrupedDriver`),
with the parameters that they read from a contract. The transcendental functions and the remainder of doubles are
parameters (`MotionNum`).
-/

namespace Forge.Drivers

open Contract Geometry.Doubles

/-- `forge_num`, with the remainder of the standard library. -/
structure MotionNum extends Geometry.ForgeNum where
  acos : Float → Float
  atan2 : Float → Float → Float
  remEuclid : Float → Float → Float

/-- `InputFrame`, without the sticks of a multirotor. -/
structure InputFrame where
  drive : Float := 0.0
  turn : Float := 0.0

/-- `f64::clamp` -/
def clamp (x lower upper : Float) : Float := if x < lower then lower else if upper < x then upper else x

/-- A pose on the ground: the position and the heading. -/
structure GroundPose where
  x : Float := 0.0
  z : Float := 0.0
  heading : Float := 0.0

/-- The pose after driving with a speed and turning with a rate. -/
def GroundPose.advance (num : MotionNum) (speed rate dt : Float) (pose : GroundPose) : GroundPose :=
  let heading := pose.heading + rate * dt
  { x := pose.x + speed * num.sin heading * dt, z := pose.z + speed * num.cos heading * dt, heading }

/-- How far a pose is from the origin, as the checks compute it. -/
def GroundPose.distance (pose : GroundPose) : Float := (pose.x * pose.x + pose.z * pose.z).sqrt

/-! ### Rovers -/

/-- `p.get(name).and_then(as_f64).unwrap_or(fallback)` -/
def paramOr (params : Json) (name : String) (fallback : Float) : Float :=
  ((params.member name).bind Codec.double.decode).getD fallback

structure RoverDriver where
  wheelbaseM : Float
  maxSpeedMs : Float
  pose : GroundPose

namespace RoverDriver

/-- `new` -/
def ofSpec (spec : ModelSpec) : RoverDriver where
  wheelbaseM := paramOr spec.driver.params "wheelbaseM" 0.2
  maxSpeedMs := paramOr spec.driver.params "maxSpeedMs" 1.0
  pose := {}

/-- `tick`, with the speeds of the left and the right wheel. -/
def tick (num : MotionNum) (input : InputFrame) (dt : Float) (rover : RoverDriver) : (Float × Float) × RoverDriver :=
  let v := clamp input.drive (-1.0) 1.0 * rover.maxSpeedMs
  let w := clamp input.turn (-1.0) 1.0 * (2.0 * rover.maxSpeedMs / rover.wheelbaseM) * 0.5
  ((v - w * rover.wheelbaseM / 2.0, v + w * rover.wheelbaseM / 2.0),
    { rover with pose := rover.pose.advance num v w dt })

end RoverDriver

/-- A parameter is finite when its default is: JSON carries no other numbers. -/
theorem isFinite_paramOr {fallback : Float} (h : fallback.isFinite = true) (params : Json) (name : String) :
    (paramOr params name fallback).isFinite = true := by
  rw [paramOr]
  cases params.member name with
  | none => exact h
  | some j =>
    cases j with
    | number n =>
      cases n with
      | int i range => exact isFinite_intToFloat range
      | float x finite => exact finite
    | null | bool | string | array | object => exact h

/-! ### Quadrupeds -/

/-- `QuadrupedParams` -/
structure QuadrupedParams where
  standHeightM : Float := 0.22
  strideM : Float := 0.18
  cadenceHz : Float := 2.0
  duty : Float := 0.5
  liftM : Float := 0.05
  yawRate : Float := 1.2

/-- `from_spec`: the defaults when the parameters do not parse. -/
def QuadrupedParams.ofSpec (spec : ModelSpec) : QuadrupedParams :=
  let codec : Codec QuadrupedParams := .record Validate.quadrupedParams
    (fun p => (p.standHeightM, p.strideM, p.cadenceHz, p.duty, p.liftM, p.yawRate, ()))
    fun (standHeightM, strideM, cadenceHz, duty, liftM, yawRate, ()) =>
      { standHeightM, strideM, cadenceHz, duty, liftM, yawRate }
  (codec.decode spec.driver.params).getD {}

structure Leg where
  id : String
  hipNode : String
  kneeNode : String
  /-- Thigh. -/
  l1 : Float
  /-- Shank. -/
  l2 : Float
  phaseOffset : Float

/-- The length of an offset. -/
def offsetLength (p : Arr3 Float) : Float := (p.x * p.x + p.y * p.y + p.z * p.z).sqrt

/-- The leg of a hip, when the nodes of its knee and its foot exist. -/
def legOfHip (spec : ModelSpec) (hip : Node) : Option Leg :=
  if "hip_".toList.isPrefixOf hip.name.toList then
    let id := String.ofList (hip.name.toList.drop 4)
    match spec.node ("knee_" ++ id), spec.node ("foot_" ++ id) with
    | some knee, some foot =>
      some { id, hipNode := hip.name, kneeNode := "knee_" ++ id, l1 := fmax (offsetLength knee.pos) 1e-6,
             l2 := fmax (offsetLength foot.pos) 1e-6, phaseOffset := if hip.pos.x * hip.pos.z ≥ 0.0 then 0.0 else 0.5 }
    | _, _ => none
  else none

/-- `discover_legs` -/
def discoverLegs (spec : ModelSpec) : List Leg :=
  (spec.skeleton.filterMap (legOfHip spec)).mergeSort fun a b => a.id ≤ b.id

structure LegPose where
  hipPitch : Float
  knee : Float
  ankle : Float

/-- `leg_ik` -/
def legIk (num : MotionNum) (l1 l2 dy dz : Float) : LegPose :=
  let reachMax := (l1 + l2) * 0.99999
  let d := fmax (fmin (dy * dy + dz * dz).sqrt reachMax) 1e-9
  let beta := num.acos (clamp ((d * d - l1 * l1 - l2 * l2) / (2.0 * l1 * l2)) (-1.0) 1.0)
  let gamma := num.atan2 dz (-dy)
  let delta := num.atan2 (l2 * num.sin beta) (l1 + l2 * num.cos beta)
  let hip := -gamma - delta
  { hipPitch := hip, knee := beta, ankle := -(hip + beta) }

structure QuadOutputs where
  jointTargets : List (String × Float) := []
  body : GroundPose := {}
  footClearance : List Float := []

structure QuadrupedDriver where
  params : QuadrupedParams
  legs : List Leg
  phase : Float
  pose : GroundPose
  out : QuadOutputs

namespace QuadrupedDriver

/-- `new` -/
def ofSpec (spec : ModelSpec) : QuadrupedDriver :=
  { params := .ofSpec spec, legs := discoverLegs spec, phase := 0.0, pose := {}, out := {} }

/-- `foot_target`: the foot in the frame of the hip at a phase of the gait, and its lift. `pi` is `PI`. -/
def footTarget (num : MotionNum) (params : QuadrupedParams) (p drive : Float) : Float × Float × Float :=
  let pi : Float := 3.141592653589793
  let s := params.strideM * clamp drive (-1.0) 1.0
  let d := clamp params.duty 0.2 0.8
  let (dz, lift) :=
    if p < d then (s / 2.0 - s * (p / d), 0.0)
    else
      let q := (p - d) / (1.0 - d)
      (-s / 2.0 + s * q, params.liftM * num.sin (pi * q))
  (-(params.standHeightM - lift), dz, lift)

/-- `tick` -/
def tick (num : MotionNum) (input : InputFrame) (dt : Float) (driver : QuadrupedDriver) : QuadrupedDriver :=
  let drive := clamp input.drive (-1.0) 1.0
  let phase := num.remEuclid (driver.phase + driver.params.cadenceHz * dt) 1.0
  let steps := driver.legs.map fun leg =>
    let (dy, dz, lift) := footTarget num driver.params (num.remEuclid (phase + leg.phaseOffset) 1.0) drive
    let pose := legIk num leg.l1 leg.l2 dy dz
    ([(leg.hipNode, pose.hipPitch), (leg.kneeNode, pose.knee)], lift)
  let speed := drive * driver.params.strideM * driver.params.cadenceHz
  let pose := driver.pose.advance num speed (clamp input.turn (-1.0) 1.0 * driver.params.yawRate) dt
  { driver with
    phase, pose
    out := { jointTargets := steps.flatMap Prod.fst, body := pose, footClearance := steps.map Prod.snd } }

end QuadrupedDriver

end Forge.Drivers
