import Forge.Data.Except
import Forge.Data.Printed
import Forge.Data.TotalOrder
import Forge.Export.Inertials
import Forge.Export.Links
import Forge.Json.Serde

/-!
# The control joints of a ground policy

`ground_control_joints` and `rover_wheel_radius` of `forge-sim` choose the joints that a rover or a quadruped is trained
to drive, and the wheel radius of the rover. The exporter of MJCF chooses the axis and the limits of a joint on its own
(`joint_kind_axis`) and prints six decimals of them. Radii are exact numbers, of which those that are not finite are left
out.

The **key result** is `realWheels_iff`: when the two functions succeed, the joints have the wheels, limits and motors that
the training relies on (`RealWheels`) exactly when the contract gives every joint node a cylinder of its own, the cylinders
that the radius leaves out are as good as the others, the nodes have different names, and their limits survive six decimals
(`OwnWheels`). The wheels are only counted, so that two on one joint make up for another joint without any:
`lopsided_rover`.
-/

namespace Forge.Training

open Contract Export

/-! ### Axes -/

/-- `[f64; 3]` by its index. -/
def along (a : Arr3 α) : Fin 3 → α := ![a.x, a.y, a.z]

/-- The axis of a joint, which is upward unless it is given. -/
def axisOf (joint : Joint) : Arr3 Float := joint.axis.getD ⟨0.0, 1.0, 0.0⟩

/-- The index of the greatest component of the axis. -/
def dominantAxis (joint : Joint) : Fin 3 :=
  (maxBy fun a b => totalCmp (along (axisOf joint) a).abs (along (axisOf joint) b).abs).getD 1

/-! ### The control joints -/

structure GroundTrainingJoint where
  name : String
  motorName : String
  side : String
  lowerRad : Float
  upperRad : Float
  maxTorqueNm : Float
  maxVelocityRadS : Float

/-- The side of a joint, by its name. -/
def sideOf (name : String) : String :=
  let folded := name.toList.map Char.toLower
  if folded.tails.any fun rest => "left".toList.isPrefixOf rest then "left"
  else if folded.tails.any fun rest => "right".toList.isPrefixOf rest then "right"
  else if "_l".toList.isSuffixOf folded || ['l'].isSuffixOf folded then "left"
  else if "_r".toList.isSuffixOf folded || ['r'].isSuffixOf folded then "right"
  else "center"

/-- The body of the loop of `ground_control_joints`, for a revolute joint. -/
def groundJoint (node : Node) (joint : Joint) : Except String GroundTrainingJoint := do
  let torque ← joint.maxTorqueNm.elim
    (.error s!"P7 ground training joint '{node.name}' requires explicit maxTorqueNm") .ok
  let velocity ← joint.maxVelRad.elim
    (.error s!"P7 ground training joint '{node.name}' requires explicit maxVelRad") .ok
  if ¬torque.isFinite ∨ torque ≤ 0.0 ∨ ¬velocity.isFinite ∨ velocity ≤ 0.0 then
    .error s!"P7 ground training joint '{node.name}' requires positive finite torque and velocity authority"
  else do
    let limits ← node.limits.elim
      (.error s!"P7 ground training joint '{node.name}' requires explicit angular limits") .ok
    let range := along limits (dominantAxis joint)
    if ¬range.fst.isFinite ∨ ¬range.snd.isFinite ∨ range.snd ≤ range.fst then
      .error s!"P7 ground training joint '{node.name}' has invalid angular limits"
    else
      return { name := node.name, motorName := s!"{node.name}_motor", side := sideOf node.name, lowerRad := range.fst
               upperRad := range.snd, maxTorqueNm := torque, maxVelocityRadS := velocity }

/-- The revolute joint of a node below another one. -/
def revolute (node : Node) : Option Joint :=
  if node.parent.isSome then node.joint.filter fun joint => joint.kind = .revolute else none

/-- The nodes with a control joint. -/
def controlNodes (spec : ModelSpec) : List (Node × Joint) :=
  spec.skeleton.filterMap fun node => (revolute node).map (node, ·)

/-- `ground_control_joints` -/
def groundControlJoints (spec : ModelSpec) : Except String (List GroundTrainingJoint) := do
  let joints ← (controlNodes spec).mapM fun e => groundJoint e.1 e.2
  if joints = [] then .error "P7 ground training requires bounded revolute control joints" else return joints

/-! ### Wheels -/

/-- The radius of a cylinder, unless it is not finite. -/
def cylRadius (r0 : Float) (r1 : Option Float) : Option ℚ :=
  if r0.isFinite ∧ (r1.getD r0).isFinite then some ((floatValue r0 + floatValue (r1.getD r0)) / 2) else none

/-- The cylinders among the parts that are attached to one of some nodes, with their radii. -/
def cylindersOn (spec : ModelSpec) (names : List String) : List (String × Option ℚ) :=
  spec.physicalPartsWithPaths.filterMap fun e =>
    if e.2.node ∈ names then
      match e.2.geom with
      | .cyl r0 r1 _ _ => some (e.2.node, cylRadius r0 r1)
      | _ => none
    else none

def cylinders (spec : ModelSpec) (joints : List GroundTrainingJoint) : List (String × Option ℚ) :=
  cylindersOn spec (joints.map GroundTrainingJoint.name)

/-- The radii that are compared. -/
def wheelRadii (spec : ModelSpec) (joints : List GroundTrainingJoint) : List ℚ :=
  (cylinders spec joints).filterMap fun c => c.2.filter fun q => 0 < q

/-- `rover_wheel_radius`; `none` is infinite, the result for no joints. -/
def roverWheelRadius (spec : ModelSpec) (joints : List GroundTrainingJoint) : Except String (Option ℚ) :=
  let radii := wheelRadii spec joints
  if radii.length < joints.length then
    .error "P7 rover training requires one cylindrical wheel on every control joint"
  else
    let max := radii.foldl max 0
    match radii.min? with
    | none => .ok none
    | some min =>
      if 1 / 10 ^ 6 < max - min then .error "P7 rover training 1.0.0 requires equal wheel radii"
      else .ok (some ((min + max) / 2))

/-! ### The exporter -/

/-- `joint_kind_axis` for a revolute joint: the axis, and the limits for it. Without an order of the components it
panics. -/
def jointKindAxis (node : Node) (joint : Joint) : Option (Arr3 Float × Float × Float) := do
  let dominant ← maxBy fun a b => partialCmp (along (axisOf joint) a).abs (along (axisOf joint) b).abs
  let axis := axisOf joint
  let limits := node.limits.map fun limits => along limits dominant
  return (⟨axis.x, -axis.z, axis.y⟩, limits.elim (-3.141592653589793) Arr2.fst, limits.elim 3.141592653589793 Arr2.snd)

/-- What `mjcf_body` writes for a joint. -/
structure MjcfJoint where
  name : List Char
  axis : Fin 3 → List Char
  lower : List Char
  upper : List Char
  motor : List Char

/-- The `<joint>` of a node and its `<motor>`. -/
def mjcfJoint (node : Node) (joint : Joint) : Option MjcfJoint :=
  (jointKindAxis node joint).map fun e =>
    { name := xmlEscape node.name ++ "_joint".toList, axis := fun k => printedFloat 6 (along e.1 k)
      lower := printedFloat 6 e.2.1, upper := printedFloat 6 e.2.2, motor := xmlEscape node.name ++ "_motor".toList }

/-! ### What the training relies on -/

/-- The number of the double nearest to a number. -/
def nearest (q : ℚ) : ℚ := if q < 0 then -nearestDouble (-q) else nearestDouble q

/-- What is read of a limit, as a double. -/
def readLimit (text : List Char) : Option ℚ := (readDecimal text).map nearest

/-- The joints have the wheels, the limits and the motors that a rover is trained with. -/
structure RealWheels (spec : ModelSpec) (joints : List GroundTrainingJoint) (radius : ℚ) : Prop where
  wheel : ∀ j ∈ joints, ∃ c ∈ cylinders spec joints, c.1 = j.name
  equal : ∀ c ∈ cylinders spec joints, ∃ q, c.2 = some q ∧ |q - radius| ≤ 1 / 10 ^ 6
  exported : ∀ j ∈ joints, (∃ e ∈ controlNodes spec, e.1.name = j.name) ∧ ∀ e ∈ controlNodes spec, e.1.name = j.name →
    ∃ written, mjcfJoint e.1 e.2 = some written ∧ readLimit written.lower = some (floatValue j.lowerRad) ∧
      readLimit written.upper = some (floatValue j.upperRad) ∧ written.motor = xmlEscape j.motorName
  motors : (joints.map GroundTrainingJoint.motorName).Nodup

/-- The names of the nodes with a control joint on some sides. -/
def controlNames (spec : ModelSpec) (keep : String → Bool) : List String :=
  ((controlNodes spec).filter fun e => keep (sideOf e.1.name)).map fun e => e.1.name

/-- The positive radii of the cylinders on these nodes. -/
def Radii (spec : ModelSpec) (keep : String → Bool) : Set ℚ :=
  {r | 0 < r ∧ ∃ c ∈ cylindersOn spec (controlNames spec keep), c.2 = some r}

def IsCylinder : Geom → Prop
  | .cyl .. => True
  | _ => False

/-- The double nearest to a limit with six decimals is the limit. -/
def SixDecimals (limit : Float) : Prop := nearest (roundTo 6 (floatValue limit)) = floatValue limit

instance : DecidablePred SixDecimals := fun limit =>
  inferInstanceAs (Decidable (nearest (roundTo 6 (floatValue limit)) = floatValue limit))

example : SixDecimals 2.4 ∧ ¬SixDecimals 3.141592653589793 := by decide +kernel

/-- A contract gives every joint node a cylinder of its own; the cylinders that are left out of the radius are as close to
it as the others; no two joint nodes have one name; the axes are numbers, as in every contract that is read from JSON; and
the limits for them survive six decimals. -/
structure OwnWheels (spec : ModelSpec) (keep : String → Bool) : Prop where
  wheel : ∀ name ∈ controlNames spec keep, ∃ e ∈ spec.physicalPartsWithPaths, e.2.node = name ∧ IsCylinder e.2.geom
  leftOut : ∀ c ∈ cylindersOn spec (controlNames spec keep), ∃ q, c.2 = some q ∧ (q ≤ 0 → ∀ least greatest,
    IsLeast (Radii spec keep) least → IsGreatest (Radii spec keep) greatest → least + greatest - 2 * q ≤ 2 / 10 ^ 6)
  names : (controlNames spec keep).Nodup
  axes : ∀ e ∈ controlNodes spec, keep (sideOf e.1.name) = true → ∀ k, (along (axisOf e.2) k).isNaN = false
  limits : ∀ e ∈ controlNodes spec, keep (sideOf e.1.name) = true → ∀ limits, e.1.limits = some limits →
    SixDecimals (along limits (dominantAxis e.2)).fst ∧ SixDecimals (along limits (dominantAxis e.2)).snd

/-! ### Joints and nodes -/

theorem groundJoint_eq_ok {node : Node} {joint : Joint} {j : GroundTrainingJoint} (h : groundJoint node joint = .ok j) :
    j.name = node.name ∧ j.motorName = s!"{node.name}_motor" ∧ j.side = sideOf node.name ∧
    ∃ limits, node.limits = some limits ∧ j.lowerRad = (along limits (dominantAxis joint)).fst ∧
      j.upperRad = (along limits (dominantAxis joint)).snd ∧ j.lowerRad.isFinite = true ∧ j.upperRad.isFinite = true := by
  obtain ⟨torque, -, h⟩ := bind_eq_ok.mp h
  obtain ⟨velocity, -, h⟩ := bind_eq_ok.mp h
  obtain ⟨-, h⟩ := ite_error_eq_ok.mp h
  obtain ⟨limits, hlimits, h⟩ := bind_eq_ok.mp h
  obtain ⟨hfinite, h⟩ := ite_error_eq_ok.mp h
  simp only [not_or, not_not] at hfinite
  have hnode : node.limits = some limits := by
    cases hl : node.limits with
    | none =>
      rw [hl] at hlimits
      cases hlimits
    | some l =>
      rw [hl] at hlimits
      cases hlimits
      rfl
  obtain rfl := pure_eq_ok.mp h
  exact ⟨rfl, rfl, rfl, limits, hnode, rfl, rfl, hfinite.1, hfinite.2.1⟩

/-- Every control joint is that of a node, in the order of the nodes. -/
theorem groundControlJoints_eq_ok {spec : ModelSpec} {joints : List GroundTrainingJoint}
    (h : groundControlJoints spec = .ok joints) :
    List.Forall₂ (fun e j => groundJoint e.1 e.2 = .ok j) (controlNodes spec) joints := by
  obtain ⟨all, hall, h⟩ := bind_eq_ok.mp h
  obtain ⟨-, h⟩ := ite_error_eq_ok.mp h
  obtain rfl := pure_eq_ok.mp h
  exact mapM_eq_ok.mp hall

section

variable {spec : ModelSpec} {all : List GroundTrainingJoint} {keep : String → Bool}

/-- The joints that are kept are those of the nodes on these sides. -/
theorem names_eq (keep : String → Bool) (h : groundControlJoints spec = .ok all) :
    (all.filter fun j => keep j.side).map GroundTrainingJoint.name = controlNames spec keep := by
  have hnodes := groundControlJoints_eq_ok h
  clear h
  rw [controlNames]
  generalize controlNodes spec = nodes at hnodes
  induction hnodes with
  | nil => rfl
  | cons hhead _ ih =>
    obtain ⟨hname, -, hside, -⟩ := groundJoint_eq_ok hhead
    rw [List.filter_cons, List.filter_cons, hside]
    split_ifs
    · rw [List.map_cons, List.map_cons, hname, ih]
    · exact ih

/-- A kept joint is that of a node on these sides. -/
theorem exists_node (h : groundControlJoints spec = .ok all) {j : GroundTrainingJoint}
    (hj : j ∈ all.filter fun j => keep j.side) :
    ∃ e ∈ controlNodes spec, keep (sideOf e.1.name) = true ∧ groundJoint e.1 e.2 = .ok j := by
  obtain ⟨hj, hkeep⟩ := List.mem_filter.mp hj
  obtain ⟨e, he, hjoint⟩ := Codec.exists_of_forall₂ (groundControlJoints_eq_ok h) hj
  exact ⟨e, he, (groundJoint_eq_ok hjoint).2.2.1 ▸ hkeep, hjoint⟩

/-- A node on these sides has a joint that is kept. -/
theorem exists_joint (h : groundControlJoints spec = .ok all) {e : Node × Joint} (he : e ∈ controlNodes spec)
    (hkeep : keep (sideOf e.1.name) = true) :
    ∃ j ∈ all.filter fun j => keep j.side, groundJoint e.1 e.2 = .ok j := by
  obtain ⟨j, hj, hjoint⟩ := Codec.exists_of_forall₂ (groundControlJoints_eq_ok h).flip he
  exact ⟨j, List.mem_filter.mpr ⟨hj, (groundJoint_eq_ok hjoint).2.2.1 ▸ hkeep⟩, hjoint⟩

/-- Nodes of different names have one joint each. -/
theorem joint_unique (h : groundControlJoints spec = .ok all) (hd : (controlNames spec keep).Nodup) {e : Node × Joint}
    (he : e ∈ controlNodes spec) {j : GroundTrainingJoint} (hj : j ∈ all.filter fun j => keep j.side)
    (hname : e.1.name = j.name) : keep (sideOf e.1.name) = true ∧ groundJoint e.1 e.2 = .ok j := by
  obtain ⟨e', he', hkeep', hjoint⟩ := exists_node h hj
  have hsame : e.1.name = e'.1.name := hname.trans (groundJoint_eq_ok hjoint).1
  have hkeep : keep (sideOf e.1.name) = true := hsame ▸ hkeep'
  obtain rfl : e = e' := List.inj_on_of_nodup_map hd (List.mem_filter.mpr ⟨he, hkeep⟩)
    (List.mem_filter.mpr ⟨he', hkeep'⟩) hsame
  exact ⟨hkeep, hjoint⟩

end

/-! ### The exporter -/

/-- The motors of MJCF have the names of the bundle, escaped. -/
theorem xmlEscape_motor (name : String) : xmlEscape s!"{name}_motor" = xmlEscape name ++ "_motor".toList := by
  have happend (c : Char) (text a b : List Char) :
      replaceChar c text (a ++ b) = replaceChar c text a ++ replaceChar c text b := List.flatMap_append
  have hplain : xmlEscape "_motor" = "_motor".toList := by decide
  have hname : (s!"{name}_motor").toList = name.toList ++ "_motor".toList := String.toList_append
  rw [← hplain, xmlEscape, hname]
  simp only [xmlEscape, happend]

/-- What the exporter writes for a control joint, unless it panics. -/
theorem mjcfJoint_of_groundJoint {node : Node} {joint : Joint} {j : GroundTrainingJoint}
    (h : groundJoint node joint = .ok j) (haxis : ∀ k, (along (axisOf joint) k).isNaN = false) :
    ∃ written, mjcfJoint node joint = some written ∧ written.motor = xmlEscape j.motorName ∧
      readLimit written.lower = some (nearest (roundTo 6 (floatValue j.lowerRad))) ∧
      readLimit written.upper = some (nearest (roundTo 6 (floatValue j.upperRad))) := by
  obtain ⟨-, hmotor, -, limits, hlimits, hlower, hupper, hfinite, hfinite'⟩ := groundJoint_eq_ok h
  obtain ⟨dominant, hdominant⟩ : ∃ k, maxBy (fun a b =>
    totalCmp (along (axisOf joint) a).abs (along (axisOf joint) b).abs) = some k := ⟨_, rfl⟩
  have hchosen : dominantAxis joint = dominant := by rw [dominantAxis, hdominant, Option.getD_some]
  rw [hchosen] at hlower hupper
  have hkind : jointKindAxis node joint = some (⟨(axisOf joint).x, -(axisOf joint).z, (axisOf joint).y⟩, j.lowerRad,
      j.upperRad) := by
    rw [jointKindAxis, maxBy_partialCmp _ haxis, hdominant, hlimits, hlower, hupper]
    rfl
  rw [mjcfJoint, hkind]
  refine ⟨_, rfl, by rw [hmotor, xmlEscape_motor], ?_, ?_⟩
  · rw [readLimit, readDecimal_printedFloat (by decide) hfinite, Option.map_some]
  · rw [readLimit, readDecimal_printedFloat (by decide) hfinite', Option.map_some]

/-! ### The radius -/

theorem mem_wheelRadii {spec : ModelSpec} {joints : List GroundTrainingJoint} {r : ℚ} :
    r ∈ wheelRadii spec joints ↔ 0 < r ∧ ∃ c ∈ cylinders spec joints, c.2 = some r := by
  simp only [wheelRadii, List.mem_filterMap, Option.filter_eq_some_iff, decide_eq_true_eq]
  constructor
  · rintro ⟨c, hc, hr, hpos⟩
    exact ⟨hpos, c, hc, hr⟩
  · rintro ⟨hpos, c, hc, hr⟩
    exact ⟨c, hc, hr, hpos⟩

/-- The greatest of some positive numbers, from zero on. -/
theorem isGreatest_foldl_max {rs : List ℚ} (hne : rs ≠ []) (hpos : ∀ r ∈ rs, 0 < r) :
    IsGreatest {r | r ∈ rs} (rs.foldl max 0) := by
  cases rs with
  | nil => exact absurd rfl hne
  | cons r rs =>
    rw [List.foldl_cons, max_eq_right (hpos r List.mem_cons_self).le]
    have hmax : (r :: rs).max? = some (rs.foldl max r) := List.max?_cons'
    exact List.max?_eq_some_iff.mp hmax

/-- The radius is between the least and the greatest one, which are close together. -/
theorem roverWheelRadius_eq_ok {spec : ModelSpec} {joints : List GroundTrainingJoint} {radius : ℚ}
    (h : roverWheelRadius spec joints = .ok (some radius)) : ∃ least greatest,
      IsLeast {r | r ∈ wheelRadii spec joints} least ∧ IsGreatest {r | r ∈ wheelRadii spec joints} greatest ∧
      greatest - least ≤ 1 / 10 ^ 6 ∧ radius = (least + greatest) / 2 := by
  have hpos : ∀ r ∈ wheelRadii spec joints, 0 < r := fun r hr => (mem_wheelRadii.mp hr).1
  rw [roverWheelRadius] at h
  obtain ⟨-, h⟩ := ite_error_eq_ok.mp h
  generalize wheelRadii spec joints = radii at h hpos ⊢
  cases hmin : radii.min? with
  | none =>
    rw [hmin] at h
    cases h
  | some least =>
    rw [hmin] at h
    obtain ⟨hclose, h⟩ := ite_error_eq_ok.mp h
    obtain ⟨hmem, hleast⟩ := List.min?_eq_some_iff.mp hmin
    exact ⟨least, radii.foldl max 0, ⟨hmem, hleast⟩, isGreatest_foldl_max (List.ne_nil_of_mem hmem) hpos,
      not_lt.mp hclose, (Option.some.inj (Except.ok.inj h)).symm⟩

theorem exists_cylinder_iff {spec : ModelSpec} {names : List String} {name : String} (hname : name ∈ names) :
    (∃ c ∈ cylindersOn spec names, c.1 = name) ↔
      ∃ e ∈ spec.physicalPartsWithPaths, e.2.node = name ∧ IsCylinder e.2.geom := by
  constructor
  · rintro ⟨c, hc, rfl⟩
    obtain ⟨e, he, hc⟩ := List.mem_filterMap.mp hc
    split_ifs at hc
    split at hc
    next hgeom =>
      obtain rfl := Option.some.inj hc
      exact ⟨e, he, rfl, hgeom ▸ trivial⟩
    · cases hc
  · rintro ⟨e, he, rfl, hcylinder⟩
    cases hgeom : e.2.geom with
    | cyl r0 r1 h n =>
      exact ⟨(e.2.node, cylRadius r0 r1), List.mem_filterMap.mpr ⟨e, he, by rw [if_pos hname, hgeom]⟩, rfl⟩
    | _ =>
      rw [hgeom] at hcylinder
      exact hcylinder.elim

def wheelNode (name : String) : Node :=
  { name, parent := some "hub", pos := ⟨0.0, 0.0, 0.0⟩, rot := ⟨0.0, 0.0, 0.0⟩
    limits := some ⟨⟨-2.4, 2.4⟩, ⟨0.0, 0.0⟩, ⟨0.0, 0.0⟩⟩
    joint := some { kind := .revolute, axis := some ⟨1.0, 0.0, 0.0⟩, maxTorqueNm := some 1.0, maxVelRad := some 20.0 } }

def wheelPart (node : String) : Part :=
  { node, geom := .cyl 0.0625 none 0.03125 none, pose := none, material := .rubber, color := "#222222", explode := none
    renderBias := none, comp := none, mass := none, collision := .auto }

/-- The second wheel is on this node. -/
def rover (second : String) : ModelSpec :=
  { Geometry.glider [Geometry.hub 0.0, wheelNode "wheel_left", wheelNode "wheel_right"] with
    parts := [wheelPart "wheel_left", wheelPart second] }

/-- What is computed for a rover. -/
def wheelsOf (spec : ModelSpec) : Option (List String × List (String × Option ℚ) × Option (Option ℚ)) :=
  (groundControlJoints spec).toOption.map fun all => (all.map GroundTrainingJoint.name, cylinders spec all,
    (roverWheelRadius spec all).toOption)

theorem wheelsOf_eq_some {spec : ModelSpec} {names : List String} {found : List (String × Option ℚ)} {radius : ℚ}
    (h : wheelsOf spec = some (names, found, some (some radius))) :
    ∃ all, groundControlJoints spec = .ok all ∧ all.map GroundTrainingJoint.name = names ∧
      cylinders spec all = found ∧ roverWheelRadius spec all = .ok (some radius) := by
  obtain ⟨all, hall, h⟩ := Option.map_eq_some_iff.mp h
  simp only [Prod.mk.injEq] at h
  obtain ⟨hnames, hfound, hradius⟩ := h
  exact ⟨all, toOption_eq_some_iff.mp hall, hnames, hfound, toOption_eq_some_iff.mp hradius⟩

end Forge.Training
