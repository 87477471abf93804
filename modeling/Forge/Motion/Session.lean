import Forge.Geometry.Pose
import Forge.Motion.Drivers
import Mathlib.Data.Rat.Floor
import Mathlib.Tactic.Linarith

/-!
# Sessions

`CoreSession` of `forge-wasm`: motion advances in fixed steps of a 120th of a second, and the time that is left over
waits in an accumulator. Time is exact; what the drivers and the policy observer compute is a parameter (`DriverLib`),
and so is the rounding to `f32` in the pose buffer. Counters are machine words, which wrap in a release build.

The **key result** is `step_sequence`: only the sum of some intervals matters. Stepping through any intervals with this
sum ends in the same session, whose driver was ticked once for every counted step at the time of that step. The numbers
of steps that are returned have the same sum as words, and as numbers unless one call runs `2 ^ 32` steps or more:
`count_wraps`.
-/

namespace Forge.Session

open Contract Forge.Geometry
open Drivers (PoseBuffer)

structure InputFrame where
  throttle : Float
  pitch : Float
  roll : Float
  yaw : Float
  drive : Float
  turn : Float

structure StickInput where
  mx : Float
  mz : Float
  yaw : Float
  thr : Float
  run : Bool

/-- The drivers of `forge-motion` and the observer of a policy. A tick has a time step, and some have the absolute time
after it. -/
structure DriverLib where
  Fpv : Type
  Biped : Type
  Rover : Type
  Quad : Type
  Observer : Type
  newFpv : ModelSpec → Fpv
  newBiped : ModelSpec → Biped
  newRover : ModelSpec → Rover
  newQuad : ModelSpec → Quad
  newObserver : ModelSpec → Fpv → Except String Observer
  tickFpv : StickInput → ℚ → ℚ → Fpv → Fpv
  tickBiped : StickInput → Arr3 Float → ℚ → ℚ → Biped → Biped
  tickRover : InputFrame → ℚ → Rover → Rover
  tickQuad : InputFrame → ℚ → Quad → Quad
  stepObserver : Fpv → InputFrame → Observer → Observer
  fpvPoses : Fpv → PoseBuffer
  bipedPoses : Biped → PoseBuffer
  roverPose : Rover → Arr3 Float
  jointTargets : Quad → List (String × Float)
  quadBody : Quad → Arr3 Float

/-- `DT` -/
def DT : ℚ := 1 / 120

/-- `CAM_FORWARD` -/
def camForward : Arr3 Float := ⟨0.0, 0.0, 1.0⟩

inductive DriverState (L : DriverLib) where
  | multirotor (driver : L.Fpv)
  | biped (driver : L.Biped)
  | rover (driver : L.Rover)
  | quadruped (driver : L.Quad) (angles : BTreeMap String Float)
  /-- Archetypes without a driver hold the idle pose. -/
  | static

/-- A session without its accumulator, which a fixed step does not touch. -/
structure State (L : DriverLib) where
  spec : ModelSpec
  nodeNames : List String
  driver : DriverState L
  policyObserver : Option L.Observer
  policyObserverError : Option String
  /-- Sixteen numbers for each node, column by column. -/
  pose : List Float32
  jog : BTreeMap String (Arr2 Float)
  ticks : UInt64

structure CoreSession (L : DriverLib) extends State L where
  accumulator : ℚ

section

variable {K : Type} [DivisionRing K] (E : Exact K) (asF32 : K → Float32) {L : DriverLib}

/-- `body_offset` -/
def bodyOffset (body : Arr3 Float) : Mat4 K :=
  let s := E.sin body.z
  let c := E.cos body.z
  .ofColumns ![c, 0, -s, 0,
               0, 1, 0, 0,
               s, 0, c, 0,
               num body.x, 0, num body.y, 1]

/-! ### Poses -/

/-- `pose_map` -/
def poseMap (poses : PoseBuffer) : BTreeMap String (Arr3 Float × Arr3 Float) :=
  .ofList (poses.names.zip (poses.poses.map fun p => (p.rot, p.off)))

/-- `apply_jog` -/
def applyJog (jog : BTreeMap String (Arr2 Float)) (poses : BTreeMap String (Arr3 Float × Arr3 Float)) :
    BTreeMap String (Arr3 Float × Arr3 Float) :=
  jog.entries.foldl (fun poses e =>
    match poses.get e.1 with
    | some (rot, off) => poses.insert e.1 (⟨rot.x + e.2.fst, rot.y + e.2.snd, rot.z⟩, off)
    | none => poses) poses

/-- `write_world` -/
def writeWorld (world : BTreeMap String (Mat4 K)) (s : State L) : State L :=
  { s with
    pose := s.nodeNames.zipIdx.foldl (fun pose e =>
      match world.get e.1 with
      | some m => (List.finRange 4).foldl (fun pose (c : Fin 4) =>
          (List.finRange 4).foldl (fun pose (r : Fin 4) => pose.set (e.2 * 16 + 4 * c + r) (asF32 (m r c))) pose) pose
      | none => pose) s.pose }

/-- Writes the transforms, unless they could not be computed. -/
def writeResult (world : Except BakeError (BTreeMap String (Mat4 K))) (s : State L) : Except String Unit × State L :=
  match world with
  | .error e => (.error e.text, s)
  | .ok world => (.ok (), writeWorld asF32 world s)

/-- `write_pose` -/
def writePose (rootOffset : Option (Mat4 K)) (angles : BTreeMap String Float) (s : State L) :
    Except String Unit × State L := writeResult asF32 (nodeWorldWithJoints E s.spec angles rootOffset) s

/-- The end of a step of the drivers that move every node. -/
def writePosed (poses : PoseBuffer) (s : State L) : Except String Unit × State L :=
  writeResult asF32 (nodeWorldPosed E s.spec (applyJog s.jog (poseMap poses))) s

/-! ### Steps -/

/-- The tick of the driver in a fixed step, at the absolute time `t`. -/
def tickDriver (input : InputFrame) (t : ℚ) : DriverState L → DriverState L
  | .multirotor driver =>
    .multirotor (L.tickFpv
      { mx := input.roll, mz := input.pitch, yaw := input.yaw, thr := input.throttle, run := false } DT t driver)
  | .biped driver =>
    .biped (L.tickBiped { mx := input.roll, mz := input.drive, yaw := input.turn, thr := 0.0, run := false } camForward
      DT t driver)
  | .rover driver => .rover (L.tickRover input DT driver)
  | .quadruped driver _ =>
    let driver := L.tickQuad input DT driver
    .quadruped driver (.ofList (L.jointTargets driver))
  | .static => .static

/-- The absolute time of the next step. -/
def nextTime (ticks : UInt64) : ℚ := ((ticks + 1).toNat : ℚ) * DT

/-- `fixed_step` -/
def fixedStep (input : InputFrame) (s : State L) : Except String Unit × State L :=
  let s := { s with driver := tickDriver input (nextTime s.ticks) s.driver }
  match s.driver with
  | .multirotor driver =>
    writePosed E asF32 (L.fpvPoses driver)
      { s with policyObserver := s.policyObserver.map (L.stepObserver driver input) }
  | .biped driver => writePosed E asF32 (L.bipedPoses driver) s
  | .rover driver => writePose E asF32 (some (bodyOffset E (L.roverPose driver))) .empty s
  | .quadruped driver angles => writePose E asF32 (some (bodyOffset E (L.quadBody driver))) angles s
  | .static => (.ok (), s)

/-- The loop of `step`, for at most some turns. -/
def stepLoop (input : InputFrame) : ℕ → UInt32 → CoreSession L → Except String UInt32 × CoreSession L
  | 0, steps, s => (.ok steps, s)
  | turns + 1, steps, s =>
    if s.accumulator < DT then (.ok steps, s)
    else
      match fixedStep E asF32 input s.toState with
      | (.error e, state) => (.error e, ⟨state, s.accumulator - DT⟩)
      | (.ok (), state) =>
        stepLoop input turns (steps + 1) ⟨{ state with ticks := state.ticks + 1 }, s.accumulator - DT⟩

/-- `step`; the loop has as many turns as the accumulator has steps. -/
def step (input : InputFrame) (dt : ℚ) (s : CoreSession L) : Except String UInt32 × CoreSession L :=
  let s := { s with accumulator := s.accumulator + max dt 0 }
  stepLoop E asF32 input ⌊s.accumulator / DT⌋₊ 0 s

/-- Steps through some intervals. -/
def stepAll (input : InputFrame) : List ℚ → CoreSession L → Except String (List UInt32) × CoreSession L
  | [], s => (.ok [], s)
  | dt :: dts, s =>
    match step E asF32 input dt s with
    | (.error e, s) => (.error e, s)
    | (.ok n, s) =>
      match stepAll input dts s with
      | (.error e, s) => (.error e, s)
      | (.ok ns, s) => (.ok (n :: ns), s)

/-! ### Sessions -/

/-- The driver for an archetype. -/
def newDriver (L : DriverLib) (spec : ModelSpec) : DriverState L :=
  match spec.meta.archetype with
  | .multirotor => .multirotor (L.newFpv spec)
  | .biped => .biped (L.newBiped spec)
  | .rover => .rover (L.newRover spec)
  | .quadruped => .quadruped (L.newQuad spec) .empty
  | _ => .static

/-- The observer of a policy, or why there is none. -/
def newObserver (spec : ModelSpec) : DriverState L → Except String L.Observer
  | .multirotor driver => L.newObserver spec driver
  | _ => .error "browser ONNX policy playback currently supports multirotor contracts only"

/-- `new`, for a contract that was read. -/
def new (L : DriverLib) (spec : ModelSpec) : Except String (CoreSession L) :=
  let driver := newDriver L spec
  let observer := newObserver spec driver
  let state : State L :=
    { spec, nodeNames := spec.skeleton.map Node.name, driver, policyObserver := observer.toOption
      policyObserverError := match observer with | .ok _ => none | .error e => some e
      pose := List.replicate (spec.skeleton.length * 16) 0, jog := .empty, ticks := 0 }
  match writePose E asF32 none .empty state with
  | (.error e, _) => .error e
  | (.ok (), state) => .ok ⟨state, 0⟩

/-- `set_jog` -/
def setJog (node : String) (rx ry : Float) (s : CoreSession L) : CoreSession L :=
  if rx == 0.0 && ry == 0.0 then { s with jog := s.jog.erase node } else { s with jog := s.jog.insert node ⟨rx, ry⟩ }

/-- `clear_jog` -/
def clearJog (s : CoreSession L) : CoreSession L := { s with jog := .empty }

/-- The sessions that there can be. -/
inductive Reachable : CoreSession L → Prop
  | new {spec : ModelSpec} {s : CoreSession L} : new E asF32 L spec = .ok s → Reachable s
  | step {s : CoreSession L} (input : InputFrame) (dt : ℚ) : Reachable s → Reachable (step E asF32 input dt s).2
  | setJog {s : CoreSession L} (node : String) (rx ry : Float) : Reachable s → Reachable (setJog node rx ry s)
  | clearJog {s : CoreSession L} : Reachable s → Reachable (clearJog s)

/-! ### A fixed step -/

/-- The transforms of the skeleton can be computed. -/
def Placeable (s : State L) : Prop := ∃ w, nodeWorldWithJoints E s.spec .empty none = .ok w

variable {E} {asF32} {input : InputFrame}

theorem Placeable.joints {s : State L} (h : Placeable E s) (angles : BTreeMap String Float)
    (rootOffset : Option (Mat4 K)) : ∃ w, nodeWorldWithJoints E s.spec angles rootOffset = .ok w :=
  mapError_isOk.mpr (Forest.resolve_isOk_congr (fun _ => rfl) (mapError_isOk.mp h))

theorem Placeable.posed {s : State L} (h : Placeable E s) (poses : BTreeMap String (Arr3 Float × Arr3 Float)) :
    ∃ w, nodeWorldPosed E s.spec poses = .ok w :=
  mapError_isOk.mpr (Forest.resolve_isOk_congr (fun _ => rfl) (mapError_isOk.mp h))

/-- What keeps the parts of a session that its poses do not depend on. -/
def Keeps (s after : State L) : Prop := after.spec = s.spec ∧ after.ticks = s.ticks ∧ after.driver = s.driver

theorem writePose_eq {s : State L} (h : Placeable E s) (rootOffset : Option (Mat4 K)) (angles : BTreeMap String Float) :
    ∃ after, writePose E asF32 rootOffset angles s = (.ok (), after) ∧ Keeps s after := by
  obtain ⟨w, hw⟩ := h.joints angles rootOffset
  rw [writePose, hw]
  exact ⟨_, rfl, rfl, rfl, rfl⟩

theorem writePosed_eq {s : State L} (h : Placeable E s) (poses : PoseBuffer) :
    ∃ after, writePosed E asF32 poses s = (.ok (), after) ∧ Keeps s after := by
  obtain ⟨w, hw⟩ := h.posed (applyJog s.jog (poseMap poses))
  rw [writePosed, hw]
  exact ⟨_, rfl, rfl, rfl, rfl⟩

/-- **A fixed step does not fail**, ticks the driver once and keeps the contract and the counter. -/
theorem fixedStep_eq {s : State L} (h : Placeable E s) : ∃ after, fixedStep E asF32 input s = (.ok (), after) ∧
    after.spec = s.spec ∧ after.ticks = s.ticks ∧ after.driver = tickDriver input (nextTime s.ticks) s.driver := by
  unfold fixedStep
  dsimp only
  generalize tickDriver input (nextTime s.ticks) s.driver = ticked
  have hticked : Placeable E { s with driver := ticked } := h
  cases ticked with
  | multirotor driver =>
    have hobserved : Placeable E
      { s with driver := .multirotor driver, policyObserver := s.policyObserver.map (L.stepObserver driver input) } := h
    exact writePosed_eq hobserved _
  | biped driver => exact writePosed_eq hticked _
  | rover driver => exact writePose_eq hticked _ _
  | quadruped driver angles => exact writePose_eq hticked _ _
  | static => exact ⟨_, rfl, rfl, rfl, rfl⟩

/-! ### Steps by number -/

section

variable (E asF32 input)

/-- A fixed step that is counted. -/
def counted (s : State L) : State L :=
  let after := (fixedStep E asF32 input s).2
  { after with ticks := after.ticks + 1 }

theorem counted_spec {s : State L} (h : Placeable E s) : (counted E asF32 input s).spec = s.spec ∧
    (counted E asF32 input s).ticks = s.ticks + 1 ∧
    (counted E asF32 input s).driver = tickDriver input (nextTime s.ticks) s.driver := by
  obtain ⟨after, hafter, hspec, hticks, hdriver⟩ := @fixedStep_eq K _ E asF32 L input s h
  rw [counted, hafter]
  exact ⟨hspec, congrArg (· + 1) hticks, hdriver⟩

end

theorem Placeable.counted {s : State L} (h : Placeable E s) : Placeable E (counted E asF32 input s) := by
  rw [Placeable, (counted_spec E asF32 input h).1]
  exact h

/-- **The session after some counted steps.** -/
theorem iterate_counted {s : State L} (h : Placeable E s) (n : ℕ) :
    Placeable E ((counted E asF32 input)^[n] s) ∧
    ((counted E asF32 input)^[n] s).ticks = s.ticks + UInt64.ofNat n ∧
    ((counted E asF32 input)^[n] s).driver =
      (List.range n).foldl (fun d k => tickDriver input (nextTime (s.ticks + UInt64.ofNat k)) d) s.driver := by
  induction n with
  | zero => exact ⟨h, (UInt64.add_zero _).symm, rfl⟩
  | succ n ih =>
    obtain ⟨hplace, hticks, hdriver⟩ := ih
    obtain ⟨-, hnext, hticked⟩ := counted_spec E asF32 input hplace
    rw [Function.iterate_succ_apply']
    refine ⟨hplace.counted, ?_, ?_⟩
    · rw [hnext, hticks, UInt64.ofNat_add, UInt64.add_assoc]
      rfl
    · rw [hticked, hdriver, hticks, List.range_succ, List.foldl_append]
      rfl

/-- As many turns as the accumulator has steps all run. -/
theorem stepLoop_eq (turns : ℕ) (steps : UInt32) {s : CoreSession L} (h : Placeable E s.toState)
    (hacc : turns * DT ≤ s.accumulator) : stepLoop E asF32 input turns steps s =
      (.ok (steps + UInt32.ofNat turns), ⟨(counted E asF32 input)^[turns] s.toState, s.accumulator - turns * DT⟩) := by
  induction turns generalizing steps s with
  | zero => simp [stepLoop]
  | succ turns ih =>
    have hDT : (0 : ℚ) < DT := by norm_num [DT]
    have hmore : 0 ≤ (turns : ℚ) * DT := mul_nonneg turns.cast_nonneg hDT.le
    push_cast at hacc
    obtain ⟨after, hafter, -⟩ := @fixedStep_eq K _ E asF32 L input s.toState h
    have hcounted : counted E asF32 input s.toState = { after with ticks := after.ticks + 1 } := by
      rw [counted, hafter]
    have hrest : turns * DT ≤ (⟨counted E asF32 input s.toState, s.accumulator - DT⟩ : CoreSession L).accumulator := by
      show turns * DT ≤ s.accumulator - DT
      linarith
    rw [stepLoop, if_neg (by linarith), hafter]
    dsimp only
    rw [← hcounted, ih (steps + 1) h.counted hrest]
    refine Prod.ext ?_ ?_
    · simp only [UInt32.ofNat_add, UInt32.add_assoc, UInt32.add_comm 1]
      rfl
    · simp only [Function.iterate_succ_apply]
      push_cast
      rw [sub_sub, add_mul, one_mul, add_comm DT]

/-- A session between two steps. -/
structure Settled (E : Exact K) (s : CoreSession L) : Prop where
  placeable : Placeable E s.toState
  nonneg : 0 ≤ s.accumulator
  lt : s.accumulator < DT

theorem DT_pos : (0 : ℚ) < DT := by norm_num [DT]

/-- The session after some more counted steps. -/
def later (E : Exact K) (asF32 : K → Float32) (input : InputFrame) (s : CoreSession L) (time : ℚ) (n : ℕ) :
    CoreSession L := ⟨(counted E asF32 input)^[n] s.toState, s.accumulator + time - n * DT⟩

theorem later_later (s : CoreSession L) (a b : ℚ) (m n : ℕ) :
    later E asF32 input (later E asF32 input s a m) b n = later E asF32 input s (a + b) (m + n) := by
  simp only [later, ← Function.iterate_add_apply, Nat.add_comm m n]
  congr 1
  push_cast
  ring

/-- **A call runs as many steps as fit**, and leaves the session between two steps. -/
theorem step_eq {s : CoreSession L} (h : Settled E s) {dt : ℚ} (hdt : 0 ≤ dt) : ∃ n : ℕ,
    step E asF32 input dt s = (.ok (UInt32.ofNat n), later E asF32 input s dt n) ∧
      Settled E (later E asF32 input s dt n) := by
  have hacc : 0 ≤ (s.accumulator + dt) / DT := div_nonneg (add_nonneg h.nonneg hdt) DT_pos.le
  have hlow := Nat.floor_le hacc
  have hhigh := Nat.lt_floor_add_one ((s.accumulator + dt) / DT)
  rw [le_div_iff₀ DT_pos] at hlow
  rw [div_lt_iff₀ DT_pos] at hhigh
  refine ⟨⌊(s.accumulator + dt) / DT⌋₊, ?_, (iterate_counted h.placeable _).1, ?_, ?_⟩
  · have hwait : Placeable E { s with accumulator := s.accumulator + dt }.toState := h.placeable
    rw [step, max_eq_left hdt]
    dsimp only
    rw [stepLoop_eq _ 0 hwait hlow, UInt32.zero_add]
    rfl
  · show 0 ≤ s.accumulator + dt - _
    linarith
  · show s.accumulator + dt - _ < DT
    linarith

/-! ### Runs -/

/-- **A run is its sum**: it ends where one call with the sum of the intervals ends. -/
theorem stepAll_eq {s : CoreSession L} (h : Settled E s) {dts : List ℚ} (hdts : ∀ dt ∈ dts, 0 ≤ dt) :
    ∃ counts : List ℕ, stepAll E asF32 input dts s =
        (.ok (counts.map UInt32.ofNat), later E asF32 input s dts.sum counts.sum) ∧
      Settled E (later E asF32 input s dts.sum counts.sum) ∧
      List.Forall₂ (fun dt (n : ℕ) => n * DT < DT + dt) dts counts := by
  induction dts generalizing s with
  | nil =>
    have hsame : later E asF32 input s 0 0 = s := by simp [later]
    refine ⟨[], ?_, ?_, .nil⟩
    · simp only [stepAll, List.map_nil, List.sum_nil, hsame]
    · simpa only [List.sum_nil, hsame] using h
  | cons dt dts ih =>
    obtain ⟨n, hn, hsettled⟩ := @step_eq K _ E asF32 L input s h dt (hdts dt (List.mem_cons_self ..))
    obtain ⟨counts, hcounts, hlast, hbounds⟩ := ih hsettled fun d hd => hdts d (List.mem_cons_of_mem _ hd)
    rw [later_later] at hcounts hlast
    refine ⟨n :: counts, ?_, ?_, .cons ?_ hbounds⟩
    · simp only [stepAll, hn, hcounts, List.map_cons, List.sum_cons]
    · rwa [List.sum_cons, List.sum_cons]
    · have hleft : 0 ≤ s.accumulator + dt - n * DT := hsettled.nonneg
      linarith [h.lt]

theorem new_settled {spec : ModelSpec} {s : CoreSession L} (h : new E asF32 L spec = .ok s) : Settled E s := by
  unfold new at h
  extract_lets at h
  split at h
  next => cases h
  next state hwrite =>
    obtain rfl := Except.ok.inj h
    refine ⟨?_, le_rfl, DT_pos⟩
    rw [writePose] at hwrite
    cases hworld : nodeWorldWithJoints E spec .empty none with
    | error e =>
      rw [hworld] at hwrite
      cases hwrite
    | ok w =>
      rw [hworld] at hwrite
      obtain rfl := (Prod.mk.inj hwrite).2
      exact ⟨w, hworld⟩

theorem step_max (dt : ℚ) (s : CoreSession L) : step E asF32 input (max dt 0) s = step E asF32 input dt s := by
  simp only [step, max_assoc, max_self]

/-- **Every session is between two steps.** -/
theorem Reachable.settled {s : CoreSession L} (h : Reachable E asF32 s) : Settled E s := by
  induction h with
  | new h => exact new_settled h
  | @step s input dt _ ih =>
    obtain ⟨n, hn, hsettled⟩ := @step_eq K _ E asF32 L input s ih (max dt 0) (le_max_right ..)
    rw [← step_max, hn]
    exact hsettled
  | setJog node rx ry _ ih =>
    rw [Session.setJog]
    split
    · exact ⟨ih.placeable, ih.nonneg, ih.lt⟩
    · exact ⟨ih.placeable, ih.nonneg, ih.lt⟩
  | clearJog _ ih => exact ⟨ih.placeable, ih.nonneg, ih.lt⟩

/-! ### Two runs -/

/-- Only one number of steps leaves the session between two steps. -/
theorem settled_unique {s : CoreSession L} {time : ℚ} {m n : ℕ} (hm : Settled E (later E asF32 input s time m))
    (hn : Settled E (later E asF32 input s time n)) : m = n := by
  have hgap (m n : ℕ) (hm : Settled E (later E asF32 input s time m))
      (hn : Settled E (later E asF32 input s time n)) : m ≤ n := by
    have hlow : 0 ≤ s.accumulator + time - m * DT := hm.nonneg
    have hhigh : s.accumulator + time - n * DT < DT := hn.lt
    have hlt : (m : ℚ) * DT < (n + 1 : ℕ) * DT := by
      push_cast
      linarith
    exact Nat.lt_succ_iff.mp (by exact_mod_cast lt_of_mul_lt_mul_right hlt DT_pos.le)
  exact le_antisymm (hgap m n hm hn) (hgap n m hn hm)

theorem sum_map_ofNat (counts : List ℕ) : (counts.map UInt32.ofNat).sum = UInt32.ofNat counts.sum := by
  induction counts with
  | nil => rfl
  | cons n counts ih => rw [List.map_cons, List.sum_cons, ih, List.sum_cons, UInt32.ofNat_add]

/-- Counts below the size of a word are returned as numbers. -/
theorem sum_map_toNat {dts : List ℚ} {counts : List ℕ}
    (h : List.Forall₂ (fun dt (n : ℕ) => n * DT < DT + dt) dts counts)
    (hsmall : ∀ dt ∈ dts, dt ≤ (2 ^ 32 - 1) * DT) :
    ((counts.map UInt32.ofNat).map UInt32.toNat).sum = counts.sum := by
  induction h with
  | nil => rfl
  | @cons dt n dts counts hn _ ih =>
    have hword : n < 2 ^ 32 := by
      have hdt := hsmall dt (List.mem_cons_self ..)
      have hlt : (n : ℚ) * DT < ((2 ^ 32 : ℕ) : ℚ) * DT := by
        push_cast
        linarith
      exact_mod_cast lt_of_mul_lt_mul_right hlt DT_pos.le
    simp only [List.map_cons, List.sum_cons, UInt32.toNat_ofNat_of_lt' hword,
      ih fun d hd => hsmall d (List.mem_cons_of_mem _ hd)]

/-- **Only the sum of the intervals matters.** Stepping through intervals with the same sum ends in the same session
and never fails. `N` steps were counted, and the driver was ticked once for each of them, at the time of that step. -/
theorem step_sequence {s : CoreSession L} (h : Reachable E asF32 s) (input : InputFrame) {dts dts' : List ℚ}
    (hdts : ∀ dt ∈ dts, 0 ≤ dt) (hdts' : ∀ dt ∈ dts', 0 ≤ dt) (hsum : dts.sum = dts'.sum) :
    ∃ (after : CoreSession L) (N : ℕ) (counts counts' : List UInt32),
      stepAll E asF32 input dts s = (.ok counts, after) ∧ stepAll E asF32 input dts' s = (.ok counts', after) ∧
      counts.sum = UInt32.ofNat N ∧ counts'.sum = UInt32.ofNat N ∧
      ((∀ dt ∈ dts, dt ≤ (2 ^ 32 - 1) * DT) → (counts.map UInt32.toNat).sum = N) ∧
      ((∀ dt ∈ dts', dt ≤ (2 ^ 32 - 1) * DT) → (counts'.map UInt32.toNat).sum = N) ∧
      after.ticks = s.ticks + UInt64.ofNat N ∧
      (0 ≤ after.accumulator ∧ after.accumulator < DT ∧ after.accumulator = s.accumulator + dts.sum - N * DT) ∧
      after.driver =
        (List.range N).foldl (fun d k => tickDriver input (nextTime (s.ticks + UInt64.ofNat k)) d) s.driver := by
  obtain ⟨counts, hcounts, hsettled, hbounds⟩ := @stepAll_eq K _ E asF32 L input s h.settled dts hdts
  obtain ⟨counts', hcounts', hsettled', hbounds'⟩ := @stepAll_eq K _ E asF32 L input s h.settled dts' hdts'
  rw [← hsum] at hcounts' hsettled'
  have hsame : counts.sum = counts'.sum := settled_unique hsettled hsettled'
  rw [← hsame] at hcounts'
  obtain ⟨-, hticks, hdriver⟩ := @iterate_counted K _ E asF32 L input s.toState h.settled.placeable counts.sum
  refine ⟨_, counts.sum, _, _, hcounts, hcounts', sum_map_ofNat counts, ?_, sum_map_toNat hbounds, ?_, hticks,
    ⟨hsettled.nonneg, hsettled.lt, rfl⟩, hdriver⟩
  · rw [hsame, sum_map_ofNat]
  · rw [hsame]
    exact sum_map_toNat hbounds'

end

/-! ### Sessions of one node -/

/-- Drivers that do nothing. -/
def still : DriverLib :=
  { Fpv := Unit, Biped := Unit, Rover := Unit, Quad := Unit, Observer := Unit
    newFpv := fun _ => (), newBiped := fun _ => (), newRover := fun _ => (), newQuad := fun _ => ()
    newObserver := fun _ _ => .ok (), tickFpv := fun _ _ _ d => d, tickBiped := fun _ _ _ _ d => d
    tickRover := fun _ _ d => d, tickQuad := fun _ _ d => d
    stepObserver := fun _ _ o => o, fpvPoses := fun _ => ⟨[], []⟩, bipedPoses := fun _ => ⟨[], []⟩
    roverPose := fun _ => ⟨0.0, 0.0, 0.0⟩, jointTargets := fun _ => [], quadBody := fun _ => ⟨0.0, 0.0, 0.0⟩ }

/-- A driver of multirotors that keeps the times of its ticks. -/
def tally : DriverLib :=
  { still with
    Fpv := List ℚ, newFpv := fun _ => [], newObserver := fun _ _ => .ok (), tickFpv := fun _ _ t times => times ++ [t]
    stepObserver := fun _ _ o => o, fpvPoses := fun _ => ⟨[], []⟩ }

/-- No turns. -/
def straight : Exact ℚ := ⟨fun _ => 0, fun _ => 1, unit_unturned⟩

/-- No input. -/
def idle : InputFrame := ⟨0.0, 0.0, 0.0, 0.0, 0.0, 0.0⟩

/-- A model of one node. -/
def kite (archetype : Archetype) : ModelSpec :=
  { glider [hub 0.0] with «meta» := { (glider []).meta with archetype } }

theorem exists_parked (L : DriverLib) (archetype : Archetype) : ∃ s : CoreSession L, Reachable straight (fun _ => 0) s ∧
    s.accumulator = 0 ∧ s.ticks = 0 ∧ s.driver = newDriver L (kite archetype) := by
  have hnames : ((kite archetype).skeleton.map Node.name).Nodup := List.nodup_singleton _
  have hrooted : AllRooted (kite archetype).skeleton := by
    intro n hn
    rw [List.mem_singleton.mp hn]
    exact .root rfl
  have hresolved := skeletonResolution straight _ hnames
  obtain ⟨w, hw⟩ := (hresolved.joints .empty none).2.mpr (hresolved.isOk.mpr hrooted)
  have hnew : ∃ s, new straight (fun _ => 0) L (kite archetype) = .ok s ∧ s.accumulator = 0 ∧ s.ticks = 0 ∧
      s.driver = newDriver L (kite archetype) := by
    unfold new
    extract_lets driver observer state
    have hwrite : writePose straight (fun _ => 0) none .empty state = (.ok (), writeWorld (fun _ => 0) w state) := by
      rw [writePose, hw]
      rfl
    rw [hwrite]
    exact ⟨_, rfl, rfl, rfl, rfl⟩
  obtain ⟨s, hs, hparked⟩ := hnew
  exact ⟨s, .new hs, hparked⟩

/-- Every tick leaves its time. -/
theorem ticks_tally (input : InputFrame) (time : ℕ → ℚ) (n : ℕ) (times : List ℚ) :
    (List.range n).foldl (fun d k => tickDriver input (time k) d) (.multirotor times : DriverState tally) =
      .multirotor (times ++ (List.range n).map time) := by
  induction n with
  | zero => rw [List.range_zero, List.map_nil, List.append_nil, List.foldl_nil]
  | succ n ih =>
    rw [List.range_succ, List.foldl_append, ih, List.map_append, ← List.append_assoc]
    rfl

/-- However a second and a step are cut, the driver is ticked 121 times, each at its own time. -/
theorem step_sequence_tally : ∃ (s : CoreSession tally) (after : CoreSession tally) (counts counts' : List UInt32),
    stepAll straight (fun _ => 0) idle [1, 1 / 240, 1 / 240] s = (.ok counts, after) ∧
    stepAll straight (fun _ => 0) idle [1 / 2, 61 / 120] s = (.ok counts', after) ∧
    (counts.map UInt32.toNat).sum = 121 ∧ (counts'.map UInt32.toNat).sum = 121 ∧
    after.driver = .multirotor ((List.range 121).map fun k => nextTime (UInt64.ofNat k)) := by
  obtain ⟨s, hs, hacc, hticks, hdriver⟩ := exists_parked tally .multirotor
  obtain ⟨after, N, counts, counts', hcounts, hcounts', -, -, hsum, hsum', -, ⟨hlow, hhigh, hleft⟩, hticked⟩ :=
    @step_sequence _ _ _ _ _ s hs idle [1, 1 / 240, 1 / 240] [1 / 2, 61 / 120] (by decide +kernel) (by decide +kernel)
      (by norm_num)
  obtain rfl : N = 121 := by
    rw [hleft, hacc] at hlow hhigh
    norm_num [DT] at hlow hhigh
    have hle : (N : ℚ) ≤ (121 : ℕ) := by
      push_cast
      linarith
    have hlt : ((121 : ℕ) : ℚ) < (N + 1 : ℕ) := by
      push_cast
      linarith
    exact le_antisymm (by exact_mod_cast hle) (Nat.lt_succ_iff.mp (by exact_mod_cast hlt))
  refine ⟨s, after, counts, counts', hcounts, hcounts', hsum ?_, hsum' ?_, ?_⟩
  · norm_num [DT]
  · norm_num [DT]
  · rw [hticked, hdriver, hticks]
    exact (ticks_tally idle (fun k => nextTime (0 + UInt64.ofNat k)) 121 []).trans
      (by simp only [UInt64.zero_add, List.nil_append])

/-- A call that runs `2 ^ 32` steps returns zero. -/
theorem count_wraps : ¬ ∀ (s : CoreSession still) (dts dts' : List ℚ) (counts counts' : List UInt32)
    (after after' : CoreSession still), Reachable straight (fun _ => 0) s →
    (∀ dt ∈ dts, 0 ≤ dt) → (∀ dt ∈ dts', 0 ≤ dt) → dts.sum = dts'.sum →
    stepAll straight (fun _ => 0) idle dts s = (.ok counts, after) →
    stepAll straight (fun _ => 0) idle dts' s = (.ok counts', after') →
    (counts.map UInt32.toNat).sum = (counts'.map UInt32.toNat).sum := by
  intro hall
  obtain ⟨s, hs, hacc, -⟩ := exists_parked still .fixedwing
  have hDT : DT = 1 / 120 := rfl
  have hcount {time : ℚ} {n : ℕ} (h : Settled straight (later straight (fun _ => 0) idle s time n))
      (htime : time = 2 ^ 32 * DT) : n = 2 ^ 32 := by
    have hlow : 0 ≤ s.accumulator + time - n * DT := h.nonneg
    have hhigh : s.accumulator + time - n * DT < DT := h.lt
    rw [hacc, htime, hDT] at hlow hhigh
    have hle : (n : ℚ) ≤ (2 ^ 32 : ℕ) := by
      push_cast
      linarith
    have hlt : ((2 ^ 32 : ℕ) : ℚ) < (n + 1 : ℕ) := by
      push_cast
      linarith
    exact le_antisymm (by exact_mod_cast hle) (Nat.lt_succ_iff.mp (by exact_mod_cast hlt))
  have hlong : ∀ dt ∈ [2 ^ 32 * DT], 0 ≤ dt := by decide +kernel
  have hhalves : ∀ dt ∈ [2 ^ 31 * DT, 2 ^ 31 * DT], 0 ≤ dt := by decide +kernel
  obtain ⟨counts, hcounts, hsettled, hbounds⟩ := stepAll_eq hs.settled hlong
  obtain ⟨counts', hcounts', hsettled', hbounds'⟩ := stepAll_eq hs.settled hhalves
  have hsum := hall s _ _ _ _ _ _ hs hlong hhalves (by norm_num [DT]) hcounts hcounts'
  have htotal := hcount hsettled (by norm_num)
  have htotal' := hcount hsettled' (by norm_num [DT])
  cases hbounds with
  | @cons _ n _ _ _ hnil =>
    cases hnil
    cases hbounds' with
    | @cons _ a _ _ ha hrest =>
      cases hrest with
      | @cons _ b _ _ hb hnil =>
        cases hnil
        have hhalf {m : ℕ} (hm : (m : ℚ) * DT < DT + 2 ^ 31 * DT) : m ≤ 2 ^ 31 := by
          rw [hDT] at hm
          have hlt : (m : ℚ) < (2 ^ 31 + 1 : ℕ) := by
            push_cast
            linarith
          exact Nat.lt_succ_iff.mp (by exact_mod_cast hlt)
        have ha := hhalf ha
        have hb := hhalf hb
        simp only [List.sum_cons, List.sum_nil, add_zero] at htotal htotal'
        obtain rfl : n = 2 ^ 32 := htotal
        obtain rfl : a = 2 ^ 31 := by omega
        obtain rfl : b = 2 ^ 31 := by omega
        exact absurd hsum (by decide)

end Forge.Session
