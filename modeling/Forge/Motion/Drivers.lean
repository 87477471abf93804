import Forge.Geometry.Doubles

/-!
# Drivers

The pose buffer of `forge-motion`, and the frames that the drive sweep samples from the biped and the multirotor
driver. A driver writes the nodes it has names for and skips those that the contract does not have; the channels that
it computes for them are a parameter (`Channels`).
-/

namespace Forge.Drivers

open Contract
open Geometry.Doubles (NodePose)

/-- `NodePose::default()` -/
def rest : NodePose := { rot := ⟨0.0, 0.0, 0.0⟩, off := ⟨0.0, 0.0, 0.0⟩ }

structure PoseBuffer where
  names : List String
  poses : List NodePose

namespace PoseBuffer

/-- `from_spec` -/
def fromSpec (spec : ModelSpec) : PoseBuffer where
  names := spec.skeleton.map Node.name
  poses := List.replicate spec.skeleton.length rest

/-- `idx` -/
def idx (b : PoseBuffer) (name : String) : Option ℕ := b.names.findIdx? (· == name)

/-- `reset` -/
def reset (b : PoseBuffer) : PoseBuffer := { b with poses := b.poses.map fun _ => rest }

/-- Writes the channels of a node, unless it is absent. -/
def write (b : PoseBuffer) (name : String) (pose : NodePose) : PoseBuffer :=
  match b.idx name with
  | some i => { b with poses := b.poses.set i pose }
  | none => b

/-- `collect` -/
def collect (b : PoseBuffer) : BTreeMap String NodePose := .ofList (b.names.zip b.poses)

end PoseBuffer

/-- The channels that the driver of a contract computes for a node in a step. -/
abbrev Channels := ModelSpec → ℕ → String → NodePose

/-- The nodes that `BipedDriver` has names for. -/
def bipedNodes : List String :=
  ["root", "chest", "head"] ++
    ["sh", "el", "ha", "hp", "kn", "an", "kx", "ex"].flatMap fun stem => [stem ++ "-1", stem ++ "1"]

/-- The nodes that `FpvDriver` has names for. -/
def fpvNodes : List String := ["root", "cam", "ant", "s0", "s1", "s2", "s3"]

/-- `tick`: every channel is reset before the nodes are written. -/
def tick (nodes : List String) (channels : String → NodePose) (b : PoseBuffer) : PoseBuffer :=
  nodes.foldl (fun b name => b.write name (channels name)) b.reset

/-- `DT` -/
def dt : Float := 1.0 / 120.0

/-- The loop over some steps: every thirtieth is sampled after its tick. -/
def sample (nodes : List String) (channels : ℕ → String → NodePose) :
    PoseBuffer → List ℕ → List (Float × BTreeMap String NodePose)
  | _, [] => []
  | b, step :: steps =>
    let b := tick nodes (channels step) b
    if (step + 1) % 30 = 0 then (Float.ofNat (step + 1) * dt, b.collect) :: sample nodes channels b steps
    else sample nodes channels b steps

/-- The frames of the drive sweep; only two archetypes have any. -/
def frames (motion : Channels) (spec : ModelSpec) : List (Float × BTreeMap String NodePose) :=
  match spec.meta.archetype with
  | .biped => sample bipedNodes (motion spec) (.fromSpec spec) (List.range 240)
  | .multirotor => sample fpvNodes (motion spec) (.fromSpec spec) (List.range 240)
  | .rover | .arm | .quadruped | .fixedwing => []

/-! ### Contracts whose nodes the driver has no names for -/

variable {nodes : List String} {b : PoseBuffer}

theorem write_absent {name : String} (h : name ∉ b.names) (pose : NodePose) : b.write name pose = b := by
  have hidx : b.idx name = none := by
    rw [PoseBuffer.idx, List.findIdx?_eq_none_iff]
    intro x hx
    simpa using fun heq : x = name => h (heq ▸ hx)
  rw [PoseBuffer.write, hidx]

theorem tick_absent (h : ∀ name ∈ nodes, name ∉ b.names) (channels : String → NodePose) :
    tick nodes channels b = b.reset := by
  unfold tick
  have hreset : ∀ name ∈ nodes, name ∉ b.reset.names := h
  generalize b.reset = r at hreset
  induction nodes with
  | nil => rfl
  | cons name nodes ih =>
    rw [List.foldl_cons, write_absent (hreset name List.mem_cons_self)]
    exact ih (fun name hname => h name (List.mem_cons_of_mem _ hname))
      fun name hname => hreset name (List.mem_cons_of_mem _ hname)

/-- A driver without any of its nodes leaves all at rest. -/
theorem sample_absent (h : ∀ name ∈ nodes, name ∉ b.names) (channels : ℕ → String → NodePose) (steps : List ℕ) :
    sample nodes channels b steps = (steps.filter fun step => (step + 1) % 30 = 0).map fun step =>
      (Float.ofNat (step + 1) * dt, b.reset.collect) := by
  have hreset : b.reset.reset = b.reset := by simp [PoseBuffer.reset]
  induction steps generalizing b with
  | nil => rfl
  | cons step steps ih =>
    have htail := @ih b.reset h (by rw [hreset, hreset])
    rw [hreset] at htail
    rw [sample, tick_absent h, htail]
    split_ifs with hstep
    · rw [List.filter_cons_of_pos (by simpa using hstep), List.map_cons]
    · rw [List.filter_cons_of_neg (by simpa using hstep)]

end Forge.Drivers
