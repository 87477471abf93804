import Forge.Contract.Model
import Forge.Data.Slab
import Forge.Data.Table
import Forge.Data.Text
import Forge.Sim.ThrustTable
import Mathlib.Algebra.Order.Field.Rat
import Mathlib.Data.List.Infix
import Mathlib.Tactic.Linarith
import Mathlib.Tactic.NormNum

/-!
# Courses

The gatekeeper of courses (`validate_envspec`, `runtime.rs`): identity, bounds, dimensions, the win order, and
whether a spawn reaches the gates of the course. A spawn that is restricted to ground archetypes reaches a gate when
no obstacle cuts the straight segment between them, seen from above.

Numbers are exact. **`clear_course`** has the two results: the clipping of the segment decides whether it meets the
rectangle of an obstacle, and an accepted course has, for every gate that its order resolves to, a spawn that reaches
it. An id resolves to the first gate that has it, so that a second gate of the same id is not looked at.
-/

namespace Forge.Sim

open Contract (Arr3)

/-! ### The document -/

structure EnvObstacle where
  id : String
  centerM : Arr3 ℚ
  sizeM : Arr3 ℚ

structure EnvPose where
  p : Arr3 ℚ

structure EnvGate where
  id : String
  pose : EnvPose
  widthM : ℚ
  heightM : ℚ

structure EnvSpawn where
  id : String
  pose : EnvPose
  archetypeFilter : List String := []

structure EnvWin where
  gateOrder : List String := []
  timeLimitS : Option ℚ := none

/-- `ENVSPEC_SCHEMA_VERSION` -/
def envspecSchemaVersion : String := "1.0.0"

/-- What the gatekeeper reads of a course. -/
structure EnvSpec where
  id : String
  name : String
  schemaVersion : String := envspecSchemaVersion
  version : String := "0.1.0"
  boundsM : Arr3 ℚ
  tasks : List String := []
  obstacles : List EnvObstacle := []
  gates : List EnvGate := []
  spawns : List EnvSpawn := []
  win : Option EnvWin := none

structure EnvDiagnostic where
  check : String
  severity : String
  message : String
deriving DecidableEq

/-! ### Versions -/

/-- Three parts, each a nonempty run of digits. -/
def validSemver (value : String) : Bool :=
  match value.toList.splitOn '.' with
  | [major, minor, patch] => [major, minor, patch].all fun part => !part.isEmpty && part.all Char.isDigit
  | _ => false

def sameSemverMajor (value expected : String) : Bool :=
  validSemver value && (value.toList.splitOn '.').head? = (expected.toList.splitOn '.').head?

/-! ### Sizes and bounds -/

/-- `[f64; 3]` as the list that is iterated over. -/
def components (a : Arr3 ℚ) : List ℚ := [a.x, a.y, a.z]

/-- Not a positive finite number. -/
def invalidSize (value : ℚ) : Bool := !Machine.isFinite value || value ≤ 0

def insideBounds (p bounds : Arr3 ℚ) : Bool :=
  ((components p).zip (components bounds)).all fun (coord, bound) => Machine.isFinite coord && |coord| ≤ bound / 2

/-! ### Reachability -/

/-- Clip the window of parameters by one axis of a rectangle, and say whether something is left. -/
def clipSegmentAxis (origin delta min max : ℚ) (t : ℚ × ℚ) : Bool × (ℚ × ℚ) :=
  if |delta| < 1 / 10 ^ 12 then (origin ≥ min && origin ≤ max, t)
  else
    let t := Slab.clip origin delta min max t
    (t.1 ≤ t.2, t)

def segmentIntersectsObstacleXz (a b : Arr3 ℚ) (obstacle : EnvObstacle) : Bool :=
  if (components obstacle.sizeM).any invalidSize then false
  else
    let minX := obstacle.centerM.x - obstacle.sizeM.x / 2
    let maxX := obstacle.centerM.x + obstacle.sizeM.x / 2
    let minZ := obstacle.centerM.z - obstacle.sizeM.z / 2
    let maxZ := obstacle.centerM.z + obstacle.sizeM.z / 2
    let (hitsX, t) := clipSegmentAxis a.x (b.x - a.x) minX maxX (0, 1)
    let (hitsZ, t) := clipSegmentAxis a.z (b.z - a.z) minZ maxZ t
    hitsX && hitsZ && t.1 ≤ t.2

/-- `str::contains` -/
def contains (s needle : String) : Bool := needle.toList <:+: s.toList

/-- The words of a filter that mean an archetype on the ground. -/
def groundWords : List String := ["rover", "legged", "quadruped", "biped", "wheeled", "ground"]

def groundArchetype (spawn : EnvSpawn) : Bool :=
  spawn.archetypeFilter.any fun filter =>
    let filter := String.ofList (filter.toList.map Char.toLower)
    groundWords.any (contains filter)

def spawnCanReachGate (spawn : EnvSpawn) (gate : EnvGate) (obstacles : List EnvObstacle) : Bool :=
  if !groundArchetype spawn then true
  else !obstacles.any fun obstacle => segmentIntersectsObstacleXz spawn.pose.p gate.pose.p obstacle

/-- The win order of a course; it is empty where there is none. -/
def EnvSpec.order (env : EnvSpec) : List String := (env.win.map EnvWin.gateOrder).getD []

def reachableGoalGates (env : EnvSpec) : List EnvGate :=
  if env.order.isEmpty then env.gates
  else env.order.filterMap fun id => Table.find EnvGate.id id env.gates

/-! ### The gatekeeper -/

/-- `diag`, where something is wrong. -/
def diag (wrong : Bool) (check message : String) : List EnvDiagnostic :=
  if wrong then [{ check, severity := "error", message }] else []

def obstacleDiagnostics (bounds : Arr3 ℚ) (obstacle : EnvObstacle) : List EnvDiagnostic :=
  diag ((components obstacle.sizeM).any invalidSize) "ENV-004" s!"obstacle '{obstacle.id}' has invalid size_m" ++
    diag (!insideBounds obstacle.centerM bounds) "ENV-004" s!"obstacle '{obstacle.id}' is outside bounds_m"

def gateDiagnostics (bounds : Arr3 ℚ) (gate : EnvGate) : List EnvDiagnostic :=
  diag (Text.trim gate.id = "" || invalidSize gate.widthM || invalidSize gate.heightM) "ENV-004"
      s!"gate '{gate.id}' has invalid dimensions" ++
    diag (!insideBounds gate.pose.p bounds) "ENV-002" s!"gate '{gate.id}' is outside bounds_m"

def winDiagnostics (gates : List EnvGate) (win : EnvWin) : List EnvDiagnostic :=
  diag (win.timeLimitS.any invalidSize) "ENV-003" "win.time_limit_s must be positive finite seconds" ++
    win.gateOrder.flatMap fun gateId =>
      diag (!gates.any fun gate => gate.id = gateId) "ENV-002" s!"win gate_order references missing gate '{gateId}'"

def validateEnvspec (env : EnvSpec) : List EnvDiagnostic :=
  diag (!sameSemverMajor env.schemaVersion envspecSchemaVersion) "ENV-000"
      s!"unsupported EnvSpec schema version '{env.schemaVersion}' (supported major: 1)" ++
    diag (Text.trim env.id = "" || Text.trim env.name = "") "ENV-001" "EnvSpec id/name are required" ++
    diag (!validSemver env.version) "ENV-001" "EnvSpec version must be semantic major.minor.patch" ++
    diag ((components env.boundsM).any invalidSize) "ENV-002" "bounds_m must be positive finite meters" ++
    diag env.tasks.isEmpty "ENV-003" "at least one task adapter is required" ++
    diag env.spawns.isEmpty "ENV-001" "at least one spawn is required" ++
    (env.spawns.flatMap fun spawn =>
      diag (!insideBounds spawn.pose.p env.boundsM) "ENV-001" s!"spawn '{spawn.id}' is outside bounds_m") ++
    env.obstacles.flatMap (obstacleDiagnostics env.boundsM) ++
    env.gates.flatMap (gateDiagnostics env.boundsM) ++
    (env.win.map (winDiagnostics env.gates)).getD [] ++
    (reachableGoalGates env).flatMap fun gate =>
      diag (!env.spawns.any fun spawn => spawnCanReachGate spawn gate env.obstacles) "ENV-002"
        s!"no reachable spawn-to-gate path for '{gate.id}'"

/-! ### What a segment meets -/

/-- Every size is a positive number. -/
def Sized (obstacle : EnvObstacle) : Prop := 0 < obstacle.sizeM.x ∧ 0 < obstacle.sizeM.y ∧ 0 < obstacle.sizeM.z

/-- The point `(x, z)` is in the closed rectangle that the obstacle covers, seen from above. -/
def Covers (obstacle : EnvObstacle) (x z : ℚ) : Prop :=
  x ∈ Set.Icc (obstacle.centerM.x - obstacle.sizeM.x / 2) (obstacle.centerM.x + obstacle.sizeM.x / 2) ∧
    z ∈ Set.Icc (obstacle.centerM.z - obstacle.sizeM.z / 2) (obstacle.centerM.z + obstacle.sizeM.z / 2)

/-- Some point of the closed segment is covered by the obstacle. -/
def Meets (a b : Arr3 ℚ) (obstacle : EnvObstacle) : Prop :=
  ∃ t : ℚ, 0 ≤ t ∧ t ≤ 1 ∧ Covers obstacle (a.x + t * (b.x - a.x)) (a.z + t * (b.z - a.z))

/-- A difference is zero, or not so small that it is taken for zero. -/
def Resolved (delta : ℚ) : Prop := delta = 0 ∨ 1 / 10 ^ 12 ≤ |delta|

/-- The differences of two points in the plane are resolved. -/
def Apart (a b : Arr3 ℚ) : Prop := Resolved (b.x - a.x) ∧ Resolved (b.z - a.z)

@[simp] theorem invalidSize_iff (value : ℚ) : invalidSize value = true ↔ value ≤ 0 := by
  simp [invalidSize, Machine.isFinite]

theorem any_invalidSize_iff (obstacle : EnvObstacle) :
    (components obstacle.sizeM).any invalidSize = false ↔ Sized obstacle := by
  simp [components, Sized, ← Bool.not_eq_true]

/-- What one clipping says about a parameter: it is kept when it was in the window and the segment is in the slab
there. -/
theorem clipSegmentAxis_spec {delta min max : ℚ} (origin : ℚ) (hdelta : Resolved delta) (hle : min ≤ max)
    (w : ℚ × ℚ) (t : ℚ) :
    (clipSegmentAxis origin delta min max w).1 = true ∧ t ∈ Slab.span (clipSegmentAxis origin delta min max w).2 ↔
      t ∈ Slab.span w ∧ origin + t * delta ∈ Set.Icc min max := by
  rw [clipSegmentAxis]
  rcases hdelta with rfl | hdelta
  · rw [if_pos (by norm_num), mul_zero, add_zero, Set.mem_Icc]
    simp only [Bool.and_eq_true, decide_eq_true_eq]
    exact and_comm
  · have hne : delta ≠ 0 := by
      rintro rfl
      norm_num at hdelta
    rw [if_neg (not_lt.mpr hdelta), ← Slab.mem_clip hne hle, decide_eq_true_eq, and_iff_right_iff_imp]
    exact fun ht => Slab.exists_span.mp ⟨t, ht⟩

/-- The clipping decides whether the segment meets the obstacle. -/
theorem segmentIntersectsObstacleXz_iff {a b : Arr3 ℚ} (hapart : Apart a b) (obstacle : EnvObstacle) :
    segmentIntersectsObstacleXz a b obstacle = true ↔ Sized obstacle ∧ Meets a b obstacle := by
  rw [segmentIntersectsObstacleXz]
  cases hsize : (components obstacle.sizeM).any invalidSize with
  | true =>
    have hnot : ¬ Sized obstacle := by
      rw [← any_invalidSize_iff, hsize]
      decide
    simp [hnot]
  | false =>
    have hsized := (any_invalidSize_iff obstacle).mp hsize
    have hx := hsized.1
    have hz := hsized.2.2
    have hspecX := clipSegmentAxis_spec a.x hapart.1
      (show obstacle.centerM.x - obstacle.sizeM.x / 2 ≤ obstacle.centerM.x + obstacle.sizeM.x / 2 by linarith) (0, 1)
    have hspecZ := clipSegmentAxis_spec a.z hapart.2
      (show obstacle.centerM.z - obstacle.sizeM.z / 2 ≤ obstacle.centerM.z + obstacle.sizeM.z / 2 by linarith)
      (clipSegmentAxis a.x (b.x - a.x) (obstacle.centerM.x - obstacle.sizeM.x / 2)
        (obstacle.centerM.x + obstacle.sizeM.x / 2) (0, 1)).2
    simp only [Bool.false_eq_true, if_false, Bool.and_eq_true, decide_eq_true_eq, ← Slab.exists_span,
      hsized, true_and]
    rw [and_assoc, ← exists_and_left, ← exists_and_left, Meets]
    refine exists_congr fun t => ?_
    rw [hspecZ t, ← and_assoc, hspecX t]
    simp only [Slab.span, Set.mem_Icc, Covers, and_assoc]

/-! ### What acceptance says -/

@[simp] theorem diag_eq_nil (wrong : Bool) (check message : String) :
    diag wrong check message = [] ↔ wrong = false := by
  cases wrong <;> simp [diag]

/-- The obstacles of an accepted course have sizes. -/
theorem sized_of_accepted {env : EnvSpec} (h : validateEnvspec env = []) :
    ∀ obstacle ∈ env.obstacles, Sized obstacle := by
  intro obstacle hobstacle
  simp only [validateEnvspec, List.append_eq_nil_iff, List.flatMap_eq_nil_iff] at h
  have hdiag := h.1.1.1.2 obstacle hobstacle
  simp only [obstacleDiagnostics, List.append_eq_nil_iff, diag_eq_nil] at hdiag
  exact (any_invalidSize_iff obstacle).mp hdiag.1

/-- A spawn of an accepted course reaches each gate that was looked at. -/
theorem reached_of_accepted {env : EnvSpec} (h : validateEnvspec env = []) :
    ∀ gate ∈ reachableGoalGates env, ∃ spawn ∈ env.spawns, spawnCanReachGate spawn gate env.obstacles = true := by
  intro gate hgate
  simp only [validateEnvspec, List.append_eq_nil_iff, List.flatMap_eq_nil_iff] at h
  have hdiag := h.2 gate hgate
  rwa [diag_eq_nil, Bool.not_eq_false', List.any_eq_true] at hdiag

/-- The win order has the gate's id, or there is no order and the gate is one of the course. -/
def RefersTo (env : EnvSpec) (gate : EnvGate) : Prop :=
  gate ∈ env.gates ∧ (env.order = [] ∨ gate.id ∈ env.order)

/-- The gate is the first one with some id of the win order, or there is no order and the gate is one of the course. -/
def ResolvesTo (env : EnvSpec) (gate : EnvGate) : Prop :=
  if env.order = [] then gate ∈ env.gates
  else ∃ id ∈ env.order, Table.find EnvGate.id id env.gates = some gate

/-- Some spawn is not restricted to the ground, or sees the gate along a segment that meets no obstacle. -/
def Reachable (env : EnvSpec) (gate : EnvGate) : Prop :=
  ∃ spawn ∈ env.spawns, groundArchetype spawn = false ∨
    ∀ obstacle ∈ env.obstacles, ¬ Meets spawn.pose.p gate.pose.p obstacle

theorem ResolvesTo.mem {env : EnvSpec} {gate : EnvGate} (h : ResolvesTo env gate) : gate ∈ env.gates := by
  rw [ResolvesTo] at h
  split at h
  · exact h
  · obtain ⟨id, -, hfound⟩ := h
    exact (Table.find_some hfound).1

theorem mem_reachableGoalGates (env : EnvSpec) (gate : EnvGate) :
    gate ∈ reachableGoalGates env ↔ ResolvesTo env gate := by
  rw [reachableGoalGates, ResolvesTo]
  cases env.order with
  | nil => simp
  | cons id ids => simp

/-- With distinct ids, an order resolves to all that it refers to. -/
theorem ResolvesTo.of_refersTo {env : EnvSpec} (hids : (env.gates.map EnvGate.id).Nodup) {gate : EnvGate}
    (h : RefersTo env gate) : ResolvesTo env gate := by
  obtain ⟨hmem, horder⟩ := h
  rw [ResolvesTo]
  split
  · exact hmem
  · next hne => exact ⟨gate.id, horder.resolve_left hne, (Table.find_eq_some_iff hids).mpr ⟨hmem, rfl⟩⟩

theorem reachable_of_accepted {env : EnvSpec} {gate : EnvGate}
    (hapart : ∀ spawn ∈ env.spawns, Apart spawn.pose.p gate.pose.p) (h : validateEnvspec env = [])
    (hgate : ResolvesTo env gate) : Reachable env gate := by
  obtain ⟨spawn, hspawn, hreach⟩ := reached_of_accepted h gate ((mem_reachableGoalGates env gate).mpr hgate)
  refine ⟨spawn, hspawn, ?_⟩
  cases hground : groundArchetype spawn with
  | false => exact .inl rfl
  | true =>
    refine .inr fun obstacle hobstacle hmeets => ?_
    have hfree : segmentIntersectsObstacleXz spawn.pose.p gate.pose.p obstacle = false := by
      simp only [spawnCanReachGate, hground, Bool.not_true, Bool.false_eq_true, if_false, Bool.not_eq_true',
        List.any_eq_false, Bool.not_eq_true] at hreach
      exact hreach obstacle hobstacle
    have hhit := (segmentIntersectsObstacleXz_iff (hapart spawn hspawn) obstacle).mpr
      ⟨sized_of_accepted h obstacle hobstacle, hmeets⟩
    rw [hfree] at hhit
    cases hhit

/-- **Key result**: the clipping decides whether a segment meets an obstacle, and in an accepted course every gate
that the order resolves to is reachable; with distinct ids these are all gates that it refers to. -/
theorem clear_course :
    (∀ (a b : Arr3 ℚ) (obstacle : EnvObstacle), Apart a b →
      (segmentIntersectsObstacleXz a b obstacle = true ↔ Sized obstacle ∧ Meets a b obstacle)) ∧
    ∀ env : EnvSpec, (∀ spawn ∈ env.spawns, ∀ gate ∈ env.gates, Apart spawn.pose.p gate.pose.p) →
      validateEnvspec env = [] →
      (∀ gate, ResolvesTo env gate → Reachable env gate) ∧
        ((env.gates.map EnvGate.id).Nodup → ∀ gate, RefersTo env gate → Reachable env gate) := by
  refine ⟨fun a b obstacle hapart => segmentIntersectsObstacleXz_iff hapart obstacle, fun env hapart hvalid => ?_⟩
  have hreach (gate : EnvGate) (hgate : ResolvesTo env gate) : Reachable env gate :=
    reachable_of_accepted (fun spawn hspawn => hapart spawn hspawn gate hgate.mem) hvalid hgate
  exact ⟨hreach, fun hids gate hgate => hreach gate (.of_refersTo hids hgate)⟩

/-! ### A rover behind a wall -/

def roverAt (x : ℚ) : EnvSpawn where
  id := "start"
  pose := { p := ⟨x, 0, 0⟩ }
  archetypeFilter := ["Rover"]

def gateAt (id : String) (x : ℚ) : EnvGate where
  id
  pose := { p := ⟨x, 1 / 2, 0⟩ }
  widthM := 1
  heightM := 4 / 5

/-- A rover in front of a wall, and gates of one id on either side of it. -/
def walled : EnvSpec where
  id := "course-c"
  name := "Course C"
  boundsM := ⟨12, 4, 6⟩
  tasks := ["line-follow"]
  obstacles := [{ id := "wall", centerM := ⟨0, 1 / 2, 0⟩, sizeM := ⟨3 / 2, 1, 4⟩ }]
  gates := [gateAt "finish" (-2), gateAt "finish" 4]
  spawns := [roverAt (-4)]
  win := some { gateOrder := ["finish"], timeLimitS := some 45 }

theorem walled_accepted : validateEnvspec walled = [] := by decide +kernel

theorem walled_apart : ∀ spawn ∈ walled.spawns, ∀ gate ∈ walled.gates, Apart spawn.pose.p gate.pose.p := by
  simp only [walled, List.forall_mem_cons, List.not_mem_nil, false_imp_iff, implies_true, and_true, Apart, Resolved,
    roverAt, gateAt]
  norm_num

theorem clear_course_walled : Apart ⟨-4, 0, 0⟩ ⟨4, 1 / 2, 0⟩ ∧
    (∀ obstacle, segmentIntersectsObstacleXz ⟨-4, 0, 0⟩ ⟨4, 1 / 2, 0⟩ obstacle = true ↔
      Sized obstacle ∧ Meets ⟨-4, 0, 0⟩ ⟨4, 1 / 2, 0⟩ obstacle) ∧
    validateEnvspec walled = [] ∧ ∀ gate, ResolvesTo walled gate → Reachable walled gate := by
  have hapart : Apart ⟨-4, 0, 0⟩ ⟨4, 1 / 2, 0⟩ :=
    walled_apart (roverAt (-4)) (by simp [walled]) (gateAt "finish" 4) (by simp [walled])
  exact ⟨hapart, fun obstacle => clear_course.1 _ _ obstacle hapart, walled_accepted,
    (clear_course.2 walled walled_apart walled_accepted).1⟩

/-- The second gate of the id is behind the wall, and the course is accepted. -/
theorem second_gate_unreached :
    ¬ ∀ env : EnvSpec, (∀ spawn ∈ env.spawns, ∀ gate ∈ env.gates, Apart spawn.pose.p gate.pose.p) →
      validateEnvspec env = [] → ∀ gate, RefersTo env gate → Reachable env gate := by
  intro h
  obtain ⟨spawn, hspawn, hreach⟩ := h walled walled_apart walled_accepted (gateAt "finish" 4) (by
    simp [RefersTo, walled, EnvSpec.order, gateAt])
  obtain rfl : spawn = roverAt (-4) := by simpa [walled] using hspawn
  rcases hreach with hground | hclear
  · exact absurd hground (by decide +kernel)
  · refine hclear _ List.mem_cons_self ⟨1 / 2, by norm_num, by norm_num, ?_⟩
    simp only [Covers, roverAt, gateAt, Set.mem_Icc]
    norm_num

end Forge.Sim
