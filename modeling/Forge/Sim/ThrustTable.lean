import Forge.Data.Numerals
import Mathlib.Algebra.Order.Ring.Rat
import Mathlib.Data.List.Sort
import Mathlib.Data.Rat.Defs

/-!
# Thrust tables

Bench data of a motor with a prop (`thrust_table.rs`): a finite grid over voltage and
throttle, from which thrust and current are interpolated bilinearly. `fromPoints` builds a
table from points in any order, `lookup` reads it, clamped to the edges of the grid.

The code computes with doubles. It is modelled over any type of numbers with the operations
that it uses, so that a result about exact arithmetic is about the same definitions.
-/

namespace Forge.Sim

/-- What the tables ask of a number beside its order and its arithmetic. -/
class Machine (α : Type) where
  isFinite : α → Bool
  /-- `total_cmp` -/
  totalCmp : α → α → Ordering

/-- The place of a double in the total order: by its bits, negative ones in reverse. -/
def totalKey (x : Float) : ℤ :=
  if x.toBits.toNat < 2 ^ 63 then x.toBits.toNat else -(x.toBits.toNat - 2 ^ 63 : ℤ) - 1

instance : Machine Float where
  isFinite := Float.isFinite
  totalCmp x y := compare (totalKey x) (totalKey y)

instance : Machine ℚ where
  isFinite _ := true
  totalCmp x y := compare x y

structure ThrustPoint (α : Type) where
  voltage : α
  /-- In `[0, 1]`. -/
  throttle : α
  thrustN : α
  currentA : α
deriving DecidableEq

structure ThrustTable (α : Type) where
  voltages : List α
  throttles : List α
  /-- Row by row, a row for each voltage. -/
  thrust : List α
  current : List α

inductive TableError where
  | empty | nonFinite | outOfBounds
  | notAGrid (expected got : ℕ)
  | duplicatePoint | unsorted | nonMonotonic
deriving DecidableEq

/-- The texts of `Display`. -/
def TableError.text : TableError → String
  | .empty => "thrust table is empty"
  | .nonFinite => "thrust table values must be finite"
  | .outOfBounds =>
    "thrust table requires voltage in (0,1000], throttle in [0,1], and non-negative thrust/current"
  | .notAGrid expected got => s!"thrust table is not rectangular: expected {expected} points, got {got}"
  | .duplicatePoint => "thrust table contains a duplicate voltage/throttle point"
  | .unsorted => "thrust table grid axes must be strictly increasing"
  | .nonMonotonic => "thrust table thrust/current must be non-decreasing with throttle at each voltage"

section

variable {α : Type}

/-! ### Axes -/

/-- `Vec::dedup` after an element that is kept. -/
def dedupAfter [BEq α] (kept : α) : List α → List α
  | [] => []
  | a :: l => if kept == a then dedupAfter kept l else a :: dedupAfter a l

/-- `Vec::dedup` -/
def dedup [BEq α] : List α → List α
  | [] => []
  | a :: l => a :: dedupAfter a l

variable [Machine α]

/-- The values of an axis in increasing order, each once. -/
def sortedAxis [BEq α] (values : List α) : List α :=
  dedup (values.insertionSort fun a b => Machine.totalCmp a b ≠ .gt)

/-- Where a value stands on an axis. -/
def find (axis : List α) (v : α) : Except TableError ℕ :=
  match axis.findIdx? fun a => Machine.totalCmp a v = .eq with
  | some i => .ok i
  | none => .error .unsorted

variable [∀ n, OfNat α n]

/-! ### Points -/

def ThrustPoint.isFinite (p : ThrustPoint α) : Bool :=
  Machine.isFinite p.voltage && Machine.isFinite p.throttle && Machine.isFinite p.thrustN && Machine.isFinite p.currentA

variable [LT α] [DecidableLT α] [LE α] [DecidableLE α]

/-- Some value of the point is out of bounds. -/
def ThrustPoint.outOfBounds (p : ThrustPoint α) : Bool :=
  p.voltage ≤ 0 || 1000 < p.voltage || !(0 ≤ p.throttle && p.throttle ≤ 1) || p.thrustN < 0 || p.currentA < 0

/-- Two points of the grid coincide. -/
def hasDuplicate [BEq α] : List (ThrustPoint α) → Bool
  | [] => false
  | p :: ps => ps.any (fun q => p.voltage == q.voltage && p.throttle == q.throttle) || hasDuplicate ps

/-! ### Construction -/

/-- Enter a point into the two grids. -/
def enter (voltages throttles : List α) (grids : List α × List α) (p : ThrustPoint α) :
    Except TableError (List α × List α) := do
  let vi ← find voltages p.voltage
  let ti ← find throttles p.throttle
  let i := vi * throttles.length + ti
  return (grids.1.set i p.thrustN, grids.2.set i p.currentA)

/-- Somewhere in a row a value is smaller than the one before it. -/
def decreases (rows columns : ℕ) (grid : List α) : Bool :=
  (List.range rows).any fun vi => (List.range (columns - 1)).any fun ti =>
    grid.getD (vi * columns + ti + 1) 0 < grid.getD (vi * columns + ti) 0

/-- `ThrustTable::from_points`: the points must form a full grid. -/
def fromPoints [BEq α] (points : List (ThrustPoint α)) : Except TableError (ThrustTable α) :=
  if points.isEmpty then .error .empty
  else if points.any fun p => !p.isFinite then .error .nonFinite
  else if points.any ThrustPoint.outOfBounds then .error .outOfBounds
  else if hasDuplicate points then .error .duplicatePoint
  else
    let voltages := sortedAxis (points.map ThrustPoint.voltage)
    let throttles := sortedAxis (points.map ThrustPoint.throttle)
    let expected := voltages.length * throttles.length
    if expected ≠ points.length then .error (.notAGrid expected points.length)
    else do
      let zeros := List.replicate expected (0 : α)
      let grids ← points.foldlM (enter voltages throttles) (zeros, zeros)
      if decreases voltages.length throttles.length grids.1 || decreases voltages.length throttles.length grids.2 then
        .error .nonMonotonic
      else .ok { voltages, throttles, thrust := grids.1, current := grids.2 }

/-! ### Lookup -/

variable [Add α] [Sub α] [Mul α] [Div α]

/-- The lower index on an axis, and the fraction of the way to the next one. -/
def bracket (axis : List α) (v : α) : ℕ × α :=
  if v ≤ axis.getD 0 0 then (0, 0)
  else if axis.getD (axis.length - 1) 0 ≤ v then (axis.length - 1, 0)
  else
    match (List.range (axis.length - 1)).find? fun i => v < axis.getD (i + 1) 0 with
    | some i => (i, (v - axis.getD i 0) / (axis.getD (i + 1) 0 - axis.getD i 0))
    | none => (axis.length - 1, 0)

/-- The value inside a cell, from the values at its corners. -/
def interpolate (at' : ℕ → ℕ → α) (rows columns : ℕ) (v t : ℕ × α) : α :=
  let t₁ := min (t.1 + 1) (columns - 1)
  let v₁ := min (v.1 + 1) (rows - 1)
  let a := at' v.1 t.1 * (1 - t.2) + at' v.1 t₁ * t.2
  let b := at' v₁ t.1 * (1 - t.2) + at' v₁ t₁ * t.2
  a * (1 - v.2) + b * v.2

/-- `ThrustTable::lookup`: thrust and current. -/
def ThrustTable.lookup (table : ThrustTable α) (voltage throttle : α) : α × α :=
  let v := bracket table.voltages voltage
  let t := bracket table.throttles throttle
  let n := table.throttles.length
  (interpolate (fun i j => table.thrust.getD (i * n + j) 0) table.voltages.length n v t,
    interpolate (fun i j => table.current.getD (i * n + j) 0) table.voltages.length n v t)

end

end Forge.Sim
