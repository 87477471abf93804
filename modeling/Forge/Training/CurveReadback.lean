import Forge.Sim.Powertrain
import Forge.Training.CatalogGrid

/-!
# Readback of a catalog curve

The trainer recomputes every point of a bundle's power curve from the retained bench table
(`_catalog_curve_readback`) and refuses a curve that differs. **`readback_agrees`**: it accepts
what the simulator emits, and recomputes exactly that, as long as the loop stays in the table's
voltages; and the tables that the trainer accepts are tables of the simulator, with one lookup.
-/

namespace Forge.Training

open Sim

/-- A retained table: the version of its row's schema, and its grid. -/
structure TableAuthority where
  rowSchemaVersion : String
  grid : Grid

/-- What the trainer finds at a throttle. -/
structure Recomputed where
  thrust : ℚ
  current : ℚ
  nextVoltage : ℚ

/-- The turns of the loop at one throttle, from a voltage on. -/
def readbackLoop (authority : TrainingCatalogCurveReadback) (grid : Grid) (motorCount index : ℕ) (throttle : ℚ) :
    ℕ → ℚ → Recomputed → Except String Recomputed
  | 0, _, found => .ok found
  | turns + 1, effectiveVoltage, _ =>
    if effectiveVoltage < grid.voltages.headD 0 - 1 / 1000000000 ∨
        grid.voltages.getLastD 0 + 1 / 1000000000 < effectiveVoltage then
      .error s!"catalog training curve readback left the retained voltage grid at point {index}"
    else
      match gridLookup grid effectiveVoltage throttle with
      | none => .error "KeyError"
      | some (thrust, current) =>
        let nextVoltage := max
          (authority.batteryNominalVoltageV - current * motorCount * authority.batteryResistanceOhm -
            current * authority.motorResistanceOhm)
          (authority.minimumVoltageFraction * authority.batteryNominalVoltageV)
        if |nextVoltage - effectiveVoltage| < authority.convergenceToleranceV then
          .ok { thrust, current, nextVoltage }
        else readbackLoop authority grid motorCount index throttle turns nextVoltage { thrust, current, nextVoltage }

/-- What is expected at a point of the curve. -/
def expectedPoint (authority : TrainingCatalogCurveReadback) (grid : Grid) (motorCount index : ℕ) :
    Except String TrainingPowerPoint := do
  let throttle : ℚ := index / 100
  let nominal := authority.batteryNominalVoltageV
  let found ← readbackLoop authority grid motorCount index throttle 12 nominal
    { thrust := 0, current := 0, nextVoltage := nominal }
  return {
    throttle
    totalThrustN := found.thrust * motorCount
    normalizedVoltage := max 0 (min 1 (found.nextVoltage / nominal))
    normalizedCurrent := max 0 (min 1 (found.current * motorCount / authority.maxTotalCurrentA)) }

/-- `math.isclose`, with both tolerances `1e-12`. -/
def isClose (a b : ℚ) : Bool := |a - b| ≤ max (1 / 1000000000000 * max |a| |b|) (1 / 1000000000000)

/-- The turn of the loop over the points of the curve. -/
def readbackPoint (authority : TrainingCatalogCurveReadback) (grid : Grid) (motorCount : ℕ)
    (point : ℕ × TrainingPowerPoint) : Except String Unit := do
  let expected ← expectedPoint authority grid motorCount point.1
  if !(isClose point.2.totalThrustN expected.totalThrustN && isClose point.2.normalizedVoltage expected.normalizedVoltage &&
      isClose point.2.normalizedCurrent expected.normalizedCurrent) then
    .error s!"catalog training independent curve readback drifted at point {point.1}"
  else .ok ()

/-- `selected_table_id`, when it passes its checks. -/
def selectedTable (tables : List (String × TableAuthority)) (usedTableIds : List String) (id : Option String) :
    Option TableAuthority := do
  let id ← id
  let table ← tables.lookup id
  if 1 ≤ id.length ∧ id.length ≤ 500 ∧ usedTableIds = [id] ∧ table.rowSchemaVersion = "2.0.0" then some table else none

/-- `_catalog_curve_readback` -/
def catalogCurveReadback (authority : TrainingCatalogCurveReadback) (powertrain : TrainingPowertrain)
    (tables : List (String × TableAuthority)) (usedTableIds : List String) (motorCount : ℕ) : Except String Unit :=
  if authority.schemaVersion ≠ "forge-training-catalog-curve-readback/1.0.0" then
    .error "catalog training curve-readback version drifted"
  else if authority.curvePointCount ≠ 101 ∨ authority.motorCount ≠ motorCount ∨ authority.fixedPointIterations ≠ 12 then
    .error "catalog training curve-readback protocol drifted"
  else if authority.batteryNominalVoltageV ≤ 0 then .error "batteryNominalVoltageV must be positive and finite"
  else if authority.maxTotalCurrentA ≤ 0 then .error "maxTotalCurrentA must be positive and finite"
  else if authority.convergenceToleranceV ≤ 0 then .error "convergenceToleranceV must be positive and finite"
  else if authority.minimumVoltageFraction ≤ 0 then .error "minimumVoltageFraction must be positive and finite"
  else if powertrain.nominalVoltageV ≤ 0 then .error "nominalVoltageV must be positive and finite"
  else if authority.batteryNominalVoltageV ≠ powertrain.nominalVoltageV then
    .error "catalog training curve-readback inputs drifted"
  else if powertrain.maxTotalCurrentA ≤ 0 then .error "maxTotalCurrentA must be positive and finite"
  else if authority.maxTotalCurrentA ≠ powertrain.maxTotalCurrentA ∨ authority.batteryResistanceOhm < 0 ∨
      authority.motorResistanceOhm < 0 ∨ 1000 < authority.batteryResistanceOhm ∨ 1000 < authority.motorResistanceOhm ∨
      authority.convergenceToleranceV ≠ 1 / 1000000 ∨ authority.minimumVoltageFraction ≠ 1 / 2 then
    .error "catalog training curve-readback inputs drifted"
  else if authority.tableDriven then
    match selectedTable tables usedTableIds authority.selectedTableId with
    | none => .error "catalog training selected-grid authority drifted"
    | some table =>
      if powertrain.curve.length ≠ 101 then .error "catalog training curve readback requires 101 power points"
      else (powertrain.curve.zipIdx.map Prod.swap).forM (readbackPoint authority table.grid motorCount)
  else if authority.selectedTableId ≠ none ∨ usedTableIds ≠ [] then
    .error "catalog training fallback has selected-grid authority"
  else .ok ()

/-! ### What is recomputed -/

/-- A point, as the trainer names its values. -/
def recomputed (point : PowertrainPoint) : Recomputed where
  thrust := point.thrustN
  current := point.currentA
  nextVoltage := point.vEff

/-- The voltage lies on the table. -/
def InRange (table : ThrustTable ℚ) (v : ℚ) : Prop := table.voltages.headD 0 ≤ v ∧ v ≤ table.voltages.getLastD 0

instance (table : ThrustTable ℚ) (v : ℚ) : Decidable (InRange table v) :=
  inferInstanceAs (Decidable (table.voltages.headD 0 ≤ v ∧ v ≤ table.voltages.getLastD 0))

section

variable {points : List (ThrustPoint ℚ)} {p : Powertrain} {maxTotalCurrentA : ℚ} {id : String}

/-- **The two loops** find the same, as long as the voltages lie on the table. -/
theorem readbackLoop_eq_ok (hb : Bench points) (index : ℕ) (throttle : ℚ) {turns : ℕ} {vEff : ℚ} {point : PowertrainPoint}
    (hrange : ∀ v ∈ p.visited throttle (tableOf points) turns vEff, InRange (tableOf points) v) :
    readbackLoop (curveReadback p maxTotalCurrentA (some id)) (gridOf points) p.nMotors index throttle turns vEff
      (recomputed point) = .ok (recomputed (p.sag throttle (tableOf points) turns vEff point)) := by
  induction turns generalizing vEff point with
  | zero => rfl
  | succ turns ih =>
    rw [Powertrain.visited] at hrange
    obtain ⟨hlow, hhigh⟩ := hrange vEff List.mem_cons_self
    have hin : ¬(vEff < (gridOf points).voltages.headD 0 - 1 / 1000000000 ∨
        (gridOf points).voltages.getLastD 0 + 1 / 1000000000 < vEff) := by
      have hslack : (0 : ℚ) ≤ 1 / 1000000000 := by decide +kernel
      rw [not_or, not_lt, not_lt]
      exact ⟨(sub_le_self _ hslack).trans hlow, hhigh.trans (le_add_of_nonneg_right hslack)⟩
    rw [readbackLoop, if_neg hin, gridLookup_gridOf hb, Powertrain.sag]
    by_cases hdone : p.Settled throttle (tableOf points) vEff
    · rw [if_pos hdone]
      exact if_pos hdone
    · rw [if_neg hdone] at hrange ⊢
      have hnext := @ih _ (p.sagPoint throttle (tableOf points) vEff) fun v hv => hrange v (List.mem_cons_of_mem _ hv)
      exact (if_neg hdone).trans hnext

/-- The emitted curve is what is expected, at every point. -/
theorem expectedPoint_eq_ok (hb : Bench points) {index : ℕ} (hindex : index < 101)
    (hrange : ∀ v ∈ p.visited (index / 100) (tableOf points) 12 p.batteryV0, InRange (tableOf points) v) :
    expectedPoint (curveReadback p maxTotalCurrentA (some id)) (gridOf points) p.nMotors index =
      .ok (curvePoint p (tableOf points) maxTotalCurrentA index) := by
  let start : PowertrainPoint := { thrustN := 0, currentA := 0, vEff := p.batteryV0, nRevS := 0 }
  have hloop : readbackLoop (curveReadback p maxTotalCurrentA (some id)) (gridOf points) p.nMotors index (index / 100) 12
      p.batteryV0 (recomputed start) = .ok (recomputed (p.atThrottleTable (index / 100) (tableOf points))) :=
    readbackLoop_eq_ok hb index _ hrange
  have hthrottle : p.atThrottle (index / 100) (tableOf points) = p.atThrottleTable (index / 100) (tableOf points) :=
    congrArg (fun u => p.atThrottleTable u (tableOf points)) (clamp01_step hindex)
  unfold expectedPoint
  refine bind_eq_ok.mpr ⟨_, hloop, ?_⟩
  simp only [curvePoint, hthrottle, clamp01, min_comm _ (1 : ℚ)]
  rfl

theorem isClose_self (a : ℚ) : isClose a a = true := by
  have hzero : |a - a| = 0 := by rw [sub_self, abs_zero]
  rw [isClose, hzero]
  exact decide_eq_true (le_max_of_le_right (by decide +kernel))

theorem readbackPoint_eq_ok {authority : TrainingCatalogCurveReadback} {grid : Grid} {motorCount index : ℕ}
    {point : TrainingPowerPoint} (h : expectedPoint authority grid motorCount index = .ok point) :
    readbackPoint authority grid motorCount (index, point) = .ok () := by
  refine bind_eq_ok.mpr ⟨point, h, ?_⟩
  simp [isClose_self]

/-- Constants of a powertrain that the trainer takes. -/
structure Admissible (p : Powertrain) (maxTotalCurrentA : ℚ) : Prop where
  nominal : 0 < p.batteryV0
  battery : 0 ≤ p.batteryROhm ∧ p.batteryROhm ≤ 1000
  motor : 0 ≤ p.motorROhm ∧ p.motorROhm ≤ 1000
  current : 0 < maxTotalCurrentA

/-- A curve that was emitted from the retained table is accepted when all its points are expected. -/
theorem catalogCurveReadback_eq_ok {table : ThrustTable ℚ} {grid : Grid} {tables : List (String × TableAuthority)}
    (hp : Admissible p maxTotalCurrentA) (hid : 1 ≤ id.length ∧ id.length ≤ 500)
    (htable : tables.lookup id = some { rowSchemaVersion := "2.0.0", grid })
    (hexpected : ∀ step < 101, expectedPoint (curveReadback p maxTotalCurrentA (some id)) grid p.nMotors step =
      .ok (curvePoint p table maxTotalCurrentA step)) :
    catalogCurveReadback (curveReadback p maxTotalCurrentA (some id)) (trainingPowertrain p table maxTotalCurrentA) tables
      [id] p.nMotors = .ok () := by
  have hselected : selectedTable tables [id] (some id) = some { rowSchemaVersion := "2.0.0", grid } := by
    simp [selectedTable, htable, hid]
  have hdriven : (curveReadback p maxTotalCurrentA (some id)).tableDriven = true := rfl
  have hpoints : ((trainingPowertrain p table maxTotalCurrentA).curve.zipIdx.map Prod.swap).forM
      (readbackPoint (curveReadback p maxTotalCurrentA (some id)) grid p.nMotors) = .ok () := by
    rw [forM_eq_ok]
    intro point hpoint
    obtain ⟨⟨value, step⟩, hmem, rfl⟩ := List.mem_map.mp hpoint
    obtain ⟨hlt, hvalue⟩ := List.mem_zipIdx' hmem
    rw [trainingPowertrain, List.length_map, List.length_range] at hlt
    have hat : value = curvePoint p table maxTotalCurrentA step := by
      simpa [trainingPowertrain] using hvalue
    rw [Prod.swap_prod_mk, hat]
    exact readbackPoint_eq_ok (hexpected step hlt)
  have htolerance : ¬(1 / 1000000 : ℚ) ≤ 0 := by decide +kernel
  have hfraction : ¬(1 / 2 : ℚ) ≤ 0 := by decide +kernel
  have hlength : (trainingPowertrain p table maxTotalCurrentA).curve.length = 101 := by simp [trainingPowertrain]
  unfold catalogCurveReadback
  rw [if_pos hdriven]
  simp only [curveReadback] at hselected hpoints ⊢
  simp only [hselected, htolerance, hfraction, trainingPowertrain, not_le.mpr hp.nominal,
    not_le.mpr hp.current, not_lt.mpr hp.battery.1, not_lt.mpr hp.battery.2, not_lt.mpr hp.motor.1, not_lt.mpr hp.motor.2,
    ne_eq, not_true, or_false, if_false]
  exact (if_neg (not_not.mpr hlength)).trans hpoints

end

/-- **Key result**: the trainer recomputes the curve that the simulator emits, point by point, when
every voltage of the iteration lies on the table; and a table that the trainer accepts is one of the
simulator, with the same lookup. -/
theorem readback_agrees :
    (∀ (points : List (ThrustPoint ℚ)) (table : ThrustTable ℚ) (p : Powertrain) (maxTotalCurrentA : ℚ) (id : String),
      fromPoints points = .ok table → table.throttles.head? = some 0 → table.throttles.getLast? = some 1 →
      (∀ q ∈ points, q.thrustN ≤ 1000000 ∧ q.currentA ≤ 1000000) → Admissible p maxTotalCurrentA →
      1 ≤ id.length ∧ id.length ≤ 500 →
      (∀ step < 101, ∀ v ∈ p.visited ((step : ℕ) / 100) table 12 p.batteryV0, InRange table v) →
      ∃ grid, catalogGrid points points.length = .ok grid ∧
        (∀ step < 101, expectedPoint (curveReadback p maxTotalCurrentA (some id)) grid p.nMotors step =
          .ok (curvePoint p table maxTotalCurrentA step)) ∧
        ∀ tables : List (String × TableAuthority), tables.lookup id = some { rowSchemaVersion := "2.0.0", grid } →
          catalogCurveReadback (curveReadback p maxTotalCurrentA (some id)) (trainingPowertrain p table maxTotalCurrentA)
            tables [id] p.nMotors = .ok ()) ∧
    ∀ (points : List (ThrustPoint ℚ)) (pointCount : ℕ) (grid : Grid), catalogGrid points pointCount = .ok grid →
      ∃ table, fromPoints points = .ok table ∧
        ∀ voltage throttle, gridLookup grid voltage throttle = some (table.lookup voltage throttle) := by
  constructor
  · intro points table p maxTotalCurrentA id htable hidle hfull hbounded hp hid hrange
    obtain ⟨hb, rfl⟩ := fromPoints_eq_ok.mp htable
    have hgrid : catalogGrid points points.length = .ok (gridOf points) :=
      catalogGrid_eq_ok.mpr ⟨rfl, hb, ⟨hbounded, hidle, hfull⟩, rfl⟩
    have hexpected : ∀ step < 101, expectedPoint (curveReadback p maxTotalCurrentA (some id)) (gridOf points) p.nMotors
        step = .ok (curvePoint p (tableOf points) maxTotalCurrentA step) :=
      fun step hstep => expectedPoint_eq_ok hb hstep (hrange step hstep)
    exact ⟨gridOf points, hgrid, hexpected, fun tables ht => catalogCurveReadback_eq_ok hp hid ht hexpected⟩
  · intro points pointCount grid hgrid
    obtain ⟨-, hb, -, rfl⟩ := catalogGrid_eq_ok.mp hgrid
    exact ⟨tableOf points, fromPoints_eq_ok.mpr ⟨hb, rfl⟩, gridLookup_gridOf hb⟩

/-- A bench at one voltage, with no load. -/
def idleBench : List (ThrustPoint ℚ) :=
  [{ voltage := 10, throttle := 0, thrustN := 0, currentA := 0 }, { voltage := 10, throttle := 1, thrustN := 8, currentA := 0 }]

/-- Four motors at ten volts, with the given resistance of the battery. -/
def quad (batteryROhm : ℚ) : Powertrain where
  motorKv := 920
  motorROhm := 1 / 10
  batteryV0 := 10
  batteryROhm
  nMotors := 4

/-- A bench at two voltages that draws current. -/
def loadedBench : List (ThrustPoint ℚ) :=
  [{ voltage := 8, throttle := 0, thrustN := 0, currentA := 0 },
    { voltage := 8, throttle := 1, thrustN := 6, currentA := 4 },
    { voltage := 10, throttle := 0, thrustN := 0, currentA := 0 },
    { voltage := 10, throttle := 1, thrustN := 9, currentA := 5 }]

theorem readback_agrees_loadedBench : ∃ table grid, fromPoints loadedBench = .ok table ∧
    catalogGrid loadedBench 4 = .ok grid ∧
      catalogCurveReadback (curveReadback (quad (1 / 50)) 40 (some "bench")) (trainingPowertrain (quad (1 / 50)) table 40)
        [("bench", { rowSchemaVersion := "2.0.0", grid })] ["bench"] 4 = .ok () := by
  have htable : fromPoints loadedBench = .ok (tableOf loadedBench) := rfl
  have hvisited : ∀ step < 101, ∀ v ∈ (quad (1 / 50)).visited ((step : ℕ) / 100) (tableOf loadedBench) 12
      (quad (1 / 50)).batteryV0, InRange (tableOf loadedBench) v := by decide +kernel
  have hp : Admissible (quad (1 / 50)) 40 := by constructor <;> decide +kernel
  obtain ⟨grid, hgrid, -, haccept⟩ := readback_agrees.1 loadedBench (tableOf loadedBench) (quad (1 / 50)) 40 "bench" htable
    (by decide +kernel) (by decide +kernel) (by decide +kernel) hp (by decide) hvisited
  exact ⟨tableOf loadedBench, grid, htable, hgrid, haccept _ rfl⟩

/-- A battery of more than a thousand ohms: the curve stays on the table and is refused. -/
theorem strong_battery_refused : ∃ table grid, fromPoints idleBench = .ok table ∧ table.throttles.head? = some 0 ∧
    table.throttles.getLast? = some 1 ∧ catalogGrid idleBench 2 = .ok grid ∧ 0 < (quad 1001).batteryV0 ∧
      0 ≤ (quad 1001).batteryROhm ∧ 0 ≤ (quad 1001).motorROhm ∧
      (∀ step < 101, ∀ v ∈ (quad 1001).visited ((step : ℕ) / 100) table 12 (quad 1001).batteryV0, InRange table v) ∧
      catalogCurveReadback (curveReadback (quad 1001) 40 (some "bench")) (trainingPowertrain (quad 1001) table 40)
        [("bench", { rowSchemaVersion := "2.0.0", grid })] ["bench"] 4 =
          .error "catalog training curve-readback inputs drifted" := by
  refine ⟨tableOf idleBench, gridOf idleBench, rfl, rfl, rfl, rfl, ?_, ?_, ?_, ?_, ?_⟩ <;> decide +kernel

end Forge.Training
