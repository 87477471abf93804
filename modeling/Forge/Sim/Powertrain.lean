import Forge.Sim.ThrustTable
import Mathlib.Algebra.Order.Field.Rat
import Mathlib.Algebra.Order.Group.Unbundled.Abs
import Mathlib.Data.Nat.Cast.Order.Field

/-!
# Powertrains with a bench table

Thrust and current of a motor at a throttle, read from a bench table at the voltage that the
battery has under that load (`Powertrain::at_throttle_table`). The voltage depends on the current
and the current on the voltage; the code iterates at most twelve times. The curve of a training
bundle samples this at 101 throttles. Numbers are exact.
-/

namespace Forge.Sim

structure PowertrainPoint where
  /-- Of one motor. -/
  thrustN : ℚ
  /-- Of one motor. -/
  currentA : ℚ
  /-- The voltage after sag. -/
  vEff : ℚ
  nRevS : ℚ

/-- The constants that the evaluation with a table reads. -/
structure Powertrain where
  motorKv : ℚ
  motorROhm : ℚ
  batteryV0 : ℚ
  batteryROhm : ℚ
  nMotors : ℕ

namespace Powertrain

variable (p : Powertrain) (u : ℚ) (table : ThrustTable ℚ)

/-- The body of the loop: the point at a voltage, with the voltage that follows from it. -/
def sagPoint (vEff : ℚ) : PowertrainPoint :=
  let i_motor := (table.lookup vEff u).2
  let i_total := i_motor * p.nMotors
  let next_v := max (p.batteryV0 - i_total * p.batteryROhm - i_motor * p.motorROhm) (1 / 2 * p.batteryV0)
  { thrustN := (table.lookup vEff u).1
    currentA := i_motor
    vEff := next_v
    nRevS := max (p.motorKv * next_v * u / 60) 0 }

/-- The voltages hardly differ: the loop ends. -/
def Settled (vEff : ℚ) : Prop := |(p.sagPoint u table vEff).vEff - vEff| < 1 / 1000000

instance (vEff : ℚ) : Decidable (p.Settled u table vEff) :=
  inferInstanceAs (Decidable (|(p.sagPoint u table vEff).vEff - vEff| < 1 / 1000000))

/-- The loop, from a voltage on. -/
def sag : ℕ → ℚ → PowertrainPoint → PowertrainPoint
  | 0, _, point => point
  | turns + 1, vEff, _ =>
    let point := p.sagPoint u table vEff
    if p.Settled u table vEff then point else sag turns point.vEff point

/-- The voltages at which the loop reads the table. -/
def visited : ℕ → ℚ → List ℚ
  | 0, _ => []
  | turns + 1, vEff =>
    vEff :: if p.Settled u table vEff then [] else visited turns (p.sagPoint u table vEff).vEff

/-- `Powertrain::at_throttle_table` -/
def atThrottleTable : PowertrainPoint :=
  p.sag u table 12 p.batteryV0 { thrustN := 0, currentA := 0, vEff := p.batteryV0, nRevS := 0 }

/-- `Powertrain::at_throttle`, of a powertrain that has a table. -/
def atThrottle : PowertrainPoint := p.atThrottleTable (max 0 (min u 1)) table

end Powertrain

/-! ### The curve of a training bundle -/

structure TrainingPowerPoint where
  throttle : ℚ
  totalThrustN : ℚ
  normalizedVoltage : ℚ
  normalizedCurrent : ℚ

structure TrainingPowertrain where
  nominalVoltageV : ℚ
  maxTotalCurrentA : ℚ
  curve : List TrainingPowerPoint

/-- What the bundle declares about its curve. -/
structure TrainingCatalogCurveReadback where
  schemaVersion : String
  selectedTableId : Option String
  tableDriven : Bool
  curvePointCount : ℕ
  motorCount : ℕ
  maxTotalCurrentA : ℚ
  batteryNominalVoltageV : ℚ
  batteryResistanceOhm : ℚ
  motorResistanceOhm : ℚ
  fixedPointIterations : ℕ
  convergenceToleranceV : ℚ
  minimumVoltageFraction : ℚ

/-- `x.clamp(0.0, 1.0)` -/
def clamp01 (x : ℚ) : ℚ := max 0 (min x 1)

/-- A point of the curve. -/
def curvePoint (p : Powertrain) (table : ThrustTable ℚ) (maxTotalCurrentA : ℚ) (step : ℕ) : TrainingPowerPoint :=
  let throttle : ℚ := step / 100
  let point := p.atThrottle throttle table
  { throttle
    totalThrustN := point.thrustN * p.nMotors
    normalizedVoltage := clamp01 (point.vEff / p.batteryV0)
    normalizedCurrent := clamp01 (point.currentA * p.nMotors / maxTotalCurrentA) }

/-- `bundle.powertrain` of `multirotor_training_bundle_with_catalog` -/
def trainingPowertrain (p : Powertrain) (table : ThrustTable ℚ) (maxTotalCurrentA : ℚ) : TrainingPowertrain where
  nominalVoltageV := p.batteryV0
  maxTotalCurrentA
  curve := (List.range 101).map (curvePoint p table maxTotalCurrentA)

/-- `curve_readback` of `catalog_training_physics` -/
def curveReadback (p : Powertrain) (maxTotalCurrentA : ℚ) (selectedTableId : Option String) :
    TrainingCatalogCurveReadback where
  schemaVersion := "forge-training-catalog-curve-readback/1.0.0"
  tableDriven := selectedTableId.isSome
  selectedTableId
  curvePointCount := 101
  motorCount := p.nMotors
  maxTotalCurrentA
  batteryNominalVoltageV := p.batteryV0
  batteryResistanceOhm := p.batteryROhm
  motorResistanceOhm := p.motorROhm
  fixedPointIterations := 12
  convergenceToleranceV := 1 / 1000000
  minimumVoltageFraction := 1 / 2

/-- A throttle of the curve is not clamped. -/
theorem clamp01_step {step : ℕ} (h : step < 101) : clamp01 ((step : ℚ) / 100) = step / 100 := by
  have hle : (step : ℚ) / 100 ≤ 1 := by
    rw [div_le_one (by decide)]
    exact_mod_cast Nat.lt_succ_iff.mp h
  rw [clamp01, min_eq_left hle, max_eq_right (div_nonneg (Nat.cast_nonneg _) (by decide))]

end Forge.Sim
