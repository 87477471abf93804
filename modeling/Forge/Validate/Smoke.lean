import Forge.Data.FloatQuotient
import Forge.Motion.Ground
import Forge.Validate.Checks

/-!
# Smoke simulations

What `run_checks` (`forge-validate`) simulates before it admits a rover or a quadruped: the driver is ticked for as
long as one meter takes at full drive (BEH-001). Both numbers of steps come from a division by what the contract
declares; only that of the quadruped has a cap.

The **key result** `smoke_ticks_iff` says when a simulation stays within the cap: for a rover exactly when its
`maxSpeedMs` has a sign or is at least 0.0012 m/s. `slow_rover_unbounded` is a contract that every check before the
simulation admits and that is ticked more than twice as often.
-/

namespace Forge.Validate

open Contract Forge.Geometry Export
open Geometry.Doubles (fmax)
open Drivers (MotionNum RoverDriver QuadrupedDriver)

/-! ### Loops -/

/-- The loop `for _ in 0..n` with a `break` after a tick that `halts`: how often it ticks, and the last state. -/
def tickLoop {σ : Type} (tick : σ → σ) (halts : σ → Bool) : ℕ → σ → ℕ × σ
  | 0, s => (0, s)
  | n + 1, s =>
    if halts (tick s) then (1, tick s)
    else ((tickLoop tick halts n (tick s)).1 + 1, (tickLoop tick halts n (tick s)).2)

/-- A loop ticks at most once a turn. -/
theorem tickLoop_le {σ : Type} (tick : σ → σ) (halts : σ → Bool) (n : ℕ) (s : σ) : (tickLoop tick halts n s).1 ≤ n := by
  induction n generalizing s with
  | zero => exact le_rfl
  | succ n ih =>
    rw [tickLoop]
    split
    · exact Nat.succ_le_succ n.zero_le
    · exact Nat.succ_le_succ (ih (tick s))

/-- Without a `break` it ticks in every turn. -/
theorem tickLoop_eq {σ : Type} (tick : σ → σ) (n : ℕ) (s : σ) : (tickLoop tick (fun _ => false) n s).1 = n := by
  induction n generalizing s with
  | zero => rfl
  | succ n ih =>
    rw [tickLoop, if_neg Bool.false_ne_true]
    exact congrArg Nat.succ (ih (tick s))

/-- `usize::MAX` of a machine of 64 bits. -/
def usizeMax : ℕ := 2 ^ 64 - 1

/-- `x.ceil() as usize`: NaN is 0, and what is out of range is the bound that it exceeds. -/
def ceilToUsize (x : Float) : ℕ :=
  match x.toModel.unpack with
  | .notANumber | .infinity .negative | .zero _ => 0
  | .infinity .positive => usizeMax
  | .finite .. => min ⌈floatValue x⌉.toNat usizeMax

/-! ### The simulations -/

/-- What a simulation does: how often its driver is ticked, and what the check finds. -/
structure SmokeRun where
  ticks : ℕ
  findings : List Finding

/-- The distance that was driven has to be a meter. -/
def meterChecks (label verb : String) (dist : Float) : List Finding :=
  if (dist - 1.0).abs > 0.05 then
    [failure "BEH-001" (String.ofList ((label ++ ": " ++ verb ++ " ").toList ++ formatFixed 3 dist ++
      " m, expected 1 m ± 0.05".toList)) none none]
  else []

/-- Full drive, straight on. -/
def forward : Drivers.InputFrame := { drive := 1.0 }

/-- The steps of a rover. -/
def roverSteps (rover : RoverDriver) : ℕ := ceilToUsize (1.0 / Drivers.dt / rover.maxSpeedMs)

/-- BEH-001 of a rover. -/
def roverSmoke (num : MotionNum) (spec : ModelSpec) : SmokeRun :=
  let rover := RoverDriver.ofSpec spec
  let run := tickLoop (fun rover => (rover.tick num forward Drivers.dt).2) (fun _ => false) (roverSteps rover) rover
  { ticks := run.1, findings := meterChecks "rover_smoke" "drove" run.2.pose.distance }

/-- The cap on the steps of a quadruped. -/
def maxQuadrupedSteps : ℕ := 100000

/-- A joint target that is not finite ends the simulation. -/
def lostJoint (driver : QuadrupedDriver) : Bool := driver.out.jointTargets.any fun target => !target.2.isFinite

/-- The steps of a quadruped. -/
def quadrupedSteps (driver : QuadrupedDriver) : ℕ :=
  let v := driver.params.strideM * driver.params.cadenceHz
  min (ceilToUsize (1.0 / fmax v 1e-6 / Drivers.dt)) maxQuadrupedSteps

/-- BEH-001 of a quadruped. -/
def quadrupedSmoke (num : MotionNum) (spec : ModelSpec) : SmokeRun :=
  let driver := QuadrupedDriver.ofSpec spec
  if driver.legs.length < 4 then
    { ticks := 0
      findings := [failure "BEH-001"
        s!"quadruped_smoke: {driver.legs.length} legs found; need ≥ 4 via the hip_/knee_/foot_ chain convention" none
        (some "name leg chains hip_<id> → knee_<id> → foot_<id>")] }
  else
    let run := tickLoop (QuadrupedDriver.tick num forward Drivers.dt) lostJoint (quadrupedSteps driver) driver
    { ticks := run.1
      findings :=
        if lostJoint run.2 then [failure "BEH-001" "quadruped_smoke: non-finite joint target during 1 m walk" none none]
        else meterChecks "quadruped_smoke" "walked" run.2.pose.distance }

/-- The simulation of the two archetypes that drive over the ground. -/
def groundSmoke (num : MotionNum) (spec : ModelSpec) : Option SmokeRun :=
  match spec.meta.archetype with
  | .rover => some (roverSmoke num spec)
  | .quadruped => some (quadrupedSmoke num spec)
  | .multirotor | .biped | .arm | .fixedwing => none

/-! ### The steps of a rover -/

/-- A double below 0.0012 is below it by more than what rounding makes up for. -/
theorem floatValue_le_of_lt {x : Float} (hx : 0 < floatValue x) (h : floatValue x < 12 / 10000) :
    floatValue x ≤ 5534023222112865 / 2 ^ 62 := by
  obtain ⟨m, e, hm, hunpack, hvalue⟩ := unpack_of_pos hx
  have hnormal := normal_unpack x
  rw [hunpack] at hnormal
  obtain ⟨hhigh, hlow, hsub⟩ := hnormal
  have hhighq : (m : ℚ) < 2 ^ 53 := by exact_mod_cast hhigh
  rw [hvalue] at h ⊢
  rcases lt_trichotomy e (-62) with hlt | rfl | hgt
  · calc (m : ℚ) * 2 ^ e ≤ 2 ^ 53 * 2 ^ (-63 : ℤ) := by gcongr; exacts [one_le_two, by omega]
      _ ≤ 5534023222112865 / 2 ^ 62 := by norm_num
  · have hnum : (m : ℚ) < 5534023222112866 := by
      have : (2 : ℚ) ^ (-62 : ℤ) = 1 / 2 ^ 62 := by norm_num
      rw [this] at h
      norm_num at h
      linarith
    have hnat : m ≤ 5534023222112865 := by
      have : m < 5534023222112866 := by exact_mod_cast hnum
      omega
    have hle : (m : ℚ) ≤ 5534023222112865 := by exact_mod_cast hnat
    rw [zpow_neg, ← div_eq_mul_inv]
    exact div_le_div_of_nonneg_right hle (by positivity)
  · have hbig : 2 ^ 52 ≤ m := by
      by_contra hsmall
      have := hsub (by omega)
      omega
    have hbigq : (2 : ℚ) ^ 52 ≤ m := by exact_mod_cast hbig
    have hover : (2 : ℚ) ^ 52 * 2 ^ (-61 : ℤ) ≤ m * 2 ^ e := by gcongr; exacts [one_le_two, by omega]
    norm_num at hover
    linarith

/-- 120 divided by a double rounds to at most 100000 exactly when the double is at least 0.0012. -/
theorem nearestDouble_pace {x : Float} (hx : 0 < floatValue x) :
    nearestDouble (120 / floatValue x) ≤ 100000 ↔ 12 / 10000 ≤ floatValue x := by
  have hbound := nearestDouble_le_iff (k := 100000 * 2 ^ 36) (t := -36) ⟨50000 * 2 ^ 36, by norm_num⟩ (by norm_num)
    (by norm_num) (div_pos (by norm_num : (0 : ℚ) < 120) hx) (by norm_num)
  have hleft : ((100000 * 2 ^ 36 : ℕ) : ℚ) * 2 ^ (-36 : ℤ) = 100000 := by norm_num
  rw [hleft, div_le_iff₀ hx] at hbound
  rw [hbound]
  constructor
  · intro h
    by_contra hlt
    have hle := floatValue_le_of_lt hx (not_le.mp hlt)
    norm_num at h hle
    linarith
  · intro h
    norm_num at h ⊢
    linarith

theorem ceil_toNat_le_iff {q : ℚ} {n : ℕ} : ⌈q⌉.toNat ≤ n ↔ q ≤ n := by
  rw [Int.toNat_le, Int.ceil_le]
  rfl

theorem ceilToUsize_of_isFinite {x : Float} (h : x.isFinite = true) :
    ceilToUsize x = min ⌈floatValue x⌉.toNat usizeMax := by
  have hunpack : x.toModel.unpack.isFinite = true := h
  rw [ceilToUsize, floatValue]
  generalize x.toModel.unpack = u at hunpack
  cases u with
  | notANumber => cases hunpack
  | infinity s => cases hunpack
  | zero s => simp [unpackedValue]
  | finite s m e hm => rfl

/-- A double with a sign gives no steps. -/
theorem ceilToUsize_of_negative {x : Float} (h : Negative x.toModel.unpack) : ceilToUsize x = 0 := by
  rw [ceilToUsize, floatValue]
  generalize x.toModel.unpack = u at h
  cases u with
  | notANumber => rfl
  | infinity s =>
    cases s with
    | positive => exact h.elim
    | negative => rfl
  | zero s => rfl
  | finite s m e hm =>
    cases s with
    | positive => exact h.elim
    | negative =>
      have hneg : ⌈unpackedValue (.finite .negative m e hm)⌉.toNat ≤ 0 := by
        rw [ceil_toNat_le_iff, unpackedValue_negative]
        have : (0 : ℚ) < m * 2 ^ e := by positivity
        push_cast
        linarith
      dsimp only
      omega

/-- The steps of a positive quotient. -/
theorem ceilToUsize_div_le_iff {x y : Float} (hx : 0 < floatValue x) (hy : 0 < floatValue y) {n : ℕ}
    (hn : n < usizeMax) : ceilToUsize (x / y) ≤ n ↔ nearestDouble (floatValue x / floatValue y) ≤ n := by
  obtain ⟨hbelow, habove⟩ := floatValue_div hx hy
  rcases lt_or_ge (nearestDouble (floatValue x / floatValue y)) (2 ^ 1024) with hlt | hge
  · obtain ⟨hfinite, hquot⟩ := hbelow hlt
    rw [ceilToUsize_of_isFinite hfinite, hquot, min_le_iff, or_iff_left (not_le.mpr hn), ceil_toNat_le_iff]
  · have hinf : ceilToUsize (x / y) = usizeMax := by rw [ceilToUsize, habove hge]
    have hmax : (n : ℚ) < 2 ^ 1024 := by
      calc (n : ℚ) < usizeMax := by exact_mod_cast hn
        _ ≤ 2 ^ 64 := by norm_num [usizeMax]
        _ ≤ 2 ^ 1024 := pow_le_pow_right₀ one_le_two (by decide)
    rw [hinf]
    exact iff_of_false (not_le.mpr hn) (not_le.mpr (hmax.trans_le hge))

/-- A finite double is negative or has a sign, is positive, or is the zero without a sign. -/
theorem sign_cases {x : Float} (hfinite : x.isFinite = true) :
    (signBit x = true ∧ Negative x.toModel.unpack) ∨ (signBit x = false ∧ 0 < floatValue x) ∨
      (signBit x = false ∧ x.toModel.unpack = .zero .positive ∧ floatValue x = 0) := by
  have hunpack : x.toModel.unpack.isFinite = true := hfinite
  rw [signBit, floatValue]
  generalize x.toModel.unpack = u at hunpack
  cases u with
  | notANumber => cases hunpack
  | infinity s => cases hunpack
  | zero s =>
    cases s with
    | positive => exact .inr (.inr ⟨rfl, rfl, rfl⟩)
    | negative => exact .inl ⟨rfl, trivial⟩
  | finite s m e hm =>
    cases s with
    | positive =>
      refine .inr (.inl ⟨rfl, ?_⟩)
      rw [unpackedValue_positive]
      positivity
    | negative => exact .inl ⟨rfl, trivial⟩

/-- The speeds with which a rover needs at most 100000 ticks for its meter: those with a sign, which need none, and
those from 0.0012 m/s on. -/
def Paced (speed : Float) : Prop := signBit speed = true ∨ 12 / 10000 ≤ floatValue speed

/-- **The steps of a rover** stay within 100000 exactly at such a speed. -/
theorem roverSteps_le_iff {rover : RoverDriver} (hfinite : rover.maxSpeedMs.isFinite = true) :
    roverSteps rover ≤ 100000 ↔ Paced rover.maxSpeedMs := by
  have hrate : (1.0 / Drivers.dt : Float) = 120.0 := by decide +kernel
  have hvalue : floatValue 120.0 = 120 := by decide +kernel
  have hpos : 0 < floatValue 120.0 := by
    rw [hvalue]
    norm_num
  have hcap : 100000 < usizeMax := by norm_num [usizeMax]
  rw [roverSteps, hrate, Paced]
  obtain ⟨hsign, hneg⟩ | ⟨hsign, hspeed⟩ | ⟨hsign, hzero, hnone⟩ := sign_cases hfinite
  · rw [ceilToUsize_of_negative (negative_div hpos hfinite hneg)]
    exact iff_of_true (Nat.zero_le _) (.inl hsign)
  · rw [hsign, or_iff_right Bool.false_ne_true, ceilToUsize_div_le_iff hpos hspeed hcap, hvalue]
    exact_mod_cast nearestDouble_pace hspeed
  · have hinf : ceilToUsize (120.0 / rover.maxSpeedMs) = usizeMax := by
      rw [ceilToUsize, unpack_div_zero hpos hzero]
    rw [hinf, hsign, hnone]
    exact iff_of_false (not_le.mpr hcap) (by norm_num)

/-! ### The simulations of a contract -/

theorem quadrupedSmoke_ticks_le (num : MotionNum) (spec : ModelSpec) :
    (quadrupedSmoke num spec).ticks ≤ maxQuadrupedSteps := by
  unfold quadrupedSmoke
  dsimp only
  split
  · exact Nat.zero_le _
  · exact (tickLoop_le _ _ _ _).trans (min_le_right _ _)

theorem roverSmoke_ticks (num : MotionNum) (spec : ModelSpec) :
    (roverSmoke num spec).ticks = roverSteps (RoverDriver.ofSpec spec) :=
  tickLoop_eq _ _ _

/-- **Key result**: a simulation ticks its driver at most 100000 times, unless it is that of a rover whose `maxSpeedMs`
is zero or positive and below 0.0012 m/s. -/
theorem smoke_ticks_iff (num : MotionNum) (spec : ModelSpec) (run : SmokeRun) (h : groundSmoke num spec = some run) :
    run.ticks ≤ 100000 ↔ (spec.meta.archetype = .rover → Paced (RoverDriver.ofSpec spec).maxSpeedMs) := by
  unfold groundSmoke at h
  have hfinite : (RoverDriver.ofSpec spec).maxSpeedMs.isFinite = true :=
    Drivers.isFinite_paramOr (by decide +kernel) _ _
  cases harch : spec.meta.archetype <;> rw [harch] at h
  case rover =>
    obtain rfl := Option.some.inj h
    rw [roverSmoke_ticks, roverSteps_le_iff hfinite]
    exact ⟨fun hpaced _ => hpaced, fun hpaced => hpaced rfl⟩
  case quadruped =>
    obtain rfl := Option.some.inj h
    exact iff_of_true (quadrupedSmoke_ticks_le num spec) nofun
  all_goals cases h

/-! ### A slow rover -/

section

variable {K : Type} [DivisionRing K] (engines : Engines K) (E : Exact K)

/-- The checks after the bake that come before the simulations. -/
def earlierChecks (spec : ModelSpec) (baked : BakedModel K) (opts : Options) : List Finding :=
  finiteChecks baked.parts ++ budgetChecks baked opts ++ degenerateChecks engines baked.parts ++
    massChecks engines spec baked ++ dfmChecks engines spec baked ++ (engines.interference spec baked).map warning ++
    servoChecks ++ powertrainChecks engines spec baked

theorem bakedChecks_eq (spec : ModelSpec) (baked : BakedModel K) (opts : Options) :
    bakedChecks engines spec baked opts =
      earlierChecks engines spec baked opts ++ smokeChecks engines spec ++ explodeChecks spec := rfl

/-- No check before the simulations rejects the contract. -/
def PassesBefore (spec : ModelSpec) (catalog : CatalogSource) (opts : Options) : Prop :=
  ∃ baked, bake E engines.build spec = .ok baked ∧
    ∀ f ∈ contractChecks engines spec catalog ++ earlierChecks engines spec baked opts, f.severity ≠ .error

end

/-- A rover with one node and this speed. -/
def crawler (speed : Float) (finite : speed.isFinite = true) : ModelSpec :=
  { glider [hub 0.0] with
    «meta» := { (glider [hub 0.0]).meta with archetype := .rover }
    driver := { archetype := .rover, params := .object [("maxSpeedMs", .number (.float speed finite))] } }

theorem crawler_passesBefore (speed : Float) (finite : speed.isFinite = true) (catalog : CatalogSource) :
    PassesBefore quiet upright (crawler speed finite) catalog {} := by
  have hport : portChecks (crawler speed finite) = [] := rfl
  have hslot : slotChecks (crawler speed finite) = [] := rfl
  have hcolor : colorChecks (crawler speed finite) = [] := rfl
  have hlock : lockfileChecks (crawler speed finite) catalog = [] := rfl
  have hnone : colliders (crawler speed finite) = [] := rfl
  have hcollider : colliderChecks (crawler speed finite) = [] := by simp [colliderChecks, hnone]
  have hdriver : driverChecks (crawler speed finite) = [] := rfl
  have hprov : provenanceChecks (crawler speed finite) = [] := rfl
  obtain ⟨w, hw⟩ : ∃ w, nodeWorldTransforms upright (crawler speed finite) = .ok w :=
    ⟨_, nodeWorldTransforms_eq_ok.mpr (Forest.resolve_roots (by simp [crawler, glider]) .empty)⟩
  refine ⟨bareModel w, bind_eq_ok.mpr ⟨w, hw, rfl⟩, ?_⟩
  have hcontract : contractChecks quiet (crawler speed finite) catalog = [] := by
    simp only [contractChecks, hport, hslot, hcolor, hlock, hcollider, hdriver, hprov, List.nil_append]
    rfl
  have hparts : (bareModel w).parts = [] := rfl
  have hfaces : (bareModel w).totalFaces = 0 := rfl
  have hmass : massChecks quiet (crawler speed finite) (bareModel w) = [] := rfl
  have hpower : powertrainChecks quiet (crawler speed finite) (bareModel w) = [] := rfl
  have hquiet : quiet.interference (crawler speed finite) (bareModel w) = [] := rfl
  have hearlier : earlierChecks quiet (crawler speed finite) (bareModel w) {} = [] := by
    simp [earlierChecks, finiteChecks, budgetChecks, degenerateChecks, dfmChecks, hparts, hfaces, hmass, hpower, hquiet,
      servoChecks_eq_nil]
  rw [hcontract, hearlier]
  exact fun f hf => absurd hf List.not_mem_nil

/-- A rover at half a millimeter per second. -/
def slowRover : ModelSpec := crawler 0.0005 (by decide +kernel)

/-- Functions that give nothing. -/
def stillNum : MotionNum :=
  { sin := fun _ => 0.0, cos := fun _ => 1.0, pow := fun _ _ => 1.0, acos := fun _ => 0.0, atan2 := fun _ _ => 0.0
    remEuclid := fun x _ => x }

theorem maxSpeedMs_crawler (speed : Float) (finite : speed.isFinite = true) :
    (RoverDriver.ofSpec (crawler speed finite)).maxSpeedMs = speed := rfl

theorem isFinite_one : (1.0 : Float).isFinite = true := by decide +kernel

theorem smoke_ticks_iff_crawler : ∃ run, groundSmoke stillNum (crawler 1.0 isFinite_one) = some run ∧
    run.ticks ≤ 100000 := by
  refine ⟨_, rfl, (smoke_ticks_iff stillNum (crawler 1.0 isFinite_one) _ rfl).mpr fun _ => .inr ?_⟩
  have hone : floatValue 1.0 = 1 := by decide +kernel
  rw [maxSpeedMs_crawler, hone]
  norm_num

/-- **The simulation of a slow rover is not bounded** as that of a quadruped: its contract is well formed and no check
before objects to it, and it takes more than 100000 ticks. -/
theorem slow_rover_unbounded : ∃ run,
    ModelSpec.codec.decode (ModelSpec.codec.encode slowRover) = some slowRover ∧
    PassesBefore quiet upright slowRover { hasRevision := fun _ _ => true } {} ∧
    groundSmoke stillNum slowRover = some run ∧ 100000 < run.ticks := by
  refine ⟨_, ModelSpec.codec_lawful.decode_encode (by decide +kernel), crawler_passesBefore _ _ _, rfl, ?_⟩
  have hfinite : (0.0005 : Float).isFinite = true := by decide +kernel
  have hsign : signBit 0.0005 = false := by decide +kernel
  have hslow : floatValue 0.0005 < 12 / 10000 := by decide +kernel
  rw [← not_le, roverSmoke_ticks, roverSteps_le_iff (by exact hfinite)]
  rintro (h | h)
  · rw [slowRover, maxSpeedMs_crawler, hsign] at h
    cases h
  · exact absurd h (not_le.mpr hslow)

end Forge.Validate
