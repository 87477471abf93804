import Forge.Data.Except
import Forge.Data.Journal
import Forge.Json.Value
import Mathlib.Data.NNRat.Defs

/-!
# Checkpoints of the engine batch

`codesign_batch.py` evaluates the 200 proposals of a search plan one after the other and saves a checkpoint
after every candidate, so that an overnight run can be taken up again. `advanceBatch` is one call of
`advance_batch`: what it evaluates and saves, in order, and how it ends. `validateCheckpoint` is what a call
asks of the checkpoint it is given.

A checkpoint is a record, so that its fields are there with their types. What the worker does with numbers
and texts (`round`, `f"{x:.3f}"`, sums of runtimes, SHA-256) is a `BatchLibrary`, and so are the checks that
`_candidate_expected` makes of a candidate's evidence before it builds the record. Measured numbers are
rational, as finite doubles are.
-/

namespace Forge.Codesign

def totalProposals : ℕ := 200

/-! ### The plan -/

structure Constraints where
  maxMassG : ℚ
  minEnduranceMin : ℚ
  maxTaskTimeS : ℚ
  minScore : ℚ
deriving DecidableEq

structure CatalogChoice where
  rowSha256 : String
  exactRevision : String
  document : Json
deriving DecidableEq

structure Proposal where
  id : String
  ordinal : ℕ
  algorithm : String
  catalogChoice : CatalogChoice
  patch : Json
  candidateSnapshotSha256 : String
  patchSha256 : String
deriving DecidableEq

structure RuntimeAuthority where
  authoritySha256 : String
  document : Json
deriving DecidableEq

structure CatalogAuthority where
  authoritySha256 : String
  catalogAuthoritySha256 : String
  document : Json
deriving DecidableEq

structure Algorithms where
  seed : ℕ
  document : Json
deriving DecidableEq

/-- What `_validated_inputs` returns: the snapshot, and a plan that equals its deterministic replay. The
replay numbers the proposals in order. -/
structure BatchInputs where
  modelId : String
  contractHash : String
  planSha256 : String
  sourceRevision : Json
  sourceRevisionRecorded : Json
  dependencyManifestSha256 : Json
  proposalRuntimeAuthority : RuntimeAuthority
  catalogChoiceAuthority : CatalogAuthority
  manifold : Json
  constraints : Constraints
  algorithms : Algorithms
  proposals : ℕ → Proposal
  proposals_ordinal : ∀ o, (proposals o).ordinal = o

/-! ### Candidates -/

structure NativeTier0 where
  passed : Bool
  auwG : Option ℚ
  enduranceMin : Option ℚ
  runtimeMs : ℚ
  document : Json
deriving DecidableEq

structure NativeTier1 where
  passed : Bool
  document : Json
deriving DecidableEq

structure NativeEvaluation where
  tier0 : NativeTier0
  tier1 : Option NativeTier1
  document : Json
deriving DecidableEq

structure Rollout where
  engineBacked : Bool
  unsafeEpisodes : ℕ
  meanSuccessFraction : ℚ
  meanTimeToFirstSuccessS : ℚ
  meanEnergyWh : ℚ
  document : Json
deriving DecidableEq

structure TierRecord (ε : Type) where
  pass : Bool
  runtimeMs : ℚ
  engine : String
  engineBacked : Bool
  checks : List String
  reasons : List String
  evidence : ε
deriving DecidableEq

structure HeldTier where
  pass : Bool
  evaluated : Bool
  held : Bool
  runtimeMs : ℚ
  engine : String
  engineBacked : Bool
  checks : List String
  reasons : List String
deriving DecidableEq

structure Evaluations where
  tier0 : TierRecord NativeTier0
  budgetPassed : Bool
  tier1 : TierRecord (Option NativeTier1)
  tier2 : TierRecord (Option Rollout)
  tier3 : HeldTier
deriving DecidableEq

structure Metrics where
  massG : ℚ
  enduranceMin : ℚ
  taskTimeS : ℚ
  score : ℚ
  energyWh : ℚ
deriving DecidableEq

structure CandidateLineage where
  baseContractHash : String
  searchPlanSchema : String
  searchPlanSha256 : String
  proposalRuntimeAuthoritySha256 : String
  catalogAuthoritySha256 : String
  catalogChoiceAuthoritySha256 : String
  selectedRowSha256 : String
  selectedExactRevision : String
  proposalId : String
  candidateSnapshotSha256 : String
  patchSha256 : String
  nativeEvaluationSchema : String
  nativeEvaluationSha256 : String
  trainingBundleSchema : String
  mujocoRuntime : String
  engineSeed : ℕ
  maturity : String
deriving DecidableEq

structure Admission where
  pass : Bool
  reasons : List String
deriving DecidableEq

structure Candidate where
  id : String
  ordinal : ℕ
  algorithm : String
  catalogChoice : CatalogChoice
  patch : Json
  tier : String
  admitted : Bool
  admission : Admission
  evaluations : Evaluations
  metrics : Metrics
  nativeEvaluation : NativeEvaluation
  lineage : CandidateLineage
deriving DecidableEq

/-! ### Checkpoints -/

inductive AttemptOutcome where
  | running | paused | cancelled | interrupted | complete
deriving DecidableEq

structure Attempt where
  sequence : ℕ
  startOrdinal : ℕ
  endOrdinalExclusive : ℕ
  candidatesEvaluated : ℕ
  requestedLimit : Option ℤ
  outcome : AttemptOutcome
  runtimeMs : ℚ
deriving DecidableEq

inductive SchedulerState where
  | ready | running | paused | cancelled | complete
deriving DecidableEq

structure Scheduler where
  state : SchedulerState
  nextOrdinal : ℕ
  completedCandidates : ℕ
  checkpointEveryCandidate : Bool
  serialExecution : Bool
  resumePolicy : String
  requiredRuntimeAuthoritySha256 : String
  requiredCatalogAuthoritySha256 : String
  heterogeneousResumeAllowed : Bool
  resumeObserved : Bool
  cancellationObserved : Bool
  attempts : List Attempt
deriving DecidableEq

structure BatchSource where
  snapshotSchema : String
  modelId : String
  baseContractHash : String
  searchPlanSchema : String
  searchPlanSha256 : String
  candidateCount : ℕ
  sourceRevision : Json
  sourceRevisionRecorded : Json
  dependencyManifestSha256 : Json
  proposalRuntimeAuthority : RuntimeAuthority
  catalogChoiceAuthority : CatalogAuthority
  trainingPhysics : Json
  runtime : String
  maturity : String
deriving DecidableEq

structure ParetoRef where
  candidateId : String
  candidateSnapshotSha256 : String
  metrics : Metrics
deriving DecidableEq

structure Finalist where
  rank : ℕ
  candidateId : String
  candidateSnapshotSha256 : String
  selection : String
  tier3Status : String
deriving DecidableEq

structure Benchmark where
  candidateBudget : ℕ
  exactCandidateHashesEvaluated : ℕ
  nativeEvaluated : ℕ
  rapierEvaluated : ℕ
  mujocoEvaluated : ℕ
  admittedCandidates : ℕ
  paretoPoints : ℕ
  selectedFinalists : ℕ
  engineBatchComplete : Bool
  overnightComplete : Bool
deriving DecidableEq

/-- The hours are the texts that the checkpoint has for them. -/
structure Cost where
  measurement : String
  nativeEvaluationRuntimeHours : String
  mujocoRuntimeHours : String
  measuredEngineRuntimeHours : String
  attemptWallRuntimeHours : String
  localExecution : Bool
  providerBillingVerified : Bool
  providerChargedAmount : Option String
  providerCurrency : Option String
  energyMeasured : Bool
deriving DecidableEq

structure Checkpoint where
  schemaVersion : String
  artifactKind : String
  provider : String
  cacheKey : String
  source : BatchSource
  manifold : Json
  constraints : Constraints
  optimizer : Algorithms
  scheduler : Scheduler
  candidates : List Candidate
  pareto : List ParetoRef
  finalists : List Finalist
  benchmark : Benchmark
  cost : Cost
  nonclaims : List (String × Bool)
  checkpointSha256 : String
deriving DecidableEq

/-- Python's sums of numbers, `_runtime_hours`, `round` and `f"{x:.3f}"`, SHA-256, and the checks of a
candidate's evidence (`apply_search_patch`, `_validate_native_evaluation`, `_validate_selected_catalog_choice`,
`_validate_rollout` and the hashes of the snapshot and the patch). -/
structure BatchLibrary where
  Total : Type
  sum : List ℚ → Total
  add : Total → Total → Total
  runtimeHours : Total → String
  round : ℕ → ℚ → ℚ
  fixed3 : ℚ → String
  sha : Json → String
  checkpointSha : Checkpoint → String
  checkEvidence : BatchInputs → Proposal → NativeEvaluation → Option Rollout → Except String Unit

section

variable (lib : BatchLibrary)

/-! ### The record of a candidate -/

/-- `_finite_number` of a field that may be absent. -/
def finiteNumber (value : Option ℚ) (label : String) : Except String ℚ :=
  match value with
  | some x => .ok x
  | none => .error s!"{label} must be finite"

def tier0Reasons (native : NativeEvaluation) (massG : ℚ) (constraints : Constraints) : List String :=
  (if native.tier0.passed then [] else ["sovereign validator rejected the candidate"]) ++
    if constraints.maxMassG < massG then
      [s!"mass {lib.fixed3 massG} g exceeds {lib.fixed3 constraints.maxMassG} g"]
    else []

def tier1Reasons (native : NativeEvaluation) (tier0Pass : Bool) : List String :=
  (if tier0Pass then [] else ["tier0 failed"]) ++
    if (native.tier1.map NativeTier1.passed).getD false then [] else ["real Rapier smoke did not pass"]

def tier2Reasons (rollout : Option Rollout) (tier1Pass : Bool) (endurance : ℚ) (constraints : Constraints) :
    List String :=
  (if tier1Pass then [] else ["tier1 failed"]) ++
    match rollout with
    | none => ["MuJoCo rollout was not evaluated"]
    | some r =>
      (if !r.engineBacked || r.unsafeEpisodes != 0 then
        ["real MuJoCo rollout was unsafe or lacked engine authority"] else []) ++
      (if endurance < constraints.minEnduranceMin then
        [s!"endurance {lib.fixed3 endurance} min is below {lib.fixed3 constraints.minEnduranceMin} min"] else []) ++
      (if constraints.maxTaskTimeS < r.meanTimeToFirstSuccessS then
        [s!"task time {lib.fixed3 r.meanTimeToFirstSuccessS} s exceeds {lib.fixed3 constraints.maxTaskTimeS} s"]
        else []) ++
      (if r.meanSuccessFraction < constraints.minScore then
        [s!"score {lib.fixed3 r.meanSuccessFraction} is below {lib.fixed3 constraints.minScore}"] else [])

/-- `_tier_records`, with the reasons that `_candidate_expected` gives tier 3. The reasons of the admission
are those of the first three tiers. -/
def tierRecords (native : NativeEvaluation) (nativeRuntimeMs : ℚ) (rollout : Option Rollout) (rolloutRuntimeMs : ℚ)
    (constraints : Constraints) : Except String (Evaluations × Metrics) := do
  let massG ← finiteNumber native.tier0.auwG "native HUD mass"
  let endurance ← finiteNumber native.tier0.enduranceMin "native HUD endurance"
  let reasons0 := tier0Reasons lib native massG constraints
  let reasons1 := tier1Reasons native reasons0.isEmpty
  let reasons2 := tier2Reasons lib rollout reasons1.isEmpty endurance constraints
  .ok (
    { tier0 :=
        { pass := reasons0.isEmpty, runtimeMs := native.tier0.runtimeMs, engine := "forge-validate-native"
          engineBacked := true, reasons := reasons0, evidence := native.tier0
          checks := ["schema", "validator", "static-physics", "mass-constraint", "runtime-budget"] }
      budgetPassed := decide (native.tier0.runtimeMs < 50)
      tier1 :=
        { pass := reasons1.isEmpty, runtimeMs := lib.round 3 nativeRuntimeMs, engine := "rapier3d/0.33.0"
          engineBacked := native.tier1.isSome, reasons := reasons1, evidence := native.tier1
          checks := ["scene-compile", "finite-one-second-trajectory", "body-collider-presence"] }
      tier2 :=
        { pass := reasons2.isEmpty, runtimeMs := lib.round 3 rolloutRuntimeMs, engine := "mujoco/3.9.0"
          engineBacked := rollout.isSome, reasons := reasons2, evidence := rollout
          checks := ["short-hover-rollout", "estimator-controller", "energy", "objective-constraints"] }
      tier3 :=
        { pass := false, evaluated := false, held := true, runtimeMs := 0, engine := "not-run"
          engineBacked := false, checks := []
          reasons := ["tier 3 is held until a separately evidenced selected-finalist training run"] } },
    { massG := lib.round 6 massG
      enduranceMin := lib.round 6 endurance
      taskTimeS := lib.round 6 ((rollout.map Rollout.meanTimeToFirstSuccessS).getD 4)
      score := lib.round 6 ((rollout.map Rollout.meanSuccessFraction).getD 0)
      energyWh := lib.round 12 ((rollout.map Rollout.meanEnergyWh).getD 0) })

def admissionReasons (evaluations : Evaluations) : List String :=
  evaluations.tier0.reasons.map (s!"tier0: {·}") ++ evaluations.tier1.reasons.map (s!"tier1: {·}") ++
    evaluations.tier2.reasons.map (s!"tier2: {·}")

/-- The record of a proposal with its evaluations. -/
def candidateRecord (inputs : BatchInputs) (proposal : Proposal) (native : NativeEvaluation)
    (records : Evaluations × Metrics) : Candidate where
  id := proposal.id ++ "-engine"
  ordinal := proposal.ordinal
  algorithm := proposal.algorithm
  catalogChoice := proposal.catalogChoice
  patch := proposal.patch
  tier :=
    if records.1.tier2.pass then "mujoco-rollout"
    else if records.1.tier1.pass then "rapier-smoke"
    else "validator-oracle"
  admitted := (admissionReasons records.1).isEmpty
  admission := { pass := (admissionReasons records.1).isEmpty, reasons := admissionReasons records.1 }
  evaluations := records.1
  metrics := records.2
  nativeEvaluation := native
  lineage :=
    { baseContractHash := inputs.contractHash
      searchPlanSchema := "forge-codesign-search-plan/3.0.0"
      searchPlanSha256 := inputs.planSha256
      proposalRuntimeAuthoritySha256 := inputs.proposalRuntimeAuthority.authoritySha256
      catalogAuthoritySha256 := inputs.catalogChoiceAuthority.catalogAuthoritySha256
      catalogChoiceAuthoritySha256 := inputs.catalogChoiceAuthority.authoritySha256
      selectedRowSha256 := proposal.catalogChoice.rowSha256
      selectedExactRevision := proposal.catalogChoice.exactRevision
      proposalId := proposal.id
      candidateSnapshotSha256 := proposal.candidateSnapshotSha256
      patchSha256 := proposal.patchSha256
      nativeEvaluationSchema := "forge-codesign-native-evaluation/2.0.0"
      nativeEvaluationSha256 := lib.sha native.document
      trainingBundleSchema := "4.0.0"
      mujocoRuntime := "3.9.0"
      engineSeed := inputs.algorithms.seed + proposal.ordinal * 100
      maturity := "catalog-grid-readback-platform-local-engine-200-batch" }

/-- `_candidate_expected` -/
def candidateExpected (inputs : BatchInputs) (proposal : Proposal) (native : NativeEvaluation) (nativeRuntimeMs : ℚ)
    (rollout : Option Rollout) (rolloutRuntimeMs : ℚ) : Except String Candidate := do
  lib.checkEvidence inputs proposal native rollout
  let records ← tierRecords lib native nativeRuntimeMs rollout rolloutRuntimeMs inputs.constraints
  .ok (candidateRecord lib inputs proposal native records)

/-- `_validate_candidate` -/
def validateCandidate (inputs : BatchInputs) (proposal : Proposal) (candidate : Candidate) : Except String Unit := do
  let expected ← candidateExpected lib inputs proposal candidate.nativeEvaluation candidate.evaluations.tier1.runtimeMs
    candidate.evaluations.tier2.evidence candidate.evaluations.tier2.runtimeMs
  if candidate ≠ expected then .error "co-design engine-batch candidate evidence drifted" else .ok ()

/-! ### Derived evidence -/

/-- Whether `other` dominates `candidate`. The worker skips the candidate itself, which it cannot dominate. -/
def dominates (other candidate : Candidate) : Bool :=
  other.admitted &&
    (decide (candidate.metrics.score ≤ other.metrics.score) &&
      decide (candidate.metrics.enduranceMin ≤ other.metrics.enduranceMin) &&
      decide (other.metrics.massG ≤ candidate.metrics.massG)) &&
    (decide (candidate.metrics.score < other.metrics.score) ||
      decide (candidate.metrics.enduranceMin < other.metrics.enduranceMin) ||
      decide (other.metrics.massG < candidate.metrics.massG))

/-- `_pareto` -/
def paretoFront (candidates : List Candidate) : List Candidate :=
  candidates.filter fun candidate => candidate.admitted && !candidates.any fun other => dominates other candidate

/-- `_pareto_refs` -/
def paretoRefs (candidates : List Candidate) : List ParetoRef :=
  (paretoFront candidates).map fun candidate =>
    { candidateId := candidate.id
      candidateSnapshotSha256 := candidate.lineage.candidateSnapshotSha256
      metrics := candidate.metrics }

/-- The order of the tuples `(-score, -enduranceMin, massG, candidateId)`. -/
def rankedBefore (p q : ParetoRef) : Bool :=
  if p.metrics.score ≠ q.metrics.score then decide (q.metrics.score < p.metrics.score)
  else if p.metrics.enduranceMin ≠ q.metrics.enduranceMin then decide (q.metrics.enduranceMin < p.metrics.enduranceMin)
  else if p.metrics.massG ≠ q.metrics.massG then decide (p.metrics.massG < q.metrics.massG)
  else decide (p.candidateId ≤ q.candidateId)

/-- `_finalists` -/
def finalists (pareto : List ParetoRef) : List Finalist :=
  (((pareto.mergeSort rankedBefore).take 3).zipIdx 1).map fun point =>
    { rank := point.2
      candidateId := point.1.candidateId
      candidateSnapshotSha256 := point.1.candidateSnapshotSha256
      selection := "engine-admitted-pareto-finalist"
      tier3Status := "held-not-run" }

/-- `_checkpoint_payload`: the checkpoint without its hash. -/
def checkpointPayload (checkpoint : Checkpoint) : Checkpoint := { checkpoint with checkpointSha256 := "" }

/-- What `_refresh` puts in, apart from the hash. -/
def derive (checkpoint : Checkpoint) : Checkpoint :=
  let candidates := checkpoint.candidates
  let attempts := checkpoint.scheduler.attempts
  let complete := decide (checkpoint.scheduler.nextOrdinal = totalProposals)
  let pareto := if complete then paretoRefs candidates else []
  let selected := if complete then finalists pareto else []
  let native := lib.sum (candidates.map (·.evaluations.tier1.runtimeMs))
  let tier2 := lib.sum (candidates.map (·.evaluations.tier2.runtimeMs))
  { checkpoint with
    pareto
    finalists := selected
    scheduler :=
      { checkpoint.scheduler with
        completedCandidates := candidates.length
        resumeObserved := attempts.any fun a => decide (0 < a.startOrdinal) && decide (0 < a.candidatesEvaluated)
        cancellationObserved := attempts.any fun a => decide (a.outcome = .cancelled) }
    benchmark :=
      { candidateBudget := totalProposals
        exactCandidateHashesEvaluated := candidates.length
        nativeEvaluated := candidates.length
        rapierEvaluated := candidates.countP (·.evaluations.tier1.evidence.isSome)
        mujocoEvaluated := candidates.countP (·.evaluations.tier2.engineBacked)
        admittedCandidates := candidates.countP (·.admitted)
        paretoPoints := pareto.length
        selectedFinalists := selected.length
        engineBatchComplete := complete
        overnightComplete := false }
    cost :=
      { measurement := "summed-local-candidate-wall-runtime"
        nativeEvaluationRuntimeHours := lib.runtimeHours native
        mujocoRuntimeHours := lib.runtimeHours tier2
        measuredEngineRuntimeHours := lib.runtimeHours (lib.add native tier2)
        attemptWallRuntimeHours := lib.runtimeHours (lib.sum (attempts.map (·.runtimeMs)))
        localExecution := true
        providerBillingVerified := false
        providerChargedAmount := none
        providerCurrency := none
        energyMeasured := false }
    checkpointSha256 := "" }

/-- `_refresh` -/
def refresh (checkpoint : Checkpoint) : Checkpoint :=
  { derive lib checkpoint with checkpointSha256 := lib.checkpointSha (checkpointPayload (derive lib checkpoint)) }

/-! ### The empty checkpoint -/

/-- The first 16 characters of a hash. -/
def shortHash (sha : String) : String := String.ofList (sha.toList.take 16)

def trainingPhysics : Json :=
  .object
    [("trainingBundleSchema", .string "4.0.0"),
     ("catalogPhysicsSchema", .string "forge-training-catalog-physics/2.0.0"),
     ("catalogNativeMassInertia", .bool true),
     ("catalogBenchTableApplicability", .string "bound-and-fail-closed"),
     ("catalogExactGridRetained", .bool true),
     ("curveReadbackSchema", .string "forge-training-catalog-curve-readback/1.0.0"),
     ("independentCurveReadback", .string "required-when-grid-selected"),
     ("analyticFallbackAllowed", .bool true)]

/-- `NONCLAIMS` -/
def nonclaims : List (String × Bool) :=
  ["overnight200Candidate", "trainedFinalist", "catalogMarketplacePublicationReviewed", "catalogLivePersistence",
    "providerSandbox", "providerBillingVerified", "buildReady", "hardwareAuthority", "fieldEvidence"].map (·, false)

def batchSource (inputs : BatchInputs) : BatchSource where
  snapshotSchema := "forge-admitted-model-snapshot/1.0.0"
  modelId := inputs.modelId
  baseContractHash := inputs.contractHash
  searchPlanSchema := "forge-codesign-search-plan/3.0.0"
  searchPlanSha256 := inputs.planSha256
  candidateCount := totalProposals
  sourceRevision := inputs.sourceRevision
  sourceRevisionRecorded := inputs.sourceRevisionRecorded
  dependencyManifestSha256 := inputs.dependencyManifestSha256
  proposalRuntimeAuthority := inputs.proposalRuntimeAuthority
  catalogChoiceAuthority := inputs.catalogChoiceAuthority
  trainingPhysics := trainingPhysics
  runtime := "forge-codesign-engine-batch/5.0.0"
  maturity := "catalog-grid-readback-platform-local-engine-200-batch"

/-- A checkpoint before `_refresh`: its scheduler and candidates, and the header of the plan. -/
def withHeader (inputs : BatchInputs) (scheduler : Scheduler) (candidates : List Candidate) : Checkpoint where
  schemaVersion := "forge-codesign-engine-batch/5.0.0"
  artifactKind := "codesignEngineBatch"
  provider := "forge-local-engine-batch"
  cacheKey := s!"codesign.batch:v5:{shortHash inputs.contractHash}:" ++
    s!"{shortHash inputs.catalogChoiceAuthority.authoritySha256}:" ++
    s!"{shortHash inputs.proposalRuntimeAuthority.authoritySha256}:{shortHash inputs.planSha256}"
  source := batchSource inputs
  manifold := inputs.manifold
  constraints := inputs.constraints
  optimizer := inputs.algorithms
  scheduler := scheduler
  candidates := candidates
  pareto := []
  finalists := []
  benchmark := ⟨0, 0, 0, 0, 0, 0, 0, 0, false, false⟩
  cost := ⟨"", "", "", "", "", false, false, none, none, false⟩
  nonclaims := nonclaims
  checkpointSha256 := ""

/-- The scheduler of the empty checkpoint. -/
def newScheduler (inputs : BatchInputs) : Scheduler where
  state := .ready
  nextOrdinal := 0
  completedCandidates := 0
  checkpointEveryCandidate := true
  serialExecution := true
  resumePolicy := "exact-proposal-catalog-and-training-authority"
  requiredRuntimeAuthoritySha256 := inputs.proposalRuntimeAuthority.authoritySha256
  requiredCatalogAuthoritySha256 := inputs.catalogChoiceAuthority.catalogAuthoritySha256
  heterogeneousResumeAllowed := false
  resumeObserved := false
  cancellationObserved := false
  attempts := []

/-- `new_checkpoint` -/
def newCheckpoint (inputs : BatchInputs) : Checkpoint := refresh lib (withHeader inputs (newScheduler inputs) [])

/-! ### What a checkpoint is asked -/

/-- One turn of the loop of `_validate_attempts`; the cursor moves to the end of the attempt. -/
def validateAttempt (sequence cursor : ℕ) (attempt : Attempt) : Except String ℕ :=
  if attempt.sequence ≠ sequence ∨ attempt.startOrdinal ≠ cursor then
    .error "co-design engine-batch attempt continuity drifted"
  else if (attempt.endOrdinalExclusive : ℤ) - cursor ≠ attempt.candidatesEvaluated ∨
      ¬attempt.endOrdinalExclusive ≤ totalProposals then
    .error "co-design engine-batch attempt range drifted"
  else if ∃ limit ∈ attempt.requestedLimit, limit < 0 then
    .error "co-design engine-batch attempt limit is invalid"
  else if attempt.runtimeMs < 0 then
    .error "co-design engine-batch attempt outcome is invalid"
  else if attempt.outcome = .cancelled ∧ attempt.candidatesEvaluated ≠ 0 then
    .error "co-design engine-batch cancellation dispatched engine work"
  else if attempt.outcome = .complete ∧ attempt.endOrdinalExclusive ≠ totalProposals then
    .error "co-design engine-batch complete attempt is incomplete"
  else .ok attempt.endOrdinalExclusive

/-- The loop of `_validate_attempts`. -/
def validateAttemptsFrom : ℕ → ℕ → List Attempt → Except String ℕ
  | _, cursor, [] => .ok cursor
  | sequence, cursor, attempt :: attempts => do
    let cursor ← validateAttempt sequence cursor attempt
    validateAttemptsFrom (sequence + 1) cursor attempts

/-- The outcomes of the last attempt that go with a state. -/
def expectedTerminalOutcomes : SchedulerState → Option (List AttemptOutcome)
  | .ready => none
  | .running => some [.running]
  | .paused => some [.paused, .interrupted]
  | .cancelled => some [.cancelled]
  | .complete => some [.complete]

/-- The outcome of the last attempt. -/
def lastOutcome (attempts : List Attempt) : Option AttemptOutcome := attempts.getLast?.map Attempt.outcome

/-- `_validate_attempts` -/
def validateAttempts (scheduler : Scheduler) : Except String Unit := do
  let cursor ← validateAttemptsFrom 1 0 scheduler.attempts
  if cursor ≠ scheduler.nextOrdinal then .error "co-design engine-batch scheduler cursor drifted"
  else if lastOutcome scheduler.attempts = some .running ∧ scheduler.state ≠ .running then
    .error "co-design engine-batch running attempt state drifted"
  else if ∃ outcomes ∈ expectedTerminalOutcomes scheduler.state,
      ¬∃ outcome ∈ lastOutcome scheduler.attempts, outcome ∈ outcomes then
    .error "co-design engine-batch scheduler state lacks its terminal attempt"
  else .ok ()

/-- The loop over the candidates. -/
def validateCandidatesFrom (inputs : BatchInputs) : ℕ → List Candidate → Except String Unit
  | _, [] => .ok ()
  | ordinal, candidate :: candidates =>
    if candidate.ordinal ≠ ordinal then .error "co-design engine checkpoint candidates are not contiguous"
    else do
      validateCandidate lib inputs (inputs.proposals ordinal) candidate
      validateCandidatesFrom inputs (ordinal + 1) candidates

/-- The fields of the header that are compared with those of the empty checkpoint. -/
def headerFields (checkpoint expected : Checkpoint) : List (String × Bool) :=
  [("cacheKey", decide (checkpoint.cacheKey = expected.cacheKey)),
    ("source", decide (checkpoint.source = expected.source)),
    ("manifold", decide (checkpoint.manifold = expected.manifold)),
    ("constraints", decide (checkpoint.constraints = expected.constraints)),
    ("optimizer", decide (checkpoint.optimizer = expected.optimizer)),
    ("nonclaims", decide (checkpoint.nonclaims = expected.nonclaims))]

/-- One comparison of the header. -/
def requireHeaderField (field : String × Bool) : Except String Unit :=
  if field.2 = false then .error s!"co-design engine checkpoint {field.1} drifted" else .ok ()

/-- The identity, the hash and the header of a checkpoint. -/
def validateHeader (inputs : BatchInputs) (checkpoint : Checkpoint) : Except String Unit :=
  if checkpoint.schemaVersion ≠ "forge-codesign-engine-batch/5.0.0" then
    .error "co-design engine checkpoint version is unsupported"
  else if checkpoint.artifactKind ≠ "codesignEngineBatch" ∨ checkpoint.provider ≠ "forge-local-engine-batch" then
    .error "co-design engine checkpoint identity drifted"
  else if checkpoint.nonclaims ≠ nonclaims then .error "co-design engine checkpoint nonclaims drifted"
  else if checkpoint.checkpointSha256 ≠ lib.checkpointSha (checkpointPayload checkpoint) then
    .error "co-design engine checkpoint hash drifted"
  else (headerFields checkpoint (newCheckpoint lib inputs)).forM requireHeaderField

/-- The counters and the constants of the scheduler. -/
def validateScheduler (checkpoint : Checkpoint) : Except String Unit :=
  if ¬checkpoint.scheduler.nextOrdinal ≤ totalProposals ∨
      checkpoint.scheduler.completedCandidates ≠ checkpoint.scheduler.nextOrdinal then
    .error "co-design engine checkpoint scheduler counters are invalid"
  else if checkpoint.scheduler.checkpointEveryCandidate ≠ true ∨ checkpoint.scheduler.serialExecution ≠ true ∨
      checkpoint.scheduler.resumePolicy ≠ "exact-proposal-catalog-and-training-authority" ∨
      checkpoint.scheduler.requiredRuntimeAuthoritySha256 ≠
        checkpoint.source.proposalRuntimeAuthority.authoritySha256 ∨
      checkpoint.scheduler.requiredCatalogAuthoritySha256 ≠
        checkpoint.source.catalogChoiceAuthority.catalogAuthoritySha256 ∨
      checkpoint.scheduler.heterogeneousResumeAllowed ≠ false then
    .error "co-design engine checkpoint durability or scheduling drifted"
  else .ok ()

/-- The state against the attempts and the cursor. -/
def validateState (scheduler : Scheduler) : Except String Unit :=
  if scheduler.state = .ready ∧ scheduler.attempts ≠ [] then
    .error "co-design engine checkpoint ready state has attempts"
  else if scheduler.state = .complete ∧ scheduler.nextOrdinal ≠ totalProposals then
    .error "co-design engine checkpoint complete state is incomplete"
  else if scheduler.state ≠ .complete ∧ scheduler.nextOrdinal = totalProposals then
    .error "co-design engine checkpoint finished without complete state"
  else .ok ()

/-- `validate_checkpoint` -/
def validateCheckpoint (inputs : BatchInputs) (checkpoint : Checkpoint) : Except String Checkpoint := do
  validateHeader lib inputs checkpoint
  validateScheduler checkpoint
  validateAttempts checkpoint.scheduler
  if checkpoint.candidates.length ≠ checkpoint.scheduler.nextOrdinal then
    .error "co-design engine checkpoint candidate count drifted"
  else do
    validateCandidatesFrom lib inputs 0 checkpoint.candidates
    if refresh lib { checkpoint with checkpointSha256 := "" } ≠ checkpoint then
      .error "co-design engine checkpoint derived evidence drifted"
    else do
      validateState checkpoint.scheduler
      .ok checkpoint

/-! ### One call -/

/-- The arguments of a call, with what the evaluator and the clock do in it: the evaluator may raise, and the
clock gives the milliseconds since the call began, after each ordinal and at the end. -/
structure Call where
  maxCandidates : Option ℤ
  cancelRequested : Bool
  evaluator : Proposal → Except String Candidate
  elapsed : ℕ → ℚ≥0
  elapsedAtEnd : ℚ≥0

/-- What a call does, and how it ends. -/
abbrev CallTrace : Type := List (Entry Checkpoint) × Except String Checkpoint

/-- Mark an attempt that was left running. -/
def markInterrupted (checkpoint : Checkpoint) : Checkpoint :=
  refresh lib
    { checkpoint with
      scheduler :=
        { checkpoint.scheduler with
          state := .paused
          attempts := checkpoint.scheduler.attempts.dropLast ++
            checkpoint.scheduler.attempts.getLast?.toList.map ({ · with outcome := .interrupted }) } }

/-- The ordinal at which a call stops. -/
def callLimit (start : ℕ) (maxCandidates : Option ℤ) : ℕ :=
  min totalProposals (start + (maxCandidates.map Int.toNat).getD totalProposals)

/-- The attempt that a call adds. -/
def newAttempt (checkpoint : Checkpoint) (call : Call) : Attempt where
  sequence := checkpoint.scheduler.attempts.length + 1
  startOrdinal := checkpoint.scheduler.nextOrdinal
  endOrdinalExclusive := checkpoint.scheduler.nextOrdinal
  candidatesEvaluated := 0
  requestedLimit := call.maxCandidates
  outcome := .running
  runtimeMs := 0

/-- The checkpoint with a state and, after the earlier attempts, the current one. -/
def withAttempt (checkpoint : Checkpoint) (state : SchedulerState) (earlier : List Attempt) (attempt : Attempt) :
    Checkpoint :=
  refresh lib
    { checkpoint with scheduler := { checkpoint.scheduler with state, attempts := earlier ++ [attempt] } }

/-- The attempt after the candidate `ordinal`. -/
def advanceAttempt (attempt : Attempt) (ordinal : ℕ) (elapsed : ℚ≥0) : Attempt :=
  { attempt with
    endOrdinalExclusive := ordinal + 1
    candidatesEvaluated := ordinal + 1 - attempt.startOrdinal
    runtimeMs := elapsed }

/-- The checkpoint after the candidate `ordinal`. -/
def withCandidate (checkpoint : Checkpoint) (earlier : List Attempt) (attempt : Attempt) (ordinal : ℕ)
    (candidate : Candidate) : Checkpoint :=
  refresh lib
    { checkpoint with
      candidates := checkpoint.candidates ++ [candidate]
      scheduler :=
        { checkpoint.scheduler with nextOrdinal := ordinal + 1, attempts := earlier ++ [attempt] } }

/-- Evaluate a proposal and check the result. -/
def evaluateProposal (inputs : BatchInputs) (call : Call) (ordinal : ℕ) : Except String Candidate := do
  let candidate ← call.evaluator (inputs.proposals ordinal)
  validateCandidate lib inputs (inputs.proposals ordinal) candidate
  .ok candidate

/-- The end of a call that went through its candidates. -/
def finishCall (inputs : BatchInputs) (call : Call) (earlier : List Attempt) (limit : ℕ) (attempt : Attempt)
    (checkpoint : Checkpoint) : CallTrace :=
  let outcome := if limit = totalProposals then AttemptOutcome.complete else .paused
  let state := if limit = totalProposals then SchedulerState.complete else .paused
  let value := withAttempt lib checkpoint state earlier { attempt with outcome, runtimeMs := call.elapsedAtEnd }
  ([.save value], validateCheckpoint lib inputs value)

/-- The loop over the ordinals, and what comes after it. -/
def evaluateFrom (inputs : BatchInputs) (call : Call) (earlier : List Attempt) (limit : ℕ) :
    List ℕ → Attempt → Checkpoint → CallTrace
  | [], attempt, checkpoint => finishCall lib inputs call earlier limit attempt checkpoint
  | ordinal :: ordinals, attempt, checkpoint =>
    match evaluateProposal lib inputs call ordinal with
    | .error e => ([.work ordinal], .error e)
    | .ok candidate =>
      let attempt := advanceAttempt attempt ordinal (call.elapsed ordinal)
      let value := withCandidate lib checkpoint earlier attempt ordinal candidate
      let rest := evaluateFrom inputs call earlier limit ordinals attempt value
      (.work ordinal :: .save value :: rest.1, rest.2)

/-- The attempt of a call. -/
def runAttempt (inputs : BatchInputs) (call : Call) (checkpoint : Checkpoint) : CallTrace :=
  let earlier := checkpoint.scheduler.attempts
  let start := checkpoint.scheduler.nextOrdinal
  let limit := callLimit start call.maxCandidates
  let attempt := newAttempt checkpoint call
  if call.cancelRequested then
    let value := withAttempt lib checkpoint .cancelled earlier
      { attempt with outcome := .cancelled, runtimeMs := call.elapsedAtEnd }
    ([.save value], validateCheckpoint lib inputs value)
  else
    let value := withAttempt lib checkpoint .running earlier attempt
    let rest := evaluateFrom lib inputs call earlier limit (List.range' start (limit - start)) attempt value
    (.save value :: rest.1, rest.2)

/-- The checkpoint that a call goes on from. -/
def openCheckpoint (inputs : BatchInputs) : Option Checkpoint → Except String Checkpoint
  | none => .ok (newCheckpoint lib inputs)
  | some checkpoint => validateCheckpoint lib inputs checkpoint

/-- What a call does with the checkpoint that it goes on from. -/
def advanceOpen (inputs : BatchInputs) (checkpoint : Checkpoint) (call : Call) : CallTrace :=
  if checkpoint.scheduler.state = .complete then ([], .ok checkpoint)
  else if ∃ limit ∈ call.maxCandidates, limit < 0 then
    ([], .error "co-design engine-batch max-candidates must be a non-negative integer")
  else if lastOutcome checkpoint.scheduler.attempts = some .running then
    let value := markInterrupted lib checkpoint
    let rest := runAttempt lib inputs call value
    (.save value :: rest.1, rest.2)
  else runAttempt lib inputs call checkpoint

/-- `advance_batch`, with the result of `_validated_inputs`. -/
def advanceBatch (validated : Except String BatchInputs) (checkpoint : Option Checkpoint) (call : Call) : CallTrace :=
  match validated with
  | .error e => ([], .error e)
  | .ok inputs =>
    match openCheckpoint lib inputs checkpoint with
    | .error e => ([], .error e)
    | .ok value => advanceOpen lib inputs value call

end

end Forge.Codesign
