import Forge.Data.Table
import Forge.Json.Value

/-!
# The job queue: rows and tables

The rows of the job tables as the migrations define them, and the database as the
record of the tables that the worker (`queue.py`) and the gateway (`platform.ts`,
`consent.ts`) change in their job transactions. Timestamps are microseconds on
the database clock and credits are whole numbers.

Columns that no modelled statement reads or sets are left out: the trace and
span ids, and the billing columns filled in by cost reconciliation.
-/

namespace Forge.Queue

/-- One second on the database clock. -/
def second : ℕ := 1000000

/-- `JOB_KINDS` -/
inductive JobKind where
  | etlIngestComponent | occtTessellate | photoscanSingle | photoscanMultiview | trainPolicy | trainOfflineBc
  | trainSysidFit | replayVerify | codesignEvaluate | bridgeConfigDiff | bridgeTelemetryIngest
  | bridgeSupervisorCheck | commerceVendorRefresh | maintenanceEstimateWear | maintenanceCrashForensics
  | maintenanceRepairSheet | maintenanceFleetSummary
deriving DecidableEq

/-- The name of a kind in requests and rows. -/
def JobKind.text : JobKind → String
  | .etlIngestComponent => "etl.ingest-component"
  | .occtTessellate => "occt.tessellate"
  | .photoscanSingle => "photoscan.single"
  | .photoscanMultiview => "photoscan.multiview"
  | .trainPolicy => "train.policy"
  | .trainOfflineBc => "train.offline-bc"
  | .trainSysidFit => "train.sysid-fit"
  | .replayVerify => "replay.verify"
  | .codesignEvaluate => "codesign.evaluate"
  | .bridgeConfigDiff => "bridge.config-diff"
  | .bridgeTelemetryIngest => "bridge.telemetry-ingest"
  | .bridgeSupervisorCheck => "bridge.supervisor-check"
  | .commerceVendorRefresh => "commerce.vendor-refresh"
  | .maintenanceEstimateWear => "maintenance.estimate-wear"
  | .maintenanceCrashForensics => "maintenance.crash-forensics"
  | .maintenanceRepairSheet => "maintenance.repair-sheet"
  | .maintenanceFleetSummary => "maintenance.fleet-summary"

inductive JobStatus where
  | queued | running | succeeded | failed | cancelled
deriving DecidableEq

/-- The states no transaction leaves. -/
def JobStatus.terminal : JobStatus → Bool
  | .succeeded | .failed | .cancelled => true
  | .queued | .running => false

inductive Provider where
  | fixture | localWorker | modal
deriving DecidableEq

/-- A row of `jobs`. -/
structure Job where
  id : String
  ownerUserId : String
  kind : JobKind
  status : JobStatus
  provider : Provider
  idempotencyKey : Option String
  input : Json
  output : Option Json
  error : Option String
  lastErrorCode : Option String
  costCredits : ℕ
  attempts : ℕ
  maxAttempts : ℕ
  timeoutSeconds : ℕ
  availableAt : ℕ
  /-- The attempt fence: only the current unexpired lease may finish, retry or fail a job. -/
  leaseToken : Option String
  leaseExpiresAt : Option ℕ
  createdAt : ℕ
  startedAt : Option ℕ
  finishedAt : Option ℕ
  cancelRequestedAt : Option ℕ
  creditRefundedAt : Option ℕ
  providerCallId : Option String
  providerFunctionVersion : Option ℕ
  providerEnvironment : Option String
  providerDeploymentContractHash : Option String
  providerSubmittedAt : Option ℕ
  providerCompletedAt : Option ℕ
  providerCancelledAt : Option ℕ
deriving DecidableEq

inductive Outcome where
  | running | succeeded | retryScheduled | failed | cancelled | expired
deriving DecidableEq

/-- A row of `job_observability_attempts`; the primary key is `(jobId, attempt)`. -/
structure Attempt where
  jobId : String
  attempt : ℕ
  attemptId : String
  outcome : Outcome
  errorCode : Option String
  startedAt : ℕ
  finishedAt : Option ℕ
deriving DecidableEq

inductive CallStatus where
  | submitted | succeeded | failed | cancellationRequested | cancelled
deriving DecidableEq

/-- A row of `job_provider_calls`. -/
structure ProviderCall where
  callId : String
  jobId : String
  attempt : ℕ
  functionVersion : ℕ
  environment : String
  deploymentContractHash : String
  status : CallStatus
  submittedAt : ℕ
  completedAt : Option ℕ
  cancelledAt : Option ℕ
deriving DecidableEq

/-- A row of `job_events`. -/
structure JobEvent where
  jobId : String
  event : String
  payload : Json
deriving DecidableEq

/-- A row of `credit_ledger`. -/
structure LedgerEntry where
  userId : String
  deltaCredits : ℤ
  reason : String
  sourceKind : String
  sourceId : String
  idempotencyKey : String
deriving DecidableEq

/-- A row of `credit_accounts`. -/
structure CreditAccount where
  userId : String
  balanceCredits : ℤ
deriving DecidableEq

inductive ConsentPurpose where
  | photoscanProcessing | telemetrySharing | patternContribution | leaderboardPublication | trainingReuse
deriving DecidableEq

inductive ConsentSubjectKind where
  | account | objectBlob | telemetryLog | model
deriving DecidableEq

inductive ConsentAction where
  | grant | withdraw
deriving DecidableEq

/-- A row of `user_consent_events`, in `event_sequence` order. -/
structure ConsentEvent where
  ledgerVersion : String
  ownerUserId : String
  purpose : ConsentPurpose
  subjectKind : ConsentSubjectKind
  subjectId : String
  policyVersion : String
  noticeHash : String
  action : ConsentAction
  idempotencyKey : Option String
deriving DecidableEq

/-- The tables of the job transactions. -/
structure Db where
  jobs : List Job
  attempts : List Attempt
  providerCalls : List ProviderCall
  jobEvents : List JobEvent
  creditLedger : List LedgerEntry
  creditAccounts : List CreditAccount
  consentEvents : List ConsentEvent

/-- The database before anything was created. -/
def Db.empty : Db where
  jobs := []
  attempts := []
  providerCalls := []
  jobEvents := []
  creditLedger := []
  creditAccounts := []
  consentEvents := []

/-- The rows of `job_observability_attempts` of one job. -/
def Db.attemptsOf (db : Db) (id : String) : List Attempt := db.attempts.filter fun a => a.jobId = id

/-! ### Statements on the attempt table -/

/-- `UPDATE job_observability_attempts SET outcome, error_code, finished_at = now()` for the
selected rows that are still running. -/
def closeAttempts (now : ℕ) (selected : Attempt → Bool) (outcome : Outcome) (errorCode : Option String)
    (attempts : List Attempt) : List Attempt :=
  Table.update (fun a => selected a && a.outcome = .running)
    (fun a => { a with outcome, errorCode, finishedAt := some now }) attempts

/-- `INSERT INTO job_observability_attempts`: refused when a key is taken or the attempt number
is outside `1..10`. -/
def insertAttempt (new : Attempt) (attempts : List Attempt) : Option (List Attempt) :=
  if attempts.any (fun a => a.jobId = new.jobId && a.attempt = new.attempt || a.attemptId = new.attemptId) ∨
      new.attempt < 1 ∨ 10 < new.attempt then none
  else some (attempts ++ [new])

theorem mem_closeAttempts {now : ℕ} {sel : Attempt → Bool} {o : Outcome} {c : Option String} {as : List Attempt}
    {a : Attempt} (h : a ∈ closeAttempts now sel o c as) :
    ∃ b ∈ as, a.jobId = b.jobId ∧ a.attempt = b.attempt ∧ a.attemptId = b.attemptId ∧
      ((a.outcome = b.outcome ∧ (sel b = true → b.outcome ≠ .running)) ∨ (sel b = true ∧ a.outcome = o)) := by
  obtain ⟨b, hb, rfl⟩ := Table.mem_update.mp h
  refine ⟨b, hb, ?_⟩
  by_cases hs : sel b = true <;> by_cases hr : b.outcome = .running <;> simp [hs, hr]

/-- Closing attempts changes neither the keys nor the order of the rows. -/
theorem map_closeAttempts {κ : Type} {g : Attempt → κ} {now : ℕ} {sel : Attempt → Bool} {o : Outcome}
    {c : Option String} (hg : ∀ a f, g { a with outcome := o, errorCode := c, finishedAt := f } = g a)
    (as : List Attempt) : (closeAttempts now sel o c as).map g = as.map g :=
  Table.map_update (fun a _ => hg a _) as

end Forge.Queue
