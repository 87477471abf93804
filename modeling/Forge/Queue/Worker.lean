import Forge.Queue.Model

/-!
# Worker transactions

The database transactions of `PostgresQueueStore` (`queue.py`), each a function
from the tables and the database clock to the tables it commits and the value it
returns. What the code draws at random (the lease token, the attempt id) or
leaves to the database (`FOR UPDATE SKIP LOCKED` takes some claimable row, or
none) is an argument. A transaction that violates a constraint is rolled back:
it returns the tables it was given.

`mark_succeeded` is two transactions, reading the authority and committing the
result; between them it stores the policy object, which is outside the database.
-/

namespace Forge.Queue

/-- The claimed job as the worker holds it (`Job` in `queue.py`). -/
structure ClaimedJob where
  id : String
  task : JobKind
  payload : Json
  idempotencyKey : String
  attempts : ℕ
  provider : Provider
  attemptId : String
  leaseToken : String
  leaseExpiresAt : ℕ
  maxAttempts : ℕ
  timeoutSeconds : ℕ
  providerCallId : Option String
deriving DecidableEq

/-! ### Claiming -/

/-- The row's lease has run out. -/
def leaseExpired (now : ℕ) (j : Job) : Bool := j.leaseExpiresAt.any fun e => e ≤ now

/-- A row of the worker's kinds that a worker plane may serve. -/
def served (tasks : List JobKind) (j : Job) : Bool := j.provider ≠ .fixture && decide (j.kind ∈ tasks)

/-- Running with an expired lease and no attempt left. -/
def exhausted (now : ℕ) (tasks : List JobKind) (j : Job) : Bool :=
  j.status = .running && served tasks j && leaseExpired now j && j.maxAttempts ≤ j.attempts

/-- Queued and due, or running with an expired lease, with an attempt left. -/
def claimable (now : ℕ) (tasks : List JobKind) (j : Job) : Bool :=
  served tasks j && j.attempts < j.maxAttempts &&
    (j.status = .queued && j.availableAt ≤ now || j.status = .running && leaseExpired now j)

/-- `SET status = 'failed', … 'worker-crash-exhausted'` -/
def Job.failExhausted (now : ℕ) (j : Job) : Job :=
  { j with status := .failed, error := some "worker-crash-exhausted: retry attempts exhausted",
           lastErrorCode := some "worker-crash-exhausted", finishedAt := some now, leaseToken := none,
           leaseExpiresAt := none }

/-- The first statement of a claim: jobs whose worker died on the last attempt fail. -/
def exhaust (now : ℕ) (tasks : List JobKind) (db : Db) : Db :=
  let gone := db.jobs.filter (exhausted now tasks)
  { db with
    jobs := Table.update (exhausted now tasks) (Job.failExhausted now) db.jobs
    attempts := closeAttempts now (fun a => gone.any fun j => a.jobId = j.id && a.attempt = j.attempts) .failed
      (some "worker-crash-exhausted") db.attempts
    jobEvents := db.jobEvents ++ gone.map fun j =>
      { jobId := j.id, event := "failed", payload := .object [("code", .string "worker-crash-exhausted")] } }

/-- `SET status = 'running', attempts = attempts + 1, …` with a fresh lease. -/
def Job.startAttempt (now : ℕ) (token : String) (j : Job) : Job :=
  { j with status := .running, attempts := j.attempts + 1, startedAt := j.startedAt.or (some now),
           finishedAt := none, error := none, lastErrorCode := none, leaseToken := some token,
           leaseExpiresAt := some (now + j.timeoutSeconds * second) }

/-- The claim handed to the worker for the row `prior`. -/
def Job.claimed (now : ℕ) (token attemptId : String) (prior : Job) : ClaimedJob :=
  { id := prior.id, task := prior.kind, payload := .object (prior.input.asObject.getD []),
    idempotencyKey := prior.idempotencyKey.getD prior.id, attempts := prior.attempts + 1,
    provider := prior.provider, attemptId, leaseToken := token,
    leaseExpiresAt := now + prior.timeoutSeconds * second, maxAttempts := prior.maxAttempts,
    timeoutSeconds := prior.timeoutSeconds, providerCallId := prior.providerCallId }

/-- The tables after `prior` was claimed, unless the new attempt row is refused. -/
def takeClaim (now : ℕ) (token attemptId : String) (prior : Job) (db : Db) : Option Db := do
  let closed := closeAttempts now
    (fun a => prior.status = .running && a.jobId = prior.id && a.attempt = prior.attempts) .expired
    (some "attempt-lease-expired") db.attempts
  let attempts ← insertAttempt
    { jobId := prior.id, attempt := prior.attempts + 1, attemptId, outcome := .running, errorCode := none,
      startedAt := now, finishedAt := none } closed
  some { db with jobs := Table.update (fun j => j.id = prior.id) (Job.startAttempt now token) db.jobs, attempts }

/-- Claim one job: `pick` is the row the database locks, if any. -/
def claimOne (now : ℕ) (tasks : List JobKind) (pick : Option String) (token attemptId : String) (db : Db) :
    Db × Option ClaimedJob :=
  if tasks.isEmpty then (db, none)
  else
    let swept := exhaust now tasks db
    match pick.bind fun id => Table.find Job.id id (swept.jobs.filter (claimable now tasks)) with
    | none => (swept, none)
    | some prior =>
      match takeClaim now token attemptId prior swept with
      | none => (db, none)
      | some db' => (db', some (prior.claimed now token attemptId))

/-! ### Finishing -/

/-- `WHERE id = … AND status = 'running' AND lease_token = … AND lease_expires_at > now()` -/
def holdsLease (now : ℕ) (h : ClaimedJob) (j : Job) : Bool :=
  j.id = h.id && j.status = .running && j.leaseToken = some h.leaseToken && j.leaseExpiresAt.any fun e => now < e

/-- Close the attempt of the claim `h`. -/
def closeClaim (now : ℕ) (h : ClaimedJob) (outcome : Outcome) (errorCode : Option String) (db : Db) : List Attempt :=
  closeAttempts now (fun a => a.jobId = h.id && a.attempt = h.attempts && a.attemptId = h.attemptId) outcome errorCode
    db.attempts

/-- `UPDATE job_provider_calls SET status, completed_at = COALESCE(completed_at, now())` -/
def completeCalls (now : ℕ) (selected : ProviderCall → Bool) (status : CallStatus) (calls : List ProviderCall) :
    List ProviderCall :=
  Table.update selected (fun c => { c with status, completedAt := c.completedAt.or (some now) }) calls

/-- The owner and input of the job, while the claim is current. -/
def currentJobAuthority (now : ℕ) (h : ClaimedJob) (db : Db) : Option (String × Json) :=
  if h.leaseToken = "" then none
  else (db.jobs.find? (holdsLease now h)).map fun j => (j.ownerUserId, j.input)

/-- `_provider_call_id`: the call id in the output's evidence, if it has a sane length. -/
def providerCallId (output : Json) : Option String := do
  let evidence ← output.member "providerEvidence"
  let callId ← (← evidence.member "functionCallId").asStr
  if 3 ≤ callId.length ∧ callId.length ≤ 200 then some callId else none

/-- `provider_completed_at` once the provider work of the row has ended. -/
def Job.completedAt (now : ℕ) (j : Job) : Option ℕ :=
  if j.providerCallId.isSome then some now else j.providerCompletedAt

def Job.succeed (now : ℕ) (output : Json) (j : Job) : Job :=
  { j with status := .succeeded, output := some output, error := none, lastErrorCode := none, finishedAt := some now,
           providerCompletedAt := j.completedAt now, leaseToken := none, leaseExpiresAt := none }

/-- The second transaction of `mark_succeeded`: `persisted` is the output to store and
`final` what materialising it returned. -/
def commitSucceeded (now : ℕ) (h : ClaimedJob) (persisted : Json) (final : Option Json) (db : Db) : Db × Bool :=
  if db.jobs.any (holdsLease now h) then
    ({ db with
       jobs := Table.update (fun j => final.isSome && j.id = h.id && j.status = .succeeded)
         (fun j => { j with output := final }) (Table.update (holdsLease now h) (Job.succeed now persisted) db.jobs)
       attempts := closeClaim now h .succeeded none db
       providerCalls := completeCalls now (fun c => c.jobId = h.id && some c.callId = providerCallId persisted)
         .succeeded db.providerCalls }, true)
  else (db, false)

def Job.fail (now : ℕ) (error code : String) (j : Job) : Job :=
  { j with status := .failed, error := some error, lastErrorCode := some code, finishedAt := some now,
           providerCompletedAt := j.completedAt now, leaseToken := none, leaseExpiresAt := none }

def markFailed (now : ℕ) (h : ClaimedJob) (error code : String) (db : Db) : Db × Bool :=
  if h.leaseToken = "" then (db, false)
  else if db.jobs.any (holdsLease now h) then
    ({ db with
       jobs := Table.update (holdsLease now h) (Job.fail now error code) db.jobs
       attempts := closeClaim now h .failed (some code) db
       providerCalls := completeCalls now (fun c => c.jobId = h.id && c.status = .submitted) .failed
         db.providerCalls }, true)
  else (db, false)

/-- Deterministic exponential retry delay, in microseconds, with a bounded provider hint. -/
def retryDelay (attempt : ℕ) (hinted : Option ℕ) : ℕ :=
  let delay := min (5 * second * 2 ^ min (attempt - 1) 8) (15 * 60 * second)
  max second (min (max delay (hinted.getD 0)) (15 * 60 * second))

def Job.retry (now delay : ℕ) (error code : String) (j : Job) : Job :=
  let preserve : Bool := code = "provider-recovery-pending"
  if j.attempts < j.maxAttempts then
    { j with status := .queued, availableAt := now + delay, error := some error, lastErrorCode := some code,
             finishedAt := none, leaseToken := none, leaseExpiresAt := none,
             providerCompletedAt := if preserve then j.providerCompletedAt else none,
             providerCallId := if preserve then j.providerCallId else none,
             providerFunctionVersion := if preserve then j.providerFunctionVersion else none,
             providerEnvironment := if preserve then j.providerEnvironment else none,
             providerDeploymentContractHash := if preserve then j.providerDeploymentContractHash else none,
             providerSubmittedAt := if preserve then j.providerSubmittedAt else none,
             providerCancelledAt := if preserve then j.providerCancelledAt else none }
  else
    { j with status := .failed, error := some error, lastErrorCode := some code, finishedAt := some now,
             leaseToken := none, leaseExpiresAt := none,
             providerCompletedAt := if preserve then j.providerCompletedAt else j.completedAt now }

/-- Requeue the job, or fail it on the last attempt; returns the status it got. `callId` is the
provider call the worker knows of. -/
def markRetryable (now : ℕ) (h : ClaimedJob) (callId : Option String) (error code : String) (retryAfter : Option ℕ)
    (db : Db) : Db × Option JobStatus :=
  if h.leaseToken = "" then (db, none)
  else
    match db.jobs.find? (holdsLease now h) with
    | none => (db, none)
    | some row =>
      let status := (row.retry now (retryDelay h.attempts retryAfter) error code).status
      let preserve : Bool := code = "provider-recovery-pending"
      ({ db with
         jobs := Table.update (holdsLease now h) (Job.retry now (retryDelay h.attempts retryAfter) error code) db.jobs
         attempts := closeClaim now h (if status = .queued then .retryScheduled else .failed) (some code) db
         providerCalls := completeCalls now (fun c => c.jobId = h.id && c.status = .submitted &&
           (c.attempt = h.attempts || some c.callId = callId) && !preserve) .failed db.providerCalls }, some status)

/-! ### Provider calls -/

/-- What the provider said about a submitted call. -/
structure CallEvidence where
  functionVersion : ℕ
  environment : String
  deploymentContractHash : String
  submittedAt : ℕ
deriving DecidableEq

/-- Record a submitted provider call, while the claim is current and no call is recorded. -/
def recordProviderCall (now : ℕ) (h : ClaimedJob) (callId : String) (evidence : CallEvidence) (db : Db) : Db × Bool :=
  let row (j : Job) : Bool := holdsLease now h j && j.provider = .modal && j.providerCallId.isNone
  if db.jobs.any row ∧ db.providerCalls.all (fun c => c.callId ≠ callId && !(c.jobId = h.id && c.attempt = h.attempts))
      ∧ db.jobs.all (fun j => j.providerCallId ≠ some callId) then
    ({ db with
       jobs := Table.update row (fun j =>
         { j with providerCallId := some callId, providerFunctionVersion := some evidence.functionVersion,
                  providerEnvironment := some evidence.environment,
                  providerDeploymentContractHash := some evidence.deploymentContractHash,
                  providerSubmittedAt := some evidence.submittedAt, providerCompletedAt := none,
                  providerCancelledAt := none }) db.jobs
       providerCalls := db.providerCalls ++
         [{ callId, jobId := h.id, attempt := h.attempts, functionVersion := evidence.functionVersion,
            environment := evidence.environment, deploymentContractHash := evidence.deploymentContractHash,
            status := .submitted, submittedAt := evidence.submittedAt, completedAt := none, cancelledAt := none }] },
      true)
  else (db, false)

/-- Record that the provider cancelled a call; no lease is asked for. -/
def recordProviderCancelled (now : ℕ) (jobId callId : String) (db : Db) : Db :=
  { db with
    jobs := Table.update (fun j => j.id = jobId && j.provider = .modal && j.providerCallId = some callId)
      (fun j => { j with providerCancelledAt := j.providerCancelledAt.or (some now) }) db.jobs
    providerCalls := Table.update (fun c => c.jobId = jobId && c.callId = callId)
      (fun c => { c with status := .cancelled, cancelledAt := c.cancelledAt.or (some now) }) db.providerCalls }

end Forge.Queue
