import Forge.Queue.Model

/-!
# Gateway transactions

`createJob` and `cancelOwnedJob` (`platform.ts`) and `recordConsent` with
`applyWithdrawal` (`consent.ts`), each a function from the tables to the tables it
commits or the error it throws; a transaction that throws commits nothing.

`GatewayEnv` holds the deployment's settings and digests. `Readings` is what a
call reads outside the modelled tables: whether some check of the request
refused it, and the payload after the gateway added its own fields.
-/

namespace Forge.Queue

/-- An error with its HTTP status. -/
structure GatewayError where
  message : String
  statusCode : ℕ
deriving DecidableEq

/-- Settings and digests that are fixed while the gateway runs. -/
structure GatewayEnv where
  /-- `scopedJobIdempotencyKey`: the digest of user and client key. -/
  scopedJobIdempotencyKey : String → String → String
  /-- The digest of the notice text of each purpose. -/
  noticeHash : ConsentPurpose → String
  /-- `FORGE_MODAL_MAX_ACTIVE_JOBS` -/
  modalMaxActiveJobs : ℕ
  /-- `FORGE_MODAL_DAILY_CREDIT_LIMIT` -/
  modalDailyCreditLimit : ℕ
  /-- `fixtureJobOutput` -/
  fixtureJobOutput : JobKind → Json → Json

/-- What one request finds outside the modelled tables. -/
structure Readings where
  /-- The refusal of a check that reads no modelled table. -/
  refusal : Option GatewayError
  /-- The refusal of `assertOwnedSubject` for a subject. -/
  ownership : ConsentPurpose → String → Option GatewayError
  /-- The payload with the gateway-owned fields. -/
  authoritativePayload : Json

structure CreateJobInput where
  kind : JobKind
  provider : Provider
  payload : Json
  idempotencyKey : Option String
deriving DecidableEq

/-! ### Consent -/

def consentLedgerFormatVersion : String := "1.0.0"

/-- The version of every consent policy. -/
def consentPolicyVersion : String := "1.0.0"

/-- The kind of subject a purpose is about. -/
def ConsentPurpose.subjectKind : ConsentPurpose → ConsentSubjectKind
  | .photoscanProcessing => .objectBlob
  | .telemetrySharing => .telemetryLog
  | .patternContribution => .model
  | .leaderboardPublication => .account
  | .trainingReuse => .telemetryLog

def ConsentPurpose.text : ConsentPurpose → String
  | .photoscanProcessing => "photoscan.processing"
  | .telemetrySharing => "telemetry.sharing"
  | .patternContribution => "pattern.contribution"
  | .leaderboardPublication => "leaderboard.publication"
  | .trainingReuse => "training.reuse"

def ConsentSubjectKind.text : ConsentSubjectKind → String
  | .account => "account"
  | .objectBlob => "object-blob"
  | .telemetryLog => "telemetry-log"
  | .model => "model"

/-- Whether an event is a grant under the current policy. -/
def ConsentEvent.active (env : GatewayEnv) (e : ConsentEvent) : Bool :=
  e.action = .grant && e.ledgerVersion = consentLedgerFormatVersion && e.policyVersion = consentPolicyVersion &&
    e.noticeHash = env.noticeHash e.purpose

/-- The latest consent event of an owner about a subject. -/
def latestConsent (db : Db) (user : String) (purpose : ConsentPurpose) (kind : ConsentSubjectKind)
    (subjectId : String) : Option ConsentEvent :=
  (db.consentEvents.filter fun e =>
    e.ownerUserId = user && e.purpose = purpose && e.subjectKind = kind && e.subjectId = subjectId).getLast?

/-- `assertActiveConsent` -/
def assertActiveConsent (env : GatewayEnv) (readings : Readings) (db : Db) (user : String) (purpose : ConsentPurpose)
    (subjectId : String) : Except GatewayError Unit :=
  match readings.ownership purpose subjectId with
  | some e => .error e
  | none =>
    match latestConsent db user purpose purpose.subjectKind subjectId with
    | none => .error { message := s!"{purpose.text} consent is required", statusCode := 409 }
    | some e =>
      if e.active env then .ok () else .error { message := s!"{purpose.text} consent is required", statusCode := 409 }

/-- The nonempty strings of an array member, without repetition. -/
def stringsOf (key : String) (payload : Json) : List String :=
  ((((payload.member key).bind Json.asArray).getD []).filterMap fun x =>
    x.asStr.filter fun s => s ≠ "").dedup

def sourceBlobIdsFromPayload (payload : Json) : List String := stringsOf "sourceBlobIds" payload

def telemetryLogIdsFromPayload (payload : Json) : List String :=
  (stringsOf "telemetryLogIds" payload ++
    (((payload.member "telemetryLogId").bind Json.asStr).filter fun s => s ≠ "").toList).dedup

/-- The consents a job of this kind needs for its payload. -/
def consentRequirements (kind : JobKind) (payload : Json) : List (ConsentPurpose × String) :=
  match kind with
  | .photoscanSingle | .photoscanMultiview => (sourceBlobIdsFromPayload payload).map fun id => (.photoscanProcessing, id)
  | .trainPolicy | .trainOfflineBc => (telemetryLogIdsFromPayload payload).map fun id => (.trainingReuse, id)
  | _ => []

/-- `jsonb @> to_jsonb(ARRAY[id])` on a member that is absent or an array. -/
def containsString (member : Option Json) (id : String) : Bool :=
  match member with
  | some (.array xs) => xs.any fun x => x.asStr = some id
  | _ => false

/-- The queued or running jobs that a withdrawal cancels. -/
def withdrawalHits (user : String) (purpose : ConsentPurpose) (subjectId : String) (j : Job) : Bool :=
  j.ownerUserId = user && (j.status = .queued || j.status = .running) &&
    match purpose with
    | .photoscanProcessing =>
      (j.kind = .photoscanSingle || j.kind = .photoscanMultiview) &&
        containsString (j.input.member "sourceBlobIds") subjectId
    | .trainingReuse =>
      (j.kind = .trainPolicy || j.kind = .trainOfflineBc) &&
        (containsString (j.input.member "telemetryLogIds") subjectId ||
          (j.input.member "telemetryLogId").bind Json.asStr = some subjectId)
    | _ => false

/-- The text a withdrawal leaves on the jobs it cancels. -/
def ConsentPurpose.withdrawnText : ConsentPurpose → String
  | .photoscanProcessing => "photoscan consent withdrawn"
  | _ => "training reuse consent withdrawn"

def Job.withdraw (now : ℕ) (purpose : ConsentPurpose) (j : Job) : Job :=
  { j with status := .cancelled, error := some purpose.withdrawnText, lastErrorCode := some "consent-withdrawn",
           finishedAt := some now, leaseToken := none, leaseExpiresAt := none }

/-- `applyWithdrawal`, as far as it concerns jobs. -/
def applyWithdrawal (now : ℕ) (user : String) (purpose : ConsentPurpose) (subjectId : String) (db : Db) : Db :=
  { db with jobs := Table.update (withdrawalHits user purpose subjectId) (Job.withdraw now purpose) db.jobs }

structure ConsentInput where
  purpose : ConsentPurpose
  subjectKind : ConsentSubjectKind
  subjectId : String
  policyVersion : String
  noticeHash : String
  action : ConsentAction
  idempotencyKey : Option String
deriving DecidableEq

/-- The event `recordConsent` appends. -/
def ConsentInput.event (user : String) (input : ConsentInput) : ConsentEvent :=
  { ledgerVersion := consentLedgerFormatVersion, ownerUserId := user, purpose := input.purpose,
    subjectKind := input.subjectKind, subjectId := input.subjectId, policyVersion := input.policyVersion,
    noticeHash := input.noticeHash, action := input.action, idempotencyKey := input.idempotencyKey }

/-- The event an idempotency key was used for. -/
def replayedConsent (db : Db) (user : String) (key : Option String) : Option ConsentEvent :=
  match key with
  | none => none
  | some "" => none
  | some key => db.consentEvents.find? fun e => e.ownerUserId = user && e.idempotencyKey = some key

/-- Why a consent request is refused before the ledger is read. -/
def consentRefusal (env : GatewayEnv) (readings : Readings) (input : ConsentInput) : Option GatewayError :=
  if input.policyVersion ≠ consentPolicyVersion ∨ input.noticeHash ≠ env.noticeHash input.purpose then
    some { message := "consent policy version or notice hash is stale", statusCode := 409 }
  else if input.subjectKind ≠ input.purpose.subjectKind then
    some { message := s!"{input.purpose.text} requires subjectKind {input.purpose.subjectKind.text}", statusCode := 400 }
  else readings.ownership input.purpose input.subjectId

/-- Append a consent event and, for a withdrawal, stop the jobs that relied on the grant. -/
def recordConsent (env : GatewayEnv) (readings : Readings) (now : ℕ) (user : String) (input : ConsentInput) (db : Db) :
    Except GatewayError (Db × ConsentEvent) :=
  match consentRefusal env readings input with
  | some e => .error e
  | none =>
    match replayedConsent db user input.idempotencyKey with
    | some e =>
      if e.purpose ≠ input.purpose ∨ e.subjectKind ≠ input.subjectKind ∨ e.subjectId ≠ input.subjectId ∨
          e.action ≠ input.action then
        .error { message := "consent idempotency key was already used for a different event", statusCode := 409 }
      else .ok (db, e)
    | none =>
      let appended := { db with consentEvents := db.consentEvents ++ [input.event user] }
      match input.action with
      | .withdraw => .ok (applyWithdrawal now user input.purpose input.subjectId appended, input.event user)
      | .grant => .ok (appended, input.event user)

/-! ### Credits and quota -/

/-- `INSERT INTO credit_accounts … ON CONFLICT DO NOTHING` -/
def ensureCreditAccount (user : String) (db : Db) : Db :=
  if db.creditAccounts.any fun a => a.userId = user then db
  else { db with creditAccounts := db.creditAccounts ++ [{ userId := user, balanceCredits := 0 }] }

/-- Write a ledger entry once per idempotency key, and move the balance with it. -/
def postCredit (entry : LedgerEntry) (db : Db) : Db :=
  if db.creditLedger.any fun e => e.idempotencyKey = entry.idempotencyKey then db
  else
    { db with
      creditLedger := db.creditLedger ++ [entry]
      creditAccounts := Table.update (fun a => a.userId = entry.userId)
        (fun a => { a with balanceCredits := a.balanceCredits + entry.deltaCredits }) db.creditAccounts }

/-- Midnight UTC of the day of `now`. -/
def dayStart (now : ℕ) : ℕ := now - now % (86400 * second)

/-- The Modal jobs that count against the quota, the job of the replayed key left out. -/
def quotaJobs (key : Option String) (db : Db) : List Job :=
  db.jobs.filter fun j => j.provider = .modal && (key.isNone || j.idempotencyKey ≠ key)

/-- `assertModalJobQuota` -/
def assertModalJobQuota (env : GatewayEnv) (now costCredits : ℕ) (key : Option String) (db : Db) :
    Except GatewayError Unit :=
  let active := (quotaJobs key db).filter fun j => j.status = .queued || j.status = .running
  let today := (quotaJobs key db).filter fun j => dayStart now ≤ j.createdAt
  if env.modalMaxActiveJobs ≤ active.length then
    .error { message := "Modal active-job quota is exhausted", statusCode := 429 }
  else if env.modalDailyCreditLimit < (today.map Job.costCredits).sum + costCredits then
    .error { message := "Modal daily credit quota is exhausted", statusCode := 429 }
  else .ok ()

/-- Only Modal jobs are under a quota. -/
def assertQuota (env : GatewayEnv) (now : ℕ) (provider : Provider) (costCredits : ℕ) (key : Option String) (db : Db) :
    Except GatewayError Unit :=
  if provider = .modal then assertModalJobQuota env now costCredits key db else .ok ()

/-! ### Jobs -/

/-- `jobTimeoutSeconds`: the floor of a finite hint, kept within `1..28800`, or the kind's default. -/
def jobTimeoutSeconds (kind : JobKind) (payload : Json) : ℕ :=
  match payload.member "timeoutS" with
  | some (.number (.int i _)) => (max 1 (min 28800 i)).toNat
  | some (.number (.float x _)) => max 1 (min 28800 (x.toUInt64.toNat))
  | _ =>
    match kind with
    | .commerceVendorRefresh => 120
    | .photoscanSingle | .photoscanMultiview => 300
    | .trainPolicy | .codesignEvaluate => 28800
    | _ => 3600

/-- The row a live job is inserted as. -/
def newQueuedJob (now : ℕ) (user id : String) (input : CreateJobInput) (key : Option String) (payload : Json)
    (costCredits timeoutSeconds : ℕ) : Job :=
  { id, ownerUserId := user, kind := input.kind, status := .queued, provider := input.provider, idempotencyKey := key,
    input := payload, output := none, error := none, lastErrorCode := none, costCredits, attempts := 0, maxAttempts := 3,
    timeoutSeconds, availableAt := now, leaseToken := none, leaseExpiresAt := none, createdAt := now,
    startedAt := none, finishedAt := none, cancelRequestedAt := none, creditRefundedAt := none, providerCallId := none,
    providerFunctionVersion := none, providerEnvironment := none, providerDeploymentContractHash := none,
    providerSubmittedAt := none, providerCompletedAt := none, providerCancelledAt := none }

/-- The row a fixture job is inserted as: already done. -/
def newFixtureJob (now : ℕ) (user id : String) (input : CreateJobInput) (key : Option String) (payload output : Json) :
    Job :=
  { newQueuedJob now user id input key payload 0 3600 with
    status := .succeeded, output := some output, startedAt := some now, finishedAt := some now }

/-- What `INSERT INTO jobs … ON CONFLICT (idempotency_key)` returns: the tables, the row, and
whether it was inserted. -/
def insertJob (new : Job) (db : Db) : Except GatewayError (Db × Job × Bool) :=
  match new.idempotencyKey.bind fun key => db.jobs.find? fun j => j.idempotencyKey = some key with
  | some existing =>
    if existing.ownerUserId = new.ownerUserId ∧ existing.kind = new.kind ∧ existing.provider = new.provider ∧
        existing.input.beq new.input then .ok (db, existing, false)
    else .error { message := "job idempotency key is already bound to a different request", statusCode := 409 }
  | none =>
    if db.jobs.any fun j => j.id = new.id then
      .error { message := "job id is already taken", statusCode := 500 }
    else .ok ({ db with jobs := db.jobs ++ [new] }, new, true)

/-- The credits a job costs. -/
def Provider.costCredits : Provider → ℕ
  | .modal => 1
  | _ => 0

/-- Insert a queued job, and debit its cost when the row is new. -/
def createLiveJob (env : GatewayEnv) (now : ℕ) (user id : String) (input : CreateJobInput) (key : Option String)
    (payload : Json) (db : Db) : Except GatewayError (Db × Job × Bool) := do
  let costCredits := input.provider.costCredits
  assertQuota env now input.provider costCredits key db
  let (db, job, inserted) ← insertJob
    (newQueuedJob now user id input key payload costCredits (jobTimeoutSeconds input.kind payload)) db
  let debit : LedgerEntry :=
    { userId := user, deltaCredits := -(costCredits : ℤ), reason := s!"modal {input.kind.text}", sourceKind := "job",
      sourceId := job.id, idempotencyKey := s!"{job.id}:debit" }
  return (if inserted ∧ 0 < costCredits then postCredit debit db else db, job, false)

/-- `createJobUnchecked`: the flag says whether a fixture job was inserted, whose output the
same call then materialises. -/
def createJobUnchecked (env : GatewayEnv) (readings : Readings) (now : ℕ) (user id : String) (input : CreateJobInput)
    (db : Db) : Except GatewayError (Db × Job × Bool) :=
  let key := input.idempotencyKey.map (env.scopedJobIdempotencyKey user)
  let payload := readings.authoritativePayload
  let db := ensureCreditAccount user db
  if input.provider = .fixture then
    insertJob (newFixtureJob now user id input key payload (env.fixtureJobOutput input.kind payload)) db
  else createLiveJob env now user id input key payload db

/-- `createJob`; `id` is the id drawn for the row. -/
def createJob (env : GatewayEnv) (readings : Readings) (now : ℕ) (user id : String) (input : CreateJobInput) (db : Db) :
    Except GatewayError (Db × Job × Bool) :=
  match readings.refusal with
  | some e => .error e
  | none => do
    (consentRequirements input.kind input.payload).forM fun (purpose, subjectId) =>
      assertActiveConsent env readings db user purpose subjectId
    createJobUnchecked env readings now user id input db

/-- The last statement of materialising a fixture job: the output as persisted. -/
def materializeFixture (id : String) (persisted : Option Json) (db : Db) : Db :=
  { db with jobs := Table.update (fun j => persisted.isSome && j.id = id && j.status = .succeeded)
              (fun j => { j with output := persisted }) db.jobs }

/-- Whether cancelling returns the credit. -/
def Job.refundable (j : Job) : Bool :=
  j.provider = .modal && 0 < j.costCredits && j.output.isNone && j.creditRefundedAt.isNone

def Job.cancel (now : ℕ) (j : Job) : Job :=
  { j with status := .cancelled, error := some "cancelled by owner", lastErrorCode := some "owner-cancelled",
           cancelRequestedAt := j.cancelRequestedAt.or (some now),
           creditRefundedAt := if j.refundable then j.creditRefundedAt.or (some now) else j.creditRefundedAt,
           finishedAt := some now, leaseToken := none, leaseExpiresAt := none }

/-- Return the credit of a cancelled job, once. -/
def refundCancelled (user : String) (row : Job) (db : Db) : Db :=
  if row.refundable then
    postCredit { userId := user, deltaCredits := row.costCredits, reason := "provider-cancelled-before-materialization",
                 sourceKind := "job", sourceId := row.id, idempotencyKey := s!"{row.id}:refund" } db
  else db

/-- Cancel a queued or running job of its owner. -/
def cancelOwnedJob (now : ℕ) (user jobId : String) (db : Db) : Except GatewayError (Db × Job) :=
  match db.jobs.find? fun j => j.ownerUserId = user && j.id = jobId with
  | none => .error { message := "job not found", statusCode := 404 }
  | some row =>
    if row.status = .cancelled then .ok (db, row)
    else if row.status ≠ .queued ∧ row.status ≠ .running then
      .error { message := "only queued or running jobs can be cancelled", statusCode := 409 }
    else
      .ok ({ refundCancelled user row db with
             jobs := Table.update (fun j => j.ownerUserId = user && j.id = jobId) (Job.cancel now) db.jobs
             attempts := closeAttempts now
               (fun a => row.status = .running && a.jobId = jobId && a.attempt = row.attempts) .cancelled
               (some "owner-cancelled") db.attempts
             providerCalls := Table.update
               (fun c => c.jobId = jobId && some c.callId = row.providerCallId && c.status = .submitted)
               (fun c => { c with status := .cancellationRequested }) db.providerCalls
             jobEvents := db.jobEvents ++
               [{ jobId, event := "cancelled",
                  payload := .object [("creditRefunded", .bool row.refundable), ("reason", .string "owner-cancelled")] }] },
           row.cancel now)

end Forge.Queue
