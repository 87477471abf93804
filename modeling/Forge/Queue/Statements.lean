import Forge.Data.Call
import Forge.Queue.Gateway

/-!
# Job creation, statement by statement

`createJob` and `materializeJobOutput` (`platform.ts`) as calls on the store. Some
jobs are created in a transaction, the others by statements that each commit on
their own, and then what stands in the store when one of them fails depends on how
far the call has come. Any statement may fail, for whatever reason: `Faults` says
which.

`Gateway` models the same creation as one step of the job system. Here the store
also has the tables of the artifacts that a fixture job leaves. The `metadata` of
object blobs is left out: no statement of a creation reads it.
-/

namespace Forge.Queue

/-! ### The store -/

/-- A row of `object_blobs`. -/
structure ObjectBlob where
  id : String
  ownerUserId : String
  cacheKey : String
  bucket : String
  objectKey : String
  contentType : String
  byteSize : Option ℕ
  sha256 : Option String
deriving DecidableEq

/-- A row of `photoscan_artifacts`. -/
structure PhotoscanArtifact where
  ownerUserId : String
  jobId : String
  sourceBlobIds : List String
  scaleAxesPorts : Json
  refitPrimitives : Json
  candidateComponent : Json
  validatorReport : Json
  artifactBlobId : Option String
deriving DecidableEq

/-- A row of `policy_artifacts`. -/
structure PolicyArtifact where
  id : String
  ownerUserId : String
  jobId : Option String
  modelId : Option String
  taskKind : String
  scorecard : Json
  policyMetadata : Json
  artifactBlobId : String
  exportGate : String
deriving DecidableEq

/-- A row of `telemetry_logs`. -/
structure TelemetryLog where
  ownerUserId : String
  modelId : Option String
  source : String
  tape : Json
  privacy : Json
deriving DecidableEq

/-- A row of `maintenance_records`. -/
structure MaintenanceRecord where
  ownerUserId : String
  modelId : Option String
  recordKind : String
  severity : String
  summary : String
  payload : Json
deriving DecidableEq

/-- A row of `usage_events`. -/
structure UsageEvent where
  userId : String
  eventKind : String
  provider : String
  units : Json
  costCredits : ℕ
  idempotencyKey : String
deriving DecidableEq

/-- The tables that job creation reads and writes. -/
structure Store extends Db where
  usageEvents : List UsageEvent
  /-- The ids of `model_registry`, which artifact rows refer to. -/
  modelIds : List String
  objectBlobs : List ObjectBlob
  photoscanArtifacts : List PhotoscanArtifact
  policyArtifacts : List PolicyArtifact
  telemetryLogs : List TelemetryLog
  maintenanceRecords : List MaintenanceRecord

/-- The statements of a creation that write, and its commit. -/
inductive Statement where
  | ensureCreditAccount | assertModalJobQuota | insertJob | insertLedger | updateBalance | insertUsageEvent
  | upsertBlob | writeObject | insertArtifact | updatePolicyMetadata | updateJobOutput | commit
deriving DecidableEq

/-- Why a statement fails, where it does: a lost connection, a violated constraint, a conflict with
another transaction. -/
abbrev Faults := Statement → Option GatewayError

/-- What the object store reports of an object that it has written. -/
structure ObjectInspection where
  byteSize : ℕ
  contentType : String
  sha256 : Option String
deriving DecidableEq

/-- The bytes of a policy, once they have been found to match the size and digest beside them. -/
structure PolicyBytes where
  byteSize : ℕ
  sha256 : String

/-- `PreparedPolicyDelivery`, without the bytes. -/
structure PreparedPolicyDelivery extends PolicyBytes where
  cacheKey : String
  objectKey : String
  output : List (String × Json)

/-- The functions of the gateway that job creation applies to a request, beside those of `GatewayEnv`. -/
structure StoreEnv extends GatewayEnv where
  objectBucket : String
  /-- `blobCacheKey` with a cache key. -/
  blobCacheKey : String → String → String
  /-- `artifactObjectKey` -/
  artifactObjectKey : String → String → String → String
  /-- `defaultObjectKey` for a policy with this digest. -/
  policyObjectKey : String → String → String
  /-- `blobCacheKey` with a digest. -/
  blobDigestKey : String → String → String
  /-- The decoding and checking of the `modelBase64` of an `onnx` member. -/
  policyBytes : Json → Except GatewayError PolicyBytes
  /-- The members of `fixtureJobOutput` after its `artifactKind`, or its refusal of the payload. -/
  fixtureMembers : JobKind → Json → Except GatewayError (List (String × Json))

/-- The ids that a call draws. -/
structure Draws where
  jobId : String
  blobId : String
  policyArtifactId : String

/-- What one call brings: the ids it draws, the object writer if one is configured, and the faults. -/
structure CallContext where
  draws : Draws
  writePolicyObject : Option (PreparedPolicyDelivery → Except GatewayError ObjectInspection)
  faults : Faults

abbrev StoreCall := Call Store GatewayError

/-- A statement of the call, which fails if a fault says so. -/
def CallContext.statement {α : Type} (ctx : CallContext) (k : Statement) (x : StoreCall α) : StoreCall α :=
  x.orFail (ctx.faults k)

/-! ### Reading values -/

/-- `value ?? d` -/
def orElse (value : Option Json) (d : Json) : Json :=
  match value with
  | none | some .null => d
  | some v => v

/-- `stringList` -/
def stringList (value : Option Json) : List String := ((value.bind Json.asArray).getD []).filterMap Json.asStr

/-- `modelIdFrom` -/
def modelIdFrom (value : Json) : Option String := (value.member "modelId").bind Json.asStr

/-- `nestedCacheKey` -/
def nestedCacheKey (output : Json) (key : String) : Option String :=
  (output.member key).bind fun v => ((v.member "cacheKey").bind Json.asStr).or ((v.member "key").bind Json.asStr)

/-- The `artifactKind` of an output. -/
def artifactKind (output : Json) : Option String := (output.member "artifactKind").bind Json.asStr

/-! ### Fixture outputs -/

/-- The `artifactKind` of `fixtureJobOutput`, and nothing for the one kind without a fixture. -/
def fixtureArtifactKind : JobKind → Option String
  | .photoscanSingle | .photoscanMultiview => some "photoscan"
  | .trainPolicy => some "policy"
  | .trainOfflineBc => some "offline-learning"
  | .trainSysidFit => some "sysid"
  | .replayVerify => some "replay"
  | .codesignEvaluate => some "codesign"
  | .bridgeConfigDiff => some "bridge-config"
  | .bridgeTelemetryIngest => some "telemetry-replay"
  | .bridgeSupervisorCheck => some "supervisor-decision"
  | .maintenanceEstimateWear => some "wear-estimate"
  | .maintenanceCrashForensics => some "crash-forensics"
  | .maintenanceRepairSheet => some "repair-sheet"
  | .maintenanceFleetSummary => some "fleet-summary"
  | .etlIngestComponent => some "component-row"
  | .occtTessellate => some "geometry"
  | .commerceVendorRefresh => none

/-- `fixtureJobOutput` -/
def fixtureJobOutput (env : StoreEnv) (kind : JobKind) (payload : Json) : Except GatewayError Json :=
  match fixtureArtifactKind kind with
  | none => .ok .null
  | some name => (env.fixtureMembers kind payload).map fun ms => .object (("artifactKind", .string name) :: ms)

/-! ### Artifacts -/

/-- The row refers to a model that exists, where it refers to one. -/
def checkModel (modelId : Option String) (s : Store) : Except GatewayError Unit :=
  if modelId.all fun m => m ∈ s.modelIds then .ok ()
  else .error { message := "insert or update violates foreign key constraint", statusCode := 500 }

/-- `upsertArtifactBlob` -/
def upsertArtifactBlob (env : StoreEnv) (ctx : CallContext) (user purpose : String) (cacheKey : Option String)
    (contentType : String) : StoreCall (Option String) :=
  match cacheKey.filter fun k => k ≠ "" with
  | none => pure none
  | some key => ctx.statement .upsertBlob fun s =>
    match s.objectBlobs.find? fun b => b.cacheKey = env.blobCacheKey user key with
    | some b => (.ok (some b.id), s)
    | none =>
      let b : ObjectBlob :=
        { id := ctx.draws.blobId, ownerUserId := user, cacheKey := env.blobCacheKey user key,
          bucket := env.objectBucket, objectKey := env.artifactObjectKey user purpose key, contentType,
          byteSize := none, sha256 := none }
      (.ok (some b.id), { s with objectBlobs := s.objectBlobs ++ [b] })

/-- `upsertCompletedPolicyBlob` -/
def upsertCompletedPolicyBlob (env : StoreEnv) (ctx : CallContext) (user : String) (prepared : PreparedPolicyDelivery) :
    StoreCall String :=
  ctx.statement .upsertBlob fun s =>
    match s.objectBlobs.find? fun b => b.cacheKey = prepared.cacheKey with
    | some b =>
      if b.ownerUserId = user ∧ b.bucket = env.objectBucket ∧ b.objectKey = prepared.objectKey ∧
          b.contentType = "application/octet-stream" ∧ b.byteSize = some prepared.byteSize ∧
          b.sha256 = some prepared.sha256 then (.ok b.id, s)
      else
        (.error { message := "policy object digest is already bound to different storage evidence", statusCode := 409 },
          s)
    | none =>
      let b : ObjectBlob :=
        { id := ctx.draws.blobId, ownerUserId := user, cacheKey := prepared.cacheKey, bucket := env.objectBucket,
          objectKey := prepared.objectKey, contentType := "application/octet-stream",
          byteSize := some prepared.byteSize, sha256 := some prepared.sha256 }
      (.ok b.id, { s with objectBlobs := s.objectBlobs ++ [b] })

/-- `POLICY_DELIVERY_ARTIFACT_VERSION` -/
def policyFormatVersion : String := "0.2.0"

/-- `preparePolicyDelivery` -/
def preparePolicyDelivery (env : StoreEnv) (user : String) (job : Job) (output : Json) :
    Except GatewayError PreparedPolicyDelivery :=
  let lacking : GatewayError :=
    { message := "policy output lacks ONNX, scorecard, or tensor authority", statusCode := 502 }
  let io := (output.member "io").filter fun v => v.asObject.isSome
  match output.asObject, (output.member "onnx").bind Json.asObject, (output.member "scorecard").bind Json.asObject,
      (io.bind fun v => v.member "tensor").bind Json.asObject with
  | some members, some onnx, some scorecard, some _ => do
    let bytes ← env.policyBytes (.object onnx)
    let snapshot := (job.input.member "modelSnapshot").filter fun v => v.asObject.isSome
    let text (v : Option Json) (k : String) : Option String := (v.bind fun v => v.member k).bind Json.asStr
    let lineage := Assoc.get "lineage" scorecard
    let contractHash := ((text snapshot "contractHash").or (text (some job.input) "contractHash")).or
      (text lineage "contractHash")
    let modelId := (text snapshot "modelId").or (modelIdFrom job.input)
    let nullable (v : Option String) : Json := (v.map Json.string).getD .null
    let delivery : List (String × Json) :=
      [("byteSize", orElse (Assoc.get "byteSize" onnx) .null), ("jobId", .string job.id),
       ("modelRevision", .object [("contractHash", nullable contractHash), ("modelId", nullable modelId)]),
       ("objectBacked", .bool true), ("sha256", .string bytes.sha256), ("storage", .string "s3-compatible-object")]
    return { bytes with
      cacheKey := env.blobDigestKey user bytes.sha256
      objectKey := env.policyObjectKey user bytes.sha256
      output := Assoc.insert "delivery" (.object delivery)
        (Assoc.insert "onnx" (.object (Assoc.erase "modelBase64" onnx))
          (Assoc.insert "formatVersion" (.string policyFormatVersion) members)) }
  | _, _, _, _ => .error lacking

/-- `writePolicyObject`, and the comparison of what it reports. -/
def writePolicyObject (ctx : CallContext) (prepared : PreparedPolicyDelivery) : StoreCall Unit :=
  match ctx.writePolicyObject with
  | none => Call.throw { message := "policy object storage writer is not configured", statusCode := 503 }
  | some write => ctx.statement .writeObject do
    let inspection ← Call.ofExcept (write prepared)
    if inspection.byteSize ≠ prepared.byteSize ∨ inspection.contentType ≠ "application/octet-stream" ∨
        inspection.sha256.map String.toLower ≠ some prepared.sha256 then
      Call.throw
        { message := "policy object storage did not confirm exact bytes, type, and checksum", statusCode := 503 }
    else pure ()

/-- `INSERT INTO policy_artifacts … ON CONFLICT (job_id) DO NOTHING` -/
def insertPolicyArtifact (ctx : CallContext) (row : PolicyArtifact) : StoreCall Unit :=
  ctx.statement .insertArtifact fun s =>
    match checkModel row.modelId s with
    | .error e => (.error e, s)
    | .ok () =>
      if s.policyArtifacts.any fun p => p.jobId = row.jobId then
        (.error { message := "training job already owns a policy artifact", statusCode := 409 }, s)
      else (.ok (), { s with policyArtifacts := s.policyArtifacts ++ [row] })

/-- The members of an output with one more member in its `delivery`. -/
def withDelivery (key value : String) (output : List (String × Json)) : List (String × Json) :=
  let delivery := (((Json.object output).member "delivery").bind Json.asObject).getD []
  Assoc.insert "delivery" (.object (Assoc.insert key (.string value) delivery)) output

/-- The case `policy` of `materializeJobOutput`. -/
def materializePolicy (env : StoreEnv) (ctx : CallContext) (user : String) (job : Job) (output : Json) :
    StoreCall (Option Json) := do
  let prepared ← Call.ofExcept (preparePolicyDelivery env user job output)
  writePolicyObject ctx prepared
  let artifactBlobId ← upsertCompletedPolicyBlob env ctx user prepared
  let provisional := withDelivery "artifactBlobId" artifactBlobId prepared.output
  let scorecard := output.member "scorecard"
  let id := ctx.draws.policyArtifactId
  insertPolicyArtifact ctx
    { id, ownerUserId := user, jobId := some job.id, modelId := modelIdFrom job.input,
      taskKind := ((((output.member "task").bind fun t => t.member "id").bind Json.asStr).getD "fixture"),
      scorecard := orElse scorecard (.object []), policyMetadata := .object provisional, artifactBlobId,
      exportGate := if (scorecard.bind fun c => c.member "exportable") = some (.bool true) then "exportable"
        else "blocked" }
  let persisted := Json.object (withDelivery "policyArtifactId" id provisional)
  ctx.statement .updatePolicyMetadata (Call.modify fun s => { s with
    policyArtifacts := Table.update (fun p => p.id = id && p.ownerUserId = user && p.jobId = some job.id)
      (fun p => { p with policyMetadata := persisted }) s.policyArtifacts })
  ctx.statement .updateJobOutput (Call.modify fun s => { s with
    jobs := Table.update (fun j => j.id = job.id && j.ownerUserId = user && j.status = .succeeded)
      (fun j => { j with output := some persisted }) s.jobs })
  return some persisted

/-- The case `photoscan`. -/
def materializePhotoscan (env : StoreEnv) (ctx : CallContext) (user : String) (job : Job) (output : Json) :
    StoreCall (Option Json) := do
  let artifactBlobId ← upsertArtifactBlob env ctx user "photoscan-result" (nestedCacheKey output "objectCache")
    "model/gltf-binary"
  let sources := stringList (job.input.member "sourceBlobIds")
  let row : PhotoscanArtifact :=
    { ownerUserId := user, jobId := job.id,
      sourceBlobIds := if sources ≠ [] then sources else stringList (output.member "sourceImages"),
      scaleAxesPorts := orElse (output.member "alignment") (.object []),
      refitPrimitives := orElse (output.member "primitiveRefit") (.array []),
      candidateComponent := orElse (output.member "candidateComponent") .null,
      validatorReport := .object [("acceptance", orElse (output.member "acceptance") (.object [])),
        ("artifactKind", .string "photoscan")],
      artifactBlobId }
  ctx.statement .insertArtifact
    (Call.modify fun s => { s with photoscanArtifacts := s.photoscanArtifacts ++ [row] })
  return none

/-- The row of the case `telemetry-replay`. -/
def telemetryRow (user : String) (input output : Json) : TelemetryLog where
  ownerUserId := user
  modelId := modelIdFrom input
  source := "fixture"
  tape := orElse (output.member "tape") (.object [("frames", .array [])])
  privacy := .object [("sharing", .string "private")]

/-- The `record_kind` of the maintenance cases. -/
def maintenanceRecordKind (kind : String) : String :=
  if kind = "wear-estimate" then "wear" else if kind = "crash-forensics" then "crash-forensics" else "repair-sheet"

/-- The row of the cases `wear-estimate`, `crash-forensics` and `repair-sheet`. -/
def maintenanceRow (user kind : String) (input output : Json) : MaintenanceRecord where
  ownerUserId := user
  modelId := modelIdFrom input
  recordKind := maintenanceRecordKind kind
  severity := if kind = "crash-forensics" ∧ output.member "crashDetected" = some (.bool true) then "warn" else "info"
  summary := kind
  payload := output

/-- `INSERT` of a row that refers to a model. -/
def insertReferring (ctx : CallContext) (modelId : Option String) (write : Store → Store) : StoreCall (Option Json) :=
  ctx.statement .insertArtifact fun s =>
    match checkModel modelId s with
    | .error e => (.error e, s)
    | .ok () => (.ok none, write s)

/-- `materializeJobOutput`: the output as persisted, where it differs from that of the job. -/
def materializeJobOutput (env : StoreEnv) (ctx : CallContext) (user : String) (job : Job) : StoreCall (Option Json) :=
  match job.output with
  | none => pure none
  | some output =>
    match artifactKind output with
    | some "photoscan" => materializePhotoscan env ctx user job output
    | some "policy" => materializePolicy env ctx user job output
    | some "telemetry-replay" =>
      let row := telemetryRow user job.input output
      insertReferring ctx row.modelId fun s => { s with telemetryLogs := s.telemetryLogs ++ [row] }
    | some kind =>
      if kind = "wear-estimate" ∨ kind = "crash-forensics" ∨ kind = "repair-sheet" then
        let row := maintenanceRow user kind job.input output
        insertReferring ctx row.modelId fun s => { s with maintenanceRecords := s.maintenanceRecords ++ [row] }
      else pure none
    | none => pure none

/-! ### Creation -/

/-- `INSERT INTO jobs … ON CONFLICT (idempotency_key)`: the row, and whether it was inserted. -/
def insertJobStatement (ctx : CallContext) (new : Job) : StoreCall (Job × Bool) :=
  ctx.statement .insertJob fun s =>
    match insertJob new s.toDb with
    | .error e => (.error e, s)
    | .ok r => (.ok r.2, { s with toDb := r.1 })

/-- The debit of a new job: ledger entry, balance, usage event. -/
def debitJob (ctx : CallContext) (user : String) (kind : JobKind) (job : Job) (costCredits : ℕ) : StoreCall Unit := do
  let entry : LedgerEntry :=
    { userId := user, deltaCredits := -(costCredits : ℤ), reason := s!"modal {kind.text}", sourceKind := "job",
      sourceId := job.id, idempotencyKey := s!"{job.id}:debit" }
  let inserted ← ctx.statement .insertLedger fun s =>
    if s.creditLedger.any fun e => e.idempotencyKey = entry.idempotencyKey then (.ok false, s)
    else (.ok true, { s with creditLedger := s.creditLedger ++ [entry] })
  if inserted then
    ctx.statement .updateBalance (Call.modify fun s => { s with
      creditAccounts := Table.update (fun a => a.userId = user)
        (fun a => { a with balanceCredits := a.balanceCredits - costCredits }) s.creditAccounts })
    ctx.statement .insertUsageEvent (Call.modify fun s =>
      if s.usageEvents.any fun e => e.idempotencyKey = s!"{job.id}:usage-debit" then s
      else { s with usageEvents := s.usageEvents ++ [
        { userId := user, eventKind := "job.credit-debit", provider := "modal",
          units := .object [("jobId", .string job.id), ("kind", .string kind.text)], costCredits,
          idempotencyKey := s!"{job.id}:usage-debit" }] })
  else pure ()

/-- Only a job that was inserted is paid for, and only if it costs anything. -/
def debitNewJob (ctx : CallContext) (user : String) (kind : JobKind) (r : Job × Bool) (costCredits : ℕ) :
    StoreCall Unit :=
  if r.2 ∧ 0 < costCredits then debitJob ctx user kind r.1 costCredits else pure ()

/-- The branch of a provider that queues the job. -/
def createLive (env : StoreEnv) (ctx : CallContext) (now : ℕ) (user : String) (input : CreateJobInput)
    (key : Option String) (payload : Json) : StoreCall Job := do
  let costCredits := input.provider.costCredits
  ctx.statement .assertModalJobQuota fun s => (assertQuota env.toGatewayEnv now input.provider costCredits key s.toDb, s)
  let r ← insertJobStatement ctx
    (newQueuedJob now user ctx.draws.jobId input key payload costCredits (jobTimeoutSeconds input.kind payload))
  debitNewJob ctx user input.kind r costCredits
  return r.1

/-- What follows the `INSERT` of a fixture job. A replayed key returns the row as it is, whether or not
its artifact was ever written. -/
def finishFixture (env : StoreEnv) (ctx : CallContext) (user : String) (r : Job × Bool) : StoreCall Job :=
  if r.2 then do
    let persisted ← materializeJobOutput env ctx user r.1
    return { r.1 with output := persisted.or r.1.output }
  else pure r.1

/-- The branch of the provider `fixture`, whose jobs are done when they are created. -/
def createFixture (env : StoreEnv) (ctx : CallContext) (now : ℕ) (user : String) (input : CreateJobInput)
    (key : Option String) (payload : Json) : StoreCall Job := do
  let output ← Call.ofExcept (fixtureJobOutput env input.kind payload)
  let r ← insertJobStatement ctx (newFixtureJob now user ctx.draws.jobId input key payload output)
  finishFixture env ctx user r

/-- `createJobUnchecked`, after the checks that read only tables which no creation writes. -/
def createUnchecked (env : StoreEnv) (ctx : CallContext) (readings : Readings) (now : ℕ) (user : String)
    (input : CreateJobInput) : StoreCall Job := do
  let key := input.idempotencyKey.map (env.scopedJobIdempotencyKey user)
  ctx.statement .ensureCreditAccount (Call.modify fun s => { s with toDb := ensureCreditAccount user s.toDb })
  if input.provider = .fixture then createFixture env ctx now user input key readings.authoritativePayload
  else createLive env ctx now user input key readings.authoritativePayload

/-- The refusal of a photoscan that names no source. -/
def refusePhotoscan (input : CreateJobInput) : Except GatewayError Unit :=
  let count := (sourceBlobIdsFromPayload input.payload).length
  if (input.kind = .photoscanSingle ∧ count ≠ 1) ∨ (input.kind = .photoscanMultiview ∧ count < 2) then
    .error { message := s!"{input.kind.text} requires explicit owned sourceBlobIds", statusCode := 400 }
  else .ok ()

/-- Whether `createJob` opens a transaction. -/
def CreateJobInput.transactional (input : CreateJobInput) : Bool :=
  consentRequirements input.kind input.payload ≠ [] || (input.kind = .trainPolicy && input.provider = .fixture) ||
    input.provider = .modal

/-- The consents of a request, and then the creation. -/
def createBody (env : StoreEnv) (ctx : CallContext) (readings : Readings) (now : ℕ) (user : String)
    (input : CreateJobInput) : StoreCall Job := do
  let s ← Call.read
  Call.ofExcept ((consentRequirements input.kind input.payload).forM fun r =>
    assertActiveConsent env.toGatewayEnv readings s.toDb user r.1 r.2)
  createUnchecked env ctx readings now user input

/-- `createJob`. A refusal stands for a check of the request or a read that fails before the first write. -/
def createJobCall (env : StoreEnv) (ctx : CallContext) (readings : Readings) (now : ℕ) (user : String)
    (input : CreateJobInput) : StoreCall Job :=
  match readings.refusal with
  | some e => Call.throw e
  | none => do
    Call.ofExcept (refusePhotoscan input)
    if input.transactional then Call.transaction (ctx.faults .commit) (createBody env ctx readings now user input)
    else createBody env ctx readings now user input

end Forge.Queue
