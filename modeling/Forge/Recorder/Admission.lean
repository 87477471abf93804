import Forge.Recorder.Archives

/-!
# Admitting recorder archives

`admitRecorderArchive` (`recorderAdmission.ts`): the blobs of a materialization are
held against its plan, downloaded into a private directory and given to the verifier,
whose report is held against the plan again; a transaction then locks the
materialization, looks at the model once more and inserts the telemetry log and the
admission.

The verifier answers as it likes. The report that it wrote is kept beside what the
gateway reads off it.
-/

namespace Forge.Recorder

/-! ### Reports -/

def reportFields : List String :=
  ["schemaVersion", "archiveSchemaVersion", "replaySchemaVersion", "receiptSchemaVersion", "artifactId", "referenceRigId",
    "contractHash", "lockfileHash", "sourcePortSha256", "sampleRateHz", "startedAtUnixMs", "stoppedAtUnixMs", "frameCount",
    "durationS", "aggregateByteSize", "frameFileSha256", "indexFileSha256", "replayFileSha256", "captureMaturity",
    "archiveSemanticsVerified", "captureComplete", "captureConsentConfirmed", "userOwned", "sharingAuthorized",
    "trainingReuseAuthorized", "recordedDeviceAttested", "deviceIdentityVerified", "fieldSessionVerified", "noAutoArm"]

/-- The members of a report that are the same for every archive. -/
def reportConstants : List (String × Scalar) :=
  [("schemaVersion", text "forge-recorder-verification/1.0.0"), ("archiveSchemaVersion", text "forge-recorder-archive/1.0.0"),
    ("replaySchemaVersion", text "1.0.0"), ("receiptSchemaVersion", text "forge-recorder-receipt/1.0.0"),
    ("captureMaturity", text "local-serial-integration"), ("archiveSemanticsVerified", .bool true),
    ("captureComplete", .bool true), ("captureConsentConfirmed", .bool true), ("userOwned", .bool true),
    ("sharingAuthorized", .bool false), ("trainingReuseAuthorized", .bool false), ("recordedDeviceAttested", .bool false),
    ("deviceIdentityVerified", .bool false), ("fieldSessionVerified", .bool false), ("noAutoArm", .bool true)]

/-- The members in which a report repeats the plan. -/
def planMembers : List String :=
  ["artifactId", "referenceRigId", "contractHash", "lockfileHash", "sourcePortSha256", "sampleRateHz", "startedAtUnixMs",
    "stoppedAtUnixMs", "frameCount", "durationS", "aggregateByteSize"]

/-- The numbers and digests of a report are within their ranges. -/
def reportRanges (value : Doc) : Bool :=
  safeInteger 1 1000 (member "sampleRateHz" value) && safeInteger 0 maxSafeInteger (member "startedAtUnixMs" value) &&
    safeInteger 0 maxSafeInteger (member "stoppedAtUnixMs" value) && safeInteger 1 1000000 (member "frameCount" value) &&
    safeInteger 1 maxArchiveBytes (member "aggregateByteSize" value) &&
    ((asNumber (member "durationS" value)).any fun x => x.isFinite && !decide (x < 0.0)) &&
    ["contractHash", "lockfileHash", "sourcePortSha256", "frameFileSha256", "indexFileSha256", "replayFileSha256"].all
      fun name => (stringMember name value).any isSha256

/-- A report says of an archive what its plan says, and names the digests of these blobs. -/
def reportMatches (plan : RecorderUploadPlan) (blobs : RecorderFileRole → ObjectBlob) (value : Doc) : Bool :=
  hasMembers reportConstants value && agreeOn planMembers value plan.value &&
    isDigestOf (blobs .frame) "frameFileSha256" value && isDigestOf (blobs .index) "indexFileSha256" value &&
    isDigestOf (blobs .replay) "replayFileSha256" value && reportRanges value

/-- What is read off a report. -/
def readReport (value : Doc) : Option VerificationReport := do
  let contractHash ← stringMember "contractHash" value
  let lockfileHash ← stringMember "lockfileHash" value
  let replayFileSha256 ← stringMember "replayFileSha256" value
  let startedAtUnixMs ← safeValue (member "startedAtUnixMs" value)
  let frameCount ← safeValue (member "frameCount" value)
  let aggregateByteSize ← safeValue (member "aggregateByteSize" value)
  let durationS ← (member "durationS" value).bind fun
    | .leaf (.number n) => some n
    | _ => none
  pure { value, contractHash, lockfileHash, replayFileSha256, startedAtUnixMs, frameCount, aggregateByteSize, durationS }

/-- `validateReport` -/
def validateReport (plan : RecorderUploadPlan) (blobs : RecorderFileRole → ObjectBlob) (value : Doc) :
    Except Failure VerificationReport := do
  refuse (exactFields reportFields value = false)
    (codedError 503 "recorder-verifier-contract-invalid" "recorder verifier returned an invalid report contract")
  (assertBoundedJson "recorder verification report"
    { maxBytes := 64 * 1024, maxDepth := 8, maxNodes := 256, maxObjectKeys := 64 } value).mapError (httpError 400)
  match readReport value with
  | none =>
    .error (codedError 409 "recorder-verification-binding-mismatch"
      "recorder verification report does not match staged authority")
  | some report =>
    refuse (reportMatches plan blobs value = false) (codedError 409 "recorder-verification-binding-mismatch"
      "recorder verification report does not match staged authority")
    pure report

/-! ### Models -/

/-- A row of the registry is admitted, and both it and its validator report have these hashes. -/
def provesAdmission (model : ModelRow) (contractHash lockfileHash : CodeUnits) : Bool :=
  model.status = units "admitted" && model.contractHash = contractHash &&
    hasMembers [("verdict", text "admitted"), ("contractHash", .string contractHash), ("lockfileHash", .string lockfileHash)]
      model.validatorReport

/-- `requireAdmittedModelProof` -/
def requireAdmittedModelProof (model : Option ModelRow) (contractHash lockfileHash : CodeUnits) : Except Failure Unit :=
  match model with
  | none => .error (httpError 404 "recorder admission model not found")
  | some model =>
    refuse (provesAdmission model contractHash lockfileHash = false)
      (httpError 409 "recorder archive is not bound to the selected admitted model proof")

/-- The owner's model, as the gateway selects it. -/
def findModel (user modelId : CodeUnits) (w : World) : Option ModelRow :=
  w.modelRegistry.find? fun r => r.id = modelId && r.ownerUserId = user

/-! ### The private archive -/

/-- A blob of the materialization that is complete and declared as planned; `observed` are the ids before it. -/
def materializedBlob (user : CodeUnits) (materialization : Materialization) (observed : List CodeUnits)
    (role : RecorderFileRole) : Step ObjectBlob := do
  match ← getOwnedObjectBlob user (materialization.blobId role) with
  | none => .throw (codedError 409 "recorder-object-not-materialized" "recorder archive object is not materialized")
  | some blob =>
    let planned := materialization.uploadPlan.file role
    throwIf (blob.id ∈ observed ∨ blob.visibility ≠ .«private» ∨ blob.uploadStatus ≠ .complete ∨
        blob.contentType ≠ some planned.contentType ∨ blob.byteSize ≠ some planned.byteSize ∨
        blob.sha256 ≠ some planned.sha256)
      (codedError 409 "recorder-object-not-materialized" "recorder archive object is not materialized")
    pure blob

/-- The blobs of the five files, all of them different. -/
def materializedBlobs (user : CodeUnits) (materialization : Materialization) : Step (RecorderFileRole → ObjectBlob) := do
  let manifest ← materializedBlob user materialization [] .manifest
  let frame ← materializedBlob user materialization [manifest.id] .frame
  let index ← materializedBlob user materialization [frame.id, manifest.id] .index
  let replay ← materializedBlob user materialization [index.id, frame.id, manifest.id] .replay
  let receipt ← materializedBlob user materialization [replay.id, index.id, frame.id, manifest.id] .receipt
  pure fun
    | .manifest => manifest
    | .frame => frame
    | .index => index
    | .replay => replay
    | .receipt => receipt

/-- The object that a planned file is downloaded from. -/
def plannedObject (file : RecorderUploadFilePlan) (blob : ObjectBlob) : StoredObjectRead where
  bucket := blob.bucket
  objectKey := blob.objectKey
  byteSize := file.byteSize
  sha256 := file.sha256
  maxBytes := file.byteSize

/-- `runVerifier` on a directory, which goes into the history. -/
def runVerifier (files : RecorderFileRole → Bytes) : Step ValidateResult := .perform fun o w =>
  match o.verification with
  | .error e => (.error e, w)
  | .ok result => (.ok result, { w with verifications := w.verifications ++ [{ files, result }] })

/-- The report of a result, unless the verifier did not accept the archive. -/
def acceptedReport (result : ValidateResult) : Except Failure Doc :=
  let failed := if result.exitCode = -1 then
      codedError 503 "recorder-verifier-unavailable" "recorder archive failed sovereign archive-v1 verification"
    else codedError 409 "recorder-archive-semantics-invalid" "recorder archive failed sovereign archive-v1 verification"
  match result.report with
  | none | some (.leaf .null) => .error failed
  | some value => if result.exitCode ≠ 0 then .error failed else .ok value

/-- `streamPrivateArchive` -/
def streamPrivateArchive (env : Env) (user config : CodeUnits) (materialization : Materialization) :
    Step VerificationReport := do
  let blobs ← materializedBlobs user materialization
  let files ← forFiles fun role =>
    download env config (plannedObject (materialization.uploadPlan.file role) (blobs role))
  let result ← runVerifier files
  let value ← Program.ofExcept (acceptedReport result)
  Program.ofExcept (validateReport materialization.uploadPlan blobs value)

/-! ### Admissions -/

/-- The owner's admission of a materialization. -/
def findAdmission (user materializationId : CodeUnits) (w : World) : Option Admission :=
  w.admissions.find? fun a => a.materializationId = materializationId && a.ownerUserId = user

/-- `getRecorderArchiveAdmission` -/
def getRecorderArchiveAdmission (user materializationId : CodeUnits) : Step (Option Admission) :=
  select (findAdmission user materializationId)

/-- An admission that exists already is returned, if it is for the same model. -/
def sameModel (modelId : CodeUnits) (admission : Admission) : Except Failure Admission :=
  if admission.modelId ≠ modelId then
    .error (httpError 409 "recorder archive is already admitted for a different model")
  else .ok admission

/-- The tape of an object-backed telemetry log. -/
def referenceTape (admissionId : CodeUnits) (materialization : Materialization) (v : VerificationReport) : Doc :=
  .object [(units "schemaVersion", .leaf (text "forge-recorder-telemetry-reference/1.0.0")),
    (units "storage", .leaf (text "object-backed")), (units "admissionId", .leaf (.string admissionId)),
    (units "materializationId", .leaf (.string materialization.id)),
    (units "replayBlobId", .leaf (.string (materialization.blobId .replay))),
    (units "archiveSchemaVersion", .leaf (text "forge-recorder-archive/1.0.0")),
    (units "replaySchemaVersion", .leaf (text "1.0.0")), (units "contractHash", .leaf (.string v.contractHash)),
    (units "lockfileHash", .leaf (.string v.lockfileHash)),
    (units "replayFileSha256", .leaf (.string v.replayFileSha256)),
    (units "aggregateByteSize", .leaf (.number (.int v.aggregateByteSize))),
    (units "frameCount", .leaf (.number (.int v.frameCount))), (units "durationS", .leaf (.number v.durationS)),
    (units "gatewayArchiveSemanticsVerified", .leaf (.bool true)), (units "recordedDeviceAttested", .leaf (.bool false)),
    (units "deviceIdentityVerified", .leaf (.bool false)), (units "fieldSessionVerified", .leaf (.bool false)),
    (units "sharingAuthorized", .leaf (.bool false)), (units "trainingReuseAuthorized", .leaf (.bool false)),
    (units "noAutoArm", .leaf (.bool true))]

/-- The privacy of an admitted log. -/
def referencePrivacy : Doc :=
  .object [(units "sharing", .leaf (text "private")), (units "captureConsentConfirmed", .leaf (.bool true)),
    (units "userOwned", .leaf (.bool true)), (units "sharingAuthorized", .leaf (.bool false)),
    (units "trainingReuseAuthorized", .leaf (.bool false))]

/-- `INSERT INTO telemetry_logs` -/
def insertTelemetryLog (row : TelemetryLog) : Call World Failure Unit := do
  let w ← Call.read
  if w.telemetryLogs.any fun l => l.id = row.id then Call.throw (constraintError "telemetry_logs")
  else Call.modify fun w => { w with telemetryLogs := w.telemetryLogs ++ [row] }

/-- `INSERT INTO recorder_archive_admissions`, where the materialization and the log are unique columns. -/
def insertAdmission (row : Admission) : Call World Failure Unit := do
  let w ← Call.read
  if w.admissions.any fun a => a.id = row.id || a.materializationId = row.materializationId ||
      a.telemetryLogId = row.telemetryLogId then
    Call.throw (constraintError "recorder_archive_admissions")
  else Call.modify fun w => { w with admissions := w.admissions ++ [row] }

/-- A row that an admission may rest on. -/
def isMaterialized (user id : CodeUnits) (m : Materialization) : Bool :=
  ownedRow user id m && m.status = .materialized && m.gatewayObjectIntegrityVerified

/-- The log and the admission that are inserted. -/
def admissionRows (user modelId : CodeUnits) (materialization : Materialization) (v : VerificationReport)
    (o : Outside) : TelemetryLog × Admission :=
  ({ id := o.freshId 1, ownerUserId := user, modelId, source := units "desktop", capturedAt := v.startedAtUnixMs,
     tape := referenceTape (units "raa-" ++ o.freshId 0) materialization v, privacy := referencePrivacy },
   { id := units "raa-" ++ o.freshId 0, ownerUserId := user, materializationId := materialization.id,
     telemetryLogId := o.freshId 1, modelId, verification := v, replayFileSha256 := v.replayFileSha256,
     frameCount := v.frameCount, durationS := v.durationS, createdAt := o.now })

/-- The transaction of `admitRecorderArchive`. -/
def admitTransaction (user modelId : CodeUnits) (materialization : Materialization) (v : VerificationReport)
    (o : Outside) : Call World Failure Admission := do
  let w ← Call.read
  if ¬ w.materializations.any (isMaterialized user materialization.id) then
    Call.throw (httpError 409 "recorder materialization changed during admission")
  else match findAdmission user materialization.id w with
    | some concurrent => Call.ofExcept (sameModel modelId concurrent)
    | none => do
      Call.ofExcept (requireAdmittedModelProof (findModel user modelId w) v.contractHash v.lockfileHash)
      insertTelemetryLog (admissionRows user modelId materialization v o).1
      insertAdmission (admissionRows user modelId materialization v o).2
      pure (admissionRows user modelId materialization v o).2

/-- `admitRecorderArchive` -/
def admitRecorderArchive (env : Env) (user materializationId modelId config : CodeUnits) : Step Admission := do
  match ← getRecorderArchive user materializationId with
  | none => .throw (httpError 404 "recorder archive materialization not found")
  | some materialization =>
    throwIf (materialization.status ≠ .materialized ∨ materialization.gatewayObjectIntegrityVerified = false)
      (httpError 409 "recorder archive must complete object materialization before admission")
    match ← getRecorderArchiveAdmission user materializationId with
    | some existing => Program.ofExcept (sameModel modelId existing)
    | none =>
      let preflightModel ← select (findModel user modelId)
      Program.ofExcept (requireAdmittedModelProof preflightModel materialization.uploadPlan.contractHash
        materialization.uploadPlan.lockfileHash)
      let verification ← streamPrivateArchive env user config materialization
      withGatewayTransaction (admitTransaction user modelId materialization verification)

end Forge.Recorder
