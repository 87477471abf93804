import Forge.Recorder.Model

/-!
# Staging and completing recorder archives

`stageRecorderArchive` and `completeRecorderArchive` (`recorderArchives.ts`) with the
object blobs they rest on (`registerObjectBlob` and `completeObjectBlobUpload` of
`platform.ts`), as programs that take one step for each statement, transaction and
answer of the object store.

Nothing is assumed of the object store: each inspection and each download is answered
by `Outside`, so that objects may change at any time, also within a call. A statement
may fail, and it may also do its work and lose the connection before it answers.
-/

namespace Forge.Recorder

/-! ### Rows -/

inductive Visibility where
  | «private» | unlisted | «public»
deriving DecidableEq

inductive UploadStatus where
  | staged | complete
deriving DecidableEq

/-- A row of `object_blobs`, `ObjectBlobRecord`. -/
structure ObjectBlob where
  id : CodeUnits
  ownerUserId : Option CodeUnits
  visibility : Visibility
  cacheKey : Option CodeUnits
  bucket : CodeUnits
  objectKey : CodeUnits
  contentType : Option CodeUnits
  byteSize : Option ℤ
  sha256 : Option CodeUnits
  uploadStatus : UploadStatus
  verifiedAt : Option ℤ
  verificationErrorCode : Option String
  metadata : Doc
  createdAt : ℤ

inductive MaterializationStatus where
  | staged | materialized
deriving DecidableEq

/-- A row of `recorder_archive_materializations`. -/
structure Materialization where
  id : CodeUnits
  ownerUserId : CodeUnits
  artifactId : CodeUnits
  status : MaterializationStatus
  blobId : RecorderFileRole → CodeUnits
  uploadPlan : RecorderUploadPlan
  aggregateByteSize : ℤ
  gatewayObjectIntegrityVerified : Bool
  verificationErrorCode : Option String
  createdAt : ℤ
  materializedAt : Option ℤ

/-- The columns of `model_registry` that an admission reads. -/
structure ModelRow where
  id : CodeUnits
  ownerUserId : CodeUnits
  status : CodeUnits
  contractHash : CodeUnits
  validatorReport : Doc

/-- A row of `telemetry_logs`. -/
structure TelemetryLog where
  id : CodeUnits
  ownerUserId : CodeUnits
  modelId : CodeUnits
  source : CodeUnits
  capturedAt : ℤ
  tape : Doc
  privacy : Doc

/-- `RecorderVerificationReport`: the report as the verifier wrote it, and what is read off it. -/
structure VerificationReport where
  value : Doc
  contractHash : CodeUnits
  lockfileHash : CodeUnits
  replayFileSha256 : CodeUnits
  startedAtUnixMs : ℤ
  frameCount : ℤ
  aggregateByteSize : ℤ
  durationS : Numeral

/-- A row of `recorder_archive_admissions`. -/
structure Admission where
  id : CodeUnits
  ownerUserId : CodeUnits
  materializationId : CodeUnits
  telemetryLogId : CodeUnits
  modelId : CodeUnits
  verification : VerificationReport
  replayFileSha256 : CodeUnits
  frameCount : ℤ
  durationS : Numeral
  createdAt : ℤ

/-- `ValidateResult` -/
structure ValidateResult where
  exitCode : ℤ
  report : Option Doc
  stderr : String

/-- One run of the verifier: the directory it was given, and its result. -/
structure Verification where
  files : RecorderFileRole → Bytes
  result : ValidateResult

/-- The database, and the runs of the verifier so far. -/
structure World where
  materializations : List Materialization
  objectBlobs : List ObjectBlob
  modelRegistry : List ModelRow
  telemetryLogs : List TelemetryLog
  admissions : List Admission
  verifications : List Verification

def World.empty : World := ⟨[], [], [], [], [], []⟩

/-! ### Steps -/

/-- `StoredObjectInspection` -/
structure StoredObjectInspection where
  byteSize : ℤ
  contentType : Option CodeUnits
  sha256 : Option CodeUnits

/-- What one step finds outside the database. -/
structure Outside where
  /-- The statement fails. -/
  fault : Option Failure
  /-- The statement does its work, but its answer is lost. -/
  lost : Option Failure
  now : ℤ
  freshId : ℕ → CodeUnits
  inspection : Except Failure StoredObjectInspection
  /-- The chunks of a download, as long as they come. -/
  body : Except Failure (List Bytes)
  verification : Except Failure ValidateResult

/-- What is fixed while the gateway runs. -/
structure Env where
  /-- The SHA-256 of bytes, in hexadecimal. -/
  sha256 : Bytes → CodeUnits
  /-- The SHA-256 of the UTF-8 bytes of a text. -/
  sha256Text : CodeUnits → CodeUnits
  /-- `JSON.parse` of bytes decoded as strict UTF-8, unless it throws. -/
  parseJson : Bytes → Option Doc

abbrev Step := Program World Outside Failure

variable {α : Type}

/-- One statement, or one transaction. -/
def attended (x : Outside → Call World Failure α) (o : Outside) : Call World Failure α := fun w =>
  match o.fault, o.lost with
  | some e, _ => (.error e, w)
  | none, some e => (.error e, (x o w).2)
  | none, none => x o w

def statement (x : Outside → Call World Failure α) : Step α := .perform (attended x)

/-- `withGatewayTransaction`, serializable. -/
def withGatewayTransaction (x : Outside → Call World Failure α) : Step α :=
  statement fun o => .transaction none (x o)

/-- A statement that reads. -/
def select (f : World → α) : Step α := statement fun _ => do
  let w ← Call.read
  pure (f w)

/-- `if (c) throw e;` -/
def throwIf (c : Prop) [Decidable c] (e : Failure) : Step Unit := .ofExcept (refuse c e)

/-! ### Object blobs -/

/-- A unit that `trim` removes. -/
def isBlank (u : UInt16) : Bool :=
  (0x09 ≤ u && u ≤ 0x0D) || u ∈ [0x20, 0xA0, 0x1680, 0x2028, 0x2029, 0x202F, 0x205F, 0x3000, 0xFEFF] ||
    (0x2000 ≤ u && u ≤ 0x200A)

def trim (s : CodeUnits) : CodeUnits := ((s.dropWhile isBlank).reverse.dropWhile isBlank).reverse

/-- Every run of units outside the class becomes one hyphen. -/
def hyphenate : CodeUnits → CodeUnits
  | [] => []
  | u :: us =>
    if inClass false "._-" u then u :: hyphenate us
    else match us with
      | v :: _ => if inClass false "._-" v then 0x2D :: hyphenate us else hyphenate us
      | [] => [0x2D]

/-- `safeObjectSegment` -/
def safeObjectSegment (value : CodeUnits) : CodeUnits :=
  let hyphens := hyphenate (toLowerCase value)
  let segment := (((hyphens.dropWhile (· = 0x2D)).reverse.dropWhile (· = 0x2D)).reverse).take 80
  if segment = [] then units "artifact" else segment

/-- What a caller declares of an object. -/
structure BlobDeclaration where
  bucket : CodeUnits
  purpose : CodeUnits
  contentType : Option CodeUnits
  byteSize : Option ℤ
  sha256 : Option CodeUnits
  metadata : Doc
  cacheKey : Option CodeUnits

/-- `blobCacheKey` -/
def blobCacheKey (user : CodeUnits) (cacheKey sha256 : Option CodeUnits) : Option CodeUnits :=
  match cacheKey, sha256 with
  | some (u :: us), _ => some (safeObjectSegment user ++ units ":" ++ u :: us)
  | _, some (u :: us) => some (safeObjectSegment user ++ units ":sha256:" ++ toLowerCase (u :: us))
  | _, _ => none

/-- `defaultObjectKey`, with a random leaf where there is no digest. -/
def defaultObjectKey (user purpose : CodeUnits) (sha : Option CodeUnits) (random : CodeUnits) : CodeUnits :=
  let leaf := match sha with
    | some (u :: us) => toLowerCase (u :: us)
    | _ => random
  units "users/" ++ safeObjectSegment user ++ units "/" ++ safeObjectSegment purpose ++ units "/" ++ leaf

/-- `||` on `jsonb`: the members of the second object replace those of the first. -/
def jsonbConcat : Doc → Doc → Doc
  | .object ms, .object ns => .object (ms.filter (fun e => e.1 ∉ ns.map Prod.fst) ++ ns)
  | .array ts, .array us => .array (ts ++ us)
  | .array ts, d => .array (ts ++ [d])
  | d, .array us => .array (d :: us)
  | d, d' => .array [d, d']

def archiveTypes : List CodeUnits :=
  [units "application/zip", units "application/x-7z-compressed", units "application/x-rar-compressed",
    units "application/x-tar", units "application/gzip"]

def archiveSuffixes : List CodeUnits :=
  [units ".zip", units ".7z", units ".rar", units ".tar", units ".tgz", units ".tar.gz"]

def isPurpose (s : CodeUnits) : Bool := s ≠ [] && s.length ≤ 80 && s.all (inClass true "._:-")

def isContentType : CodeUnits → Bool
  | [] => false
  | u :: us => inClass false "" u && us.length ≤ 159 && us.all (inClass false "!#$&^_.+/-")

/-- `MAX_OBJECT_BYTES` -/
def maxObjectBytes : ℤ := 2 * 1024 * 1024 * 1024

/-- The checks of `registerObjectBlob`, and the content type and digest that they leave. -/
def checkDeclaration (input : BlobDeclaration) : Except Failure (Option CodeUnits × Option CodeUnits) := do
  refuse (isPurpose input.purpose = false) (httpError 400 "object purpose is invalid")
  let contentType := input.contentType.map fun s => toLowerCase (trim (s.takeWhile fun u => u ≠ 0x3B))
  let originalName := ((stringMember "originalName" input.metadata).map toLowerCase).getD []
  refuse (contentType.any (fun s => s ∈ archiveTypes) ∨ archiveSuffixes.any (fun s => s.isSuffixOf originalName))
    (httpError 400 "archive uploads are not accepted by the current object boundary")
  refuse (contentType.any fun s => s ≠ [] && !isContentType s) (httpError 400 "object content type is invalid")
  refuse (input.byteSize.any fun n => n < 0 || maxObjectBytes < n)
    (httpError 400 "object byte size is outside the supported range")
  refuse (input.cacheKey.any fun key => key = [] || 200 < key.length)
    (httpError 400 "object cache key is outside the supported range")
  (assertBoundedJson "object metadata"
    { maxBytes := 128 * 1024, maxDepth := 12, maxNodes := 5000, maxObjectKeys := 256 } input.metadata).mapError
      (httpError 400)
  let sha := input.sha256.map toLowerCase
  refuse (sha.any fun s => !isSha256 s) (httpError 400 "object SHA-256 is invalid")
  pure (contentType, sha)

/-- A row that violates a key of its table. -/
def constraintError (table : String) : Failure := plainError s!"duplicate key value violates unique constraint of {table}"

/-- `INSERT INTO object_blobs … ON CONFLICT (cache_key) DO UPDATE`: the row as it then stands, unless it is bound
to another declaration. -/
def upsertObjectBlob (row : ObjectBlob) : Call World Failure (Option ObjectBlob) := do
  let w ← Call.read
  match w.objectBlobs.find? fun b => row.cacheKey.isSome && b.cacheKey = row.cacheKey with
  | some old =>
    if old.ownerUserId.isSome ∧ old.ownerUserId = row.ownerUserId ∧ old.contentType = row.contentType ∧
        old.byteSize = row.byteSize ∧ old.sha256 = row.sha256 then do
      let merged := { old with metadata := jsonbConcat old.metadata row.metadata }
      Call.modify fun w => { w with
        objectBlobs := Table.update (fun b => b.id = old.id) (fun _ => merged) w.objectBlobs }
      pure (some merged)
    else pure none
  | none =>
    if w.objectBlobs.any fun b => b.id = row.id || (b.bucket = row.bucket && b.objectKey = row.objectKey) then
      Call.throw (constraintError "object_blobs")
    else do
      Call.modify fun w => { w with objectBlobs := w.objectBlobs ++ [row] }
      pure (some row)

/-- `{ ...metadata, purpose }`, where metadata that is no object counts as empty. -/
def withPurpose (metadata : Doc) (purpose : CodeUnits) : Doc :=
  jsonbConcat (if isRecord metadata then metadata else .object [])
    (.object [(units "purpose", .leaf (.string purpose))])

/-- `registerObjectBlob` -/
def registerObjectBlob (user : CodeUnits) (input : BlobDeclaration) (id random : CodeUnits) (now : ℤ) :
    Call World Failure ObjectBlob := do
  let (contentType, sha256) ← Call.ofExcept (checkDeclaration input)
  let row ← upsertObjectBlob
    { id, ownerUserId := some user, visibility := .«private», cacheKey := blobCacheKey user input.cacheKey sha256,
      bucket := input.bucket, objectKey := defaultObjectKey user input.purpose sha256 random, contentType,
      byteSize := input.byteSize, sha256, uploadStatus := .staged, verifiedAt := none, verificationErrorCode := none,
      metadata := withPurpose input.metadata input.purpose, createdAt := now }
  match row with
  | none => Call.throw (httpError 409 "object cache key is already bound to a different declaration")
  | some blob =>
    if blob.ownerUserId ≠ some user then
      Call.throw (httpError 403 "object blob cache key is not owned by the current user")
    else pure blob

/-- `getOwnedObjectBlob` -/
def getOwnedObjectBlob (user blobId : CodeUnits) : Step (Option ObjectBlob) :=
  select fun w => w.objectBlobs.find? fun b => b.id = blobId && b.ownerUserId = some user

/-- Why an object does not match what was declared of it. -/
def mismatch (blob : ObjectBlob) (inspection : StoredObjectInspection) : Option String :=
  if blob.byteSize ≠ some inspection.byteSize then some "partial-object-upload"
  else if blob.contentType.any fun t => inspection.contentType ≠ some (toLowerCase t) then
    some "object-content-type-mismatch"
  else if blob.sha256.any fun s => inspection.sha256 ≠ some (toLowerCase s) then some "object-checksum-mismatch"
  else none

/-- `UPDATE object_blobs … WHERE id = … AND` the declaration is still the one that was read. -/
def updateDeclared (user : CodeUnits) (blob : ObjectBlob) (set : ObjectBlob → ObjectBlob) :
    Call World Failure (Option ObjectBlob) := do
  let w ← Call.read
  let declared := fun b : ObjectBlob => b.id = blob.id ∧ b.ownerUserId = some user ∧ b.byteSize = blob.byteSize ∧
    b.contentType = blob.contentType ∧ b.sha256 = blob.sha256
  Call.modify fun w => { w with objectBlobs := Table.update (fun b => declared b) set w.objectBlobs }
  pure ((w.objectBlobs.find? fun b => declared b).map set)

/-- `completeObjectBlobUpload` -/
def completeObjectBlobUpload (user blobId : CodeUnits) (inspection : StoredObjectInspection) : Step ObjectBlob := do
  match ← getOwnedObjectBlob user blobId with
  | none => .throw (httpError 404 "object blob not found")
  | some blob =>
    match mismatch blob inspection with
    | some errorCode =>
      let updated ← statement fun _ => updateDeclared user blob fun b =>
        { b with uploadStatus := .staged, verifiedAt := none, verificationErrorCode := some errorCode }
      throwIf (updated.isNone)
        (codedError 409 "object-declaration-changed" "object declaration changed during upload verification")
      .throw (codedError 409 errorCode "object upload is incomplete or does not match its declaration")
    | none =>
      let updated ← statement fun o => updateDeclared user blob fun b =>
        { b with uploadStatus := .complete, verifiedAt := b.verifiedAt.orElse fun _ => some o.now,
                 verificationErrorCode := none }
      match updated with
      | some blob => pure blob
      | none => .throw (codedError 409 "object-declaration-changed"
          "object declaration changed during upload verification")

/-! ### Staging -/

/-- `stableJson` of this file: the members in sorted order, also those that are array indices. -/
def sortedJson : Encoder CodeUnits Scalar where
  leaf := Scalar.stringify
  name := stringifyString
  rank := List.map UInt16.toNat

/-- `fileCacheKey` -/
def fileCacheKey (env : Env) (user : CodeUnits) (plan : RecorderUploadPlan) (file : RecorderUploadFilePlan) :
    CodeUnits :=
  env.sha256Text (units "forge-recorder-materialization-v1" ++ 0 :: (user ++ 0 :: (plan.artifactId ++ 0 ::
    (file.name ++ 0 :: file.sha256))))

def RecorderFileRole.purpose (role : RecorderFileRole) : CodeUnits := units "recorder-v1-" ++ units role.text

/-- What `stageRecorderArchive` declares of a file. -/
def fileDeclaration (env : Env) (user : CodeUnits) (plan : RecorderUploadPlan) (bucket : CodeUnits)
    (role : RecorderFileRole) : BlobDeclaration where
  bucket
  purpose := role.purpose
  contentType := some (plan.file role).contentType
  byteSize := some (plan.file role).byteSize
  sha256 := some (plan.file role).sha256
  metadata := .object [(units "purpose", .leaf (.string role.purpose)),
    (units "originalName", .leaf (text role.fileName)), (units "artifactId", .leaf (.string plan.artifactId)),
    (units "uploadPlanSchemaVersion", .leaf (text "forge-recorder-upload-plan/1.0.0"))]
  cacheKey := some (fileCacheKey env user plan (plan.file role))

def RecorderFileRole.position : RecorderFileRole → ℕ
  | .manifest => 0
  | .frame => 1
  | .index => 2
  | .replay => 3
  | .receipt => 4

/-- The owner's materialization of an artifact. -/
def findArtifact (user artifactId : CodeUnits) (w : World) : Option Materialization :=
  w.materializations.find? fun m => m.ownerUserId = user && m.artifactId = artifactId

/-- The blobs of a row are five different ones. -/
def distinctBlobs (blobId : RecorderFileRole → CodeUnits) : Prop :=
  [blobId .manifest, blobId .frame, blobId .index, blobId .replay, blobId .receipt].Nodup

instance (blobId : RecorderFileRole → CodeUnits) : Decidable (distinctBlobs blobId) :=
  inferInstanceAs (Decidable (List.Nodup _))

/-- `INSERT INTO recorder_archive_materializations … ON CONFLICT (owner_user_id, artifact_id) DO NOTHING` -/
def insertMaterialization (row : Materialization) : Call World Failure (Option Materialization) := do
  let w ← Call.read
  if (findArtifact row.ownerUserId row.artifactId w).isSome then pure none
  else if ¬ distinctBlobs row.blobId ∨ w.materializations.any (fun m => m.id = row.id) then
    Call.throw (constraintError "recorder_archive_materializations")
  else do
    Call.modify fun w => { w with materializations := w.materializations ++ [row] }
    pure (some row)

/-- The transaction of `stageRecorderArchive`. -/
def stageTransaction (env : Env) (user : CodeUnits) (plan : RecorderUploadPlan) (bucket : CodeUnits) (o : Outside) :
    Call World Failure (Materialization × (RecorderFileRole → ObjectBlob)) := do
  let blobs ← forFiles fun role => registerObjectBlob user (fileDeclaration env user plan bucket role)
    (o.freshId role.position) [] o.now
  let inserted ← insertMaterialization
    { id := o.freshId 5, ownerUserId := user, artifactId := plan.artifactId, status := .staged,
      blobId := fun role => (blobs role).id, uploadPlan := plan, aggregateByteSize := plan.aggregateByteSize,
      gatewayObjectIntegrityVerified := false, verificationErrorCode := none, createdAt := o.now, materializedAt := none }
  let w ← Call.read
  match inserted.or (findArtifact user plan.artifactId w) with
  | none => Call.throw (httpError 409 "recorder artifactId is already bound to different materialization evidence")
  | some existing =>
    if (∀ role ∈ [RecorderFileRole.manifest, .frame, .index, .replay, .receipt], existing.blobId role = (blobs role).id) ∧
        sortedJson.text existing.uploadPlan.value = sortedJson.text plan.value then pure (existing, blobs)
    else Call.throw (httpError 409 "recorder artifactId is already bound to different materialization evidence")

/-- The row of a plan that is staged with these blobs. -/
def stagedRow (user : CodeUnits) (plan : RecorderUploadPlan) (blobId : RecorderFileRole → CodeUnits) (o : Outside) :
    Materialization where
  id := o.freshId 5
  ownerUserId := user
  artifactId := plan.artifactId
  status := .staged
  blobId := blobId
  uploadPlan := plan
  aggregateByteSize := plan.aggregateByteSize
  gatewayObjectIntegrityVerified := false
  verificationErrorCode := none
  createdAt := o.now
  materializedAt := none

/-- With the five blobs registered and no other materialization the plan is staged. -/
theorem stageTransaction_of_files {env : Env} {user bucket : CodeUnits} {plan : RecorderUploadPlan} {o : Outside}
    {w after : World} {blobs : RecorderFileRole → ObjectBlob}
    (h : forFiles (m := Call World Failure) (fun role => registerObjectBlob user (fileDeclaration env user plan bucket role)
      (o.freshId role.position) [] o.now) w = (.ok blobs, after))
    (hnone : after.materializations = []) (hdistinct : distinctBlobs fun role => (blobs role).id) :
    stageTransaction env user plan bucket o w = (.ok (stagedRow user plan (fun role => (blobs role).id) o, blobs),
      { after with materializations := [stagedRow user plan (fun role => (blobs role).id) o] }) := by
  have hinsert (row : Materialization) (hblobs : distinctBlobs row.blobId) : insertMaterialization row after =
      (.ok (some row), { after with materializations := [row] }) := by
    simp [insertMaterialization, findArtifact, hnone, hblobs, bind, Call.bind, pure, Call.read, Call.modify]
  simp only [stageTransaction, bind, Call.bind]
  rw [h]
  dsimp only
  rw [hinsert _ hdistinct]
  simp [Call.read, pure, stagedRow]

/-- `stageRecorderArchive` -/
def stageRecorderArchive (env : Env) (user : CodeUnits) (planValue : Doc) (bucket : CodeUnits) :
    Step (Materialization × (RecorderFileRole → ObjectBlob)) := do
  let plan ← Program.ofExcept (validateRecorderUploadPlan planValue)
  withGatewayTransaction (stageTransaction env user plan bucket)

/-! ### Downloads -/

/-- A segment `..` of a path, or a character that no key may have. -/
def assertObjectKey (objectKey : CodeUnits) : Except Failure Unit :=
  refuse (objectKey = [] ∨ objectKey.head? = some 0x2F ∨ units ".." ∈ objectKey.splitOn 0x2F ∨
    objectKey.any (fun u => u = 0 || u = 0x0D || u = 0x0A)) (plainError "object key is invalid")

/-- `StoredObjectRead` -/
structure StoredObjectRead where
  bucket : CodeUnits
  objectKey : CodeUnits
  byteSize : ℤ
  sha256 : CodeUnits
  maxBytes : ℤ

/-- `normalizedSha256` -/
def normalizedSha256 (value : CodeUnits) : Except Failure CodeUnits :=
  if isSha256 (toLowerCase value) then .ok (toLowerCase value) else .error (plainError "object SHA-256 is invalid")

/-- The chunks of a body, as long as they stay within the declared size; `received` are the bytes before. -/
def collect (object : StoredObjectRead) (received : Bytes) : List Bytes → Except Failure Bytes
  | [] => .ok received
  | chunk :: chunks =>
    let total : ℤ := (received ++ chunk).length
    if object.maxBytes < total ∨ object.byteSize < total then
      .error (plainError "object storage exceeded the declared download size")
    else collect object (received ++ chunk) chunks

/-- `streamStoredObject`, with what the object store answers. -/
def streamStoredObject (env : Env) (bucket : CodeUnits) (object : StoredObjectRead)
    (body : Except Failure (List Bytes)) : Except Failure Bytes := do
  refuse (object.bucket ≠ bucket) (plainError "object bucket is outside the configured boundary")
  assertObjectKey object.objectKey
  refuse (object.byteSize ≤ 0 ∨ object.maxBytes ≤ 0 ∨ object.maxBytes < object.byteSize ∨ maxObjectBytes < object.maxBytes)
    (plainError "object download size is outside the supported range")
  let declaredSha256 ← normalizedSha256 object.sha256
  let chunks ← body
  let bytes ← collect object [] chunks
  refuse ((bytes.length : ℤ) ≠ object.byteSize) (plainError "object storage returned a partial download")
  refuse (env.sha256 bytes ≠ declaredSha256) (plainError "object storage returned a checksum mismatch")
  pure bytes

/-- A download, one answer of the object store. -/
def download (env : Env) (bucket : CodeUnits) (object : StoredObjectRead) : Step Bytes :=
  .perform fun o => .ofExcept (streamStoredObject env bucket object o.body)

/-- `inspectObject` -/
def inspectObject : Step StoredObjectInspection := .perform fun o => .ofExcept o.inspection

/-- `POST /v1/blobs/:id/complete` -/
def completeBlob (user blobId : CodeUnits) : Step ObjectBlob := do
  match ← getOwnedObjectBlob user blobId with
  | none => .throw (httpError 404 "object blob not found")
  | some blob =>
    let inspection ← inspectObject
    completeObjectBlobUpload user blob.id inspection

/-! ### Completion -/

/-- `getRecorderArchive` -/
def getRecorderArchive (user id : CodeUnits) : Step (Option Materialization) :=
  select fun w => w.materializations.find? fun m => m.id = id && m.ownerUserId = user

def manifestFields : List String :=
  ["schemaVersion", "replaySchemaVersion", "frameSchemaVersion", "receiptSchemaVersion", "artifactId", "referenceRigId",
    "sampleRateHz", "startedAtUnixMs", "contractHash", "lockfileHash", "environment", "seed", "sourceKind",
    "sourcePortSha256", "sourceBaud", "captureMaturity", "recordedDeviceAttested", "frameFile", "indexFile", "replayFile",
    "receiptFile", "captureConsentConfirmed", "userOwned", "sharingAuthorized", "trainingReuseAuthorized", "noAutoArm"]

def receiptFields : List String :=
  ["schemaVersion", "archiveSchemaVersion", "replaySchemaVersion", "frameSchemaVersion", "artifactId", "referenceRigId",
    "contractHash", "lockfileHash", "startedAtUnixMs", "stoppedAtUnixMs", "frameCount", "durationS", "frameFileSha256",
    "indexFileSha256", "replayFileSha256", "sourcePortSha256", "captureComplete", "captureMaturity",
    "captureConsentConfirmed", "recordedDeviceAttested", "userOwned", "sharingAuthorized", "trainingReuseAuthorized",
    "noAutoArm"]

/-- The members of a manifest that are the same in every archive. -/
def manifestConstants : List (String × Scalar) :=
  [("schemaVersion", text "forge-recorder-archive/1.0.0"), ("replaySchemaVersion", text "1.0.0"),
    ("frameSchemaVersion", text "forge-telemetry-frame/1.0.0"), ("receiptSchemaVersion", text "forge-recorder-receipt/1.0.0"),
    ("sourceKind", text "serial-jsonl"), ("sourceBaud", .number (.int 115200)),
    ("captureMaturity", text "local-serial-integration"), ("recordedDeviceAttested", .bool false),
    ("frameFile", text RecorderFileRole.frame.fileName), ("indexFile", text RecorderFileRole.index.fileName),
    ("replayFile", text RecorderFileRole.replay.fileName), ("receiptFile", text RecorderFileRole.receipt.fileName),
    ("captureConsentConfirmed", .bool true), ("userOwned", .bool true), ("sharingAuthorized", .bool false),
    ("trainingReuseAuthorized", .bool false), ("noAutoArm", .bool true)]

/-- The members of a receipt that are the same in every archive. -/
def receiptConstants : List (String × Scalar) :=
  [("schemaVersion", text "forge-recorder-receipt/1.0.0"), ("archiveSchemaVersion", text "forge-recorder-archive/1.0.0"),
    ("replaySchemaVersion", text "1.0.0"), ("frameSchemaVersion", text "forge-telemetry-frame/1.0.0"),
    ("captureComplete", .bool true), ("captureMaturity", text "local-serial-integration"),
    ("captureConsentConfirmed", .bool true), ("recordedDeviceAttested", .bool false), ("userOwned", .bool true),
    ("sharingAuthorized", .bool false), ("trainingReuseAuthorized", .bool false), ("noAutoArm", .bool true)]

/-- `parseStrictJson` -/
def parseStrictJson (env : Env) (bytes : Bytes) (label : String) (expected : List String) : Except Failure Doc := do
  refuse (bytes = [] ∨ maxMetadataBytes < bytes.length ∨ bytes.getLast? ≠ some 0x0A)
    (httpError 409 s!"recorder {label} is outside the bounded newline-terminated metadata contract")
  match env.parseJson bytes with
  | none => .error (httpError 409 s!"recorder {label} is not strict UTF-8 JSON")
  | some value =>
    refuse (isRecord value = false) (httpError 409 s!"recorder {label} must be an object")
    refuse (exactFields expected value = false)
      (httpError 409 s!"recorder {label} fields do not match the recorder-v1 contract")
    (assertBoundedJson s!"recorder {label}"
      { maxBytes := maxMetadataBytes, maxDepth := 32, maxNodes := 4096, maxObjectKeys := 256 } value).mapError
        (httpError 400)
    pure value

/-- A digest in a document is that of a blob. -/
def isDigestOf (blob : ObjectBlob) (name : String) (value : Doc) : Bool :=
  strictEquals (member name value) (some (.leaf (blob.sha256.elim .null .string)))

/-- `verifyManifestReceiptBindings` -/
def verifyManifestReceiptBindings (env : Env) (plan : RecorderUploadPlan) (blobs : RecorderFileRole → ObjectBlob)
    (manifestBytes receiptBytes : Bytes) : Except Failure Unit := do
  let manifest ← parseStrictJson env manifestBytes "manifest" manifestFields
  let receipt ← parseStrictJson env receiptBytes "receipt" receiptFields
  refuse (¬ (hasMembers manifestConstants manifest = true ∧
      agreeOn ["artifactId", "referenceRigId", "sampleRateHz", "startedAtUnixMs", "contractHash", "lockfileHash",
        "sourcePortSha256"] manifest plan.value = true ∧
      (member "environment" manifest).any isRecord = true ∧ safeInteger 0 maxSafeInteger (member "seed" manifest) = true))
    (httpError 409 "recorder manifest does not match the staged upload authority")
  refuse (¬ (hasMembers receiptConstants receipt = true ∧
      agreeOn ["artifactId", "referenceRigId", "contractHash", "lockfileHash", "startedAtUnixMs", "stoppedAtUnixMs",
        "frameCount", "durationS", "sourcePortSha256"] receipt plan.value = true ∧
      isDigestOf (blobs .frame) "frameFileSha256" receipt = true ∧
      isDigestOf (blobs .index) "indexFileSha256" receipt = true ∧
      isDigestOf (blobs .replay) "replayFileSha256" receipt = true))
    (httpError 409 "recorder receipt does not match the staged object authority")

/-- One file of `completeRecorderArchive`: inspect the object and complete its blob. -/
def completeFile (user : CodeUnits) (materialization : Materialization) (role : RecorderFileRole) : Step ObjectBlob := do
  match ← getOwnedObjectBlob user (materialization.blobId role) with
  | none => .throw (codedError 409 "recorder-blob-drift" "recorder archive blob declaration has drifted")
  | some blob =>
    throwIf (blob.contentType ≠ some (units role.contentType) ∨ blob.byteSize = none ∨ blob.sha256 = none)
      (codedError 409 "recorder-blob-drift" "recorder archive blob declaration has drifted")
    let inspection ← inspectObject
    completeObjectBlobUpload user blob.id inspection

/-- `readObject` of a metadata file. -/
def readMetadata (env : Env) (config : CodeUnits) (blob : ObjectBlob) : Step Bytes :=
  download env config { bucket := blob.bucket, objectKey := blob.objectKey, byteSize := blob.byteSize.getD 0,
                        sha256 := blob.sha256.getD [], maxBytes := maxMetadataBytes }

/-- The row of a materialization once its objects are verified. -/
def Materialization.complete (now : ℤ) (m : Materialization) : Materialization :=
  { m with status := .materialized, gatewayObjectIntegrityVerified := true, verificationErrorCode := none,
           materializedAt := m.materializedAt.orElse fun _ => some now }

/-- The rows of an `UPDATE … WHERE id = $1 AND owner_user_id = $2`. -/
def ownedRow (user id : CodeUnits) (m : Materialization) : Bool := m.id = id && m.ownerUserId = user

/-- The transaction of `completeRecorderArchive`. -/
def completeTransaction (user id : CodeUnits) (o : Outside) : Call World Failure Materialization := do
  let w ← Call.read
  match w.materializations.find? (ownedRow user id) with
  | none => Call.throw (httpError 409 "recorder archive materialization changed during completion")
  | some m =>
    Call.modify fun w => { w with
      materializations := Table.update (ownedRow user id) (Materialization.complete o.now) w.materializations }
    pure (m.complete o.now)

/-- The pattern of `verification_error_code`. -/
def isErrorCode (code : String) : Bool :=
  match units code with
  | [] => false
  | u :: us => inClass false "" u && us.length ≤ 79 && us.all (inClass false "-")

/-- The code that the handler records for an error. -/
def recordedCode (error : Failure) : String :=
  let rawCode := error.code.getD "recorder-materialization-failed"
  if isErrorCode rawCode then rawCode else "recorder-materialization-failed"

/-- `UPDATE recorder_archive_materializations SET verification_error_code = … AND status = 'staged'` -/
def recordError (user id : CodeUnits) (error : Failure) : Step Unit := statement fun _ =>
  Call.modify fun w => { w with
    materializations := Table.update (fun m => ownedRow user id m && m.status = .staged)
      (fun m => { m with verificationErrorCode := some (recordedCode error) }) w.materializations }

/-- The `try` block of `completeRecorderArchive`. -/
def completeMaterialization (env : Env) (user id config : CodeUnits) (materialization : Materialization) :
    Step Materialization := do
  let blobs ← forFiles (completeFile user materialization)
  let manifestBytes ← readMetadata env config (blobs .manifest)
  let receiptBytes ← readMetadata env config (blobs .receipt)
  Program.ofExcept (verifyManifestReceiptBindings env materialization.uploadPlan blobs manifestBytes receiptBytes)
  withGatewayTransaction (completeTransaction user id)

/-- `completeRecorderArchive` -/
def completeRecorderArchive (env : Env) (user id config : CodeUnits) : Step Materialization := do
  match ← getRecorderArchive user id with
  | none => .throw (httpError 404 "recorder archive materialization not found")
  | some materialization =>
    (completeMaterialization env user id config materialization).attempt fun error => do
      recordError user id error
      .throw error

end Forge.Recorder
