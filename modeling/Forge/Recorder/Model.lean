import Forge.Data.Program
import Forge.Data.Table
import Forge.Json.Access

/-!
# Recorder archives: plans, rows and statements

What `recorderArchives.ts` and `recorderAdmission.ts` keep: the upload plan of a
five-file archive as `validateRecorderUploadPlan` accepts it, the rows of the tables
that the migrations define, and the world of the gateway, which is the database
beside a history of what the verifier was given and what it returned.

Text is UTF-16 code units throughout, since identifiers and digests are compared with
members of documents. The columns of `recorder_archive_materializations` and
`recorder_archive_admissions` that a constraint fixes (the authority flags and the
schema versions) are left out.
-/

namespace Forge.Recorder

abbrev Bytes := List UInt8

/-! ### Errors -/

/-- An error as it is thrown, with the status and the code that may be assigned to it. -/
structure Failure where
  message : String
  statusCode : Option ℕ
  code : Option String
deriving DecidableEq

/-- `Object.assign(new Error(message), { statusCode })` -/
def httpError (statusCode : ℕ) (message : String) : Failure := { message, statusCode := some statusCode, code := none }

/-- `Object.assign(new Error(message), { statusCode, code })` -/
def codedError (statusCode : ℕ) (code message : String) : Failure :=
  { message, statusCode := some statusCode, code := some code }

/-- An error without a status. -/
def plainError (message : String) : Failure := { message, statusCode := none, code := none }

/-- `if (c) throw e;` -/
def refuse (c : Prop) [Decidable c] (e : Failure) : Except Failure Unit := if c then .error e else .ok ()

theorem refuse_eq_ok {c : Prop} [Decidable c] {e : Failure} {u : Unit} : refuse c e = .ok u ↔ ¬c := by
  unfold refuse
  split <;> simp [*]

/-! ### Files -/

/-- `RecorderFileRole` -/
inductive RecorderFileRole where
  | manifest | frame | index | replay | receipt
deriving DecidableEq

def RecorderFileRole.text : RecorderFileRole → String
  | .manifest => "manifest"
  | .frame => "frame"
  | .index => "index"
  | .replay => "replay"
  | .receipt => "receipt"

/-- `RecorderFileName` -/
def RecorderFileRole.fileName : RecorderFileRole → String
  | .manifest => "forge-recorder-manifest.json"
  | .frame => "telemetry.frames.jsonl"
  | .index => "telemetry.index.jsonl"
  | .replay => "telemetry.replay.json"
  | .receipt => "forge-recorder-receipt.json"

def RecorderFileRole.contentType : RecorderFileRole → String
  | .manifest | .replay | .receipt => "application/json"
  | .frame | .index => "application/x-ndjson"

/-- `for (… of FILES)`: the files in order, and what was found for each. -/
def forFiles {m : Type → Type} [Monad m] {α : Type} (f : RecorderFileRole → m α) : m (RecorderFileRole → α) := do
  let manifest ← f .manifest
  let frame ← f .frame
  let index ← f .index
  let replay ← f .replay
  let receipt ← f .receipt
  pure fun
    | .manifest => manifest
    | .frame => frame
    | .index => index
    | .replay => replay
    | .receipt => receipt

theorem forFiles_of_ok {ε α : Type} {f : RecorderFileRole → Except ε α} {g : RecorderFileRole → α}
    (h : ∀ role, f role = .ok (g role)) : forFiles f = .ok g := by
  simp only [forFiles, h, bind, Except.bind, pure, Except.pure, Except.ok.injEq]
  funext role
  cases role <;> rfl

def maxArchiveBytes : ℤ := 512 * 1024 * 1024

def maxMetadataBytes : ℕ := 1024 * 1024

/-! ### Patterns -/

def isLowerHex (u : UInt16) : Bool := (0x30 ≤ u && u ≤ 0x39) || (0x61 ≤ u && u ≤ 0x66)

/-- `isSha256`: 64 lower-case hexadecimal digits. -/
def isSha256 (s : CodeUnits) : Bool := s.length = 64 && s.all isLowerHex

def isDigit (u : UInt16) : Bool := 0x30 ≤ u && u ≤ 0x39

def isLower (u : UInt16) : Bool := 0x61 ≤ u && u ≤ 0x7A

def isUpper (u : UInt16) : Bool := 0x41 ≤ u && u ≤ 0x5A

/-- A character class: letters, digits and these others. -/
def inClass (upper : Bool) (others : String) (u : UInt16) : Bool :=
  isDigit u || isLower u || (upper && isUpper u) || u ∈ units others

/-- The pattern of an artifact id: a letter or digit, then up to 127 of a wider class. -/
def isArtifactId : CodeUnits → Bool
  | [] => false
  | u :: us => inClass true "" u && us.length ≤ 127 && us.all (inClass true "_.-")

/-- `toLowerCase` of ASCII. -/
def toLowerCase (s : CodeUnits) : CodeUnits := s.map fun u => if isUpper u then u + 0x20 else u

theorem toLowerCase_of_isSha256 {s : CodeUnits} (h : isSha256 s = true) : toLowerCase s = s := by
  have hall := (Bool.and_eq_true_iff.mp h).2
  rw [List.all_eq_true] at hall
  unfold toLowerCase
  conv_rhs => rw [← List.map_id s]
  refine List.map_congr_left fun u hu => ?_
  have hu := hall u hu
  have hupper : isUpper u = false := by
    simp only [isLowerHex, isUpper, Bool.or_eq_true, Bool.and_eq_true, decide_eq_true_eq, UInt16.le_iff_toNat_le] at hu ⊢
    by_contra hc
    simp only [Bool.not_eq_false, Bool.and_eq_true, decide_eq_true_eq] at hc
    have h1 : (0x41 : UInt16).toNat = 65 := rfl
    have h2 : (0x5A : UInt16).toNat = 90 := rfl
    have h3 : (0x30 : UInt16).toNat = 48 := rfl
    have h4 : (0x39 : UInt16).toNat = 57 := rfl
    have h5 : (0x61 : UInt16).toNat = 97 := rfl
    omega
  rw [hupper]
  rfl

/-! ### Upload plans -/

/-- One entry of `files` in a plan. -/
structure RecorderUploadFilePlan where
  name : CodeUnits
  contentType : CodeUnits
  byteSize : ℤ
  sha256 : CodeUnits
  wellFormed : isSha256 sha256 = true

/-- `RecorderUploadPlanInput`: the plan as it was sent, and what is read off it. -/
structure RecorderUploadPlan where
  value : Doc
  artifactId : CodeUnits
  contractHash : CodeUnits
  lockfileHash : CodeUnits
  aggregateByteSize : ℤ
  file : RecorderFileRole → RecorderUploadFilePlan
  reads_artifactId : stringMember "artifactId" value = some artifactId
  reads_contractHash : stringMember "contractHash" value = some contractHash
  reads_lockfileHash : stringMember "lockfileHash" value = some lockfileHash

def planFields : List String :=
  ["schemaVersion", "archiveSchemaVersion", "inspectionSchemaVersion", "artifactId", "referenceRigId", "contractHash",
    "lockfileHash", "sourcePortSha256", "sampleRateHz", "startedAtUnixMs", "stoppedAtUnixMs", "frameCount", "durationS",
    "captureMaturity", "aggregateByteSize", "files", "localIntegrityVerified", "captureComplete",
    "captureConsentConfirmed", "userOwned", "sharingAuthorized", "trainingReuseAuthorized", "recordedDeviceAttested",
    "deviceIdentityVerified", "fieldSessionVerified", "noAutoArm"]

def planVersions : List (String × Scalar) :=
  [("schemaVersion", text "forge-recorder-upload-plan/1.0.0"), ("archiveSchemaVersion", text "forge-recorder-archive/1.0.0"),
    ("inspectionSchemaVersion", text "forge-recorder-inspection/1.0.0")]

/-- The authority that a plan may declare. -/
def planAuthority : List (String × Scalar) :=
  [("localIntegrityVerified", .bool true), ("captureComplete", .bool true), ("captureConsentConfirmed", .bool true),
    ("userOwned", .bool true), ("sharingAuthorized", .bool false), ("trainingReuseAuthorized", .bool false),
    ("recordedDeviceAttested", .bool false), ("deviceIdentityVerified", .bool false), ("fieldSessionVerified", .bool false),
    ("noAutoArm", .bool true)]

/-- `D12_RIGS` -/
def d12Rigs : List CodeUnits :=
  [units "ref_quad_kakute-h7-source-one-5in", units "ref_rover_waveshare-ugv-rover-pt-pi5-ros2"]

/-- Rate, times, count and duration are within their ranges. -/
def timesOk (value : Doc) : Bool :=
  safeInteger 1 1000 (member "sampleRateHz" value) &&
    safeInteger 0 maxSafeInteger (member "startedAtUnixMs" value) &&
    safeInteger 0 maxSafeInteger (member "stoppedAtUnixMs" value) &&
    (safeValue (member "startedAtUnixMs" value)).any (fun started =>
      (safeValue (member "stoppedAtUnixMs" value)).any fun stopped => started ≤ stopped) &&
    safeInteger 1 1000000 (member "frameCount" value) &&
    (asNumber (member "durationS" value)).any fun x =>
      x.isFinite && !decide (x < 0.0) && !decide (intToFloat maxSafeInteger < x)

/-- One entry of `files`. -/
def readFile (raw : Doc) : Except Failure RecorderUploadFilePlan := do
  refuse (isRecord raw = false) (httpError 400 "recorder upload file must be an object")
  refuse (exactFields ["name", "contentType", "byteSize", "sha256"] raw = false)
    (httpError 400 "recorder upload file fields do not match the recorder-v1 contract")
  match stringMember "name" raw, stringMember "contentType" raw, safeValue (member "byteSize" raw),
      stringMember "sha256" raw with
  | some name, some contentType, some byteSize, some sha256 =>
    if h : isSha256 sha256 = true ∧ 1 ≤ byteSize ∧ byteSize ≤ maxArchiveBytes then
      .ok { name, contentType, byteSize, sha256, wellFormed := h.1 }
    else .error (httpError 400 "recorder upload file declaration is invalid")
  | _, _, _, _ => .error (httpError 400 "recorder upload file declaration is invalid")

/-- The entries of `files`, whose names are unique; `seen` are the names before. -/
def readFiles (seen : List CodeUnits) : List Doc → Except Failure (List RecorderUploadFilePlan)
  | [] => .ok []
  | raw :: raws => do
    let file ← readFile raw
    refuse (file.name ∈ seen) (httpError 400 "recorder upload filenames must be unique")
    let files ← readFiles (file.name :: seen) raws
    pure (file :: files)

/-- The entry of a file in a plan, with the content type it must have and the cap on metadata. -/
def plannedFile (files : List RecorderUploadFilePlan) (role : RecorderFileRole) :
    Except Failure RecorderUploadFilePlan :=
  match files.find? fun file => file.name = units role.fileName with
  | none => .error (httpError 400 "recorder upload file names or content types have drifted")
  | some file => do
    refuse (file.contentType ≠ units role.contentType)
      (httpError 400 "recorder upload file names or content types have drifted")
    refuse ((role = .manifest ∨ role = .receipt) ∧ maxMetadataBytes < file.byteSize)
      (httpError 400 "recorder upload metadata file exceeds the v1 cap")
    pure file

/-- The sizes of the five files together. -/
def aggregateSize (file : RecorderFileRole → RecorderUploadFilePlan) : ℤ :=
  (file .manifest).byteSize + (file .frame).byteSize + (file .index).byteSize + (file .replay).byteSize +
    (file .receipt).byteSize

/-- `validateRecorderUploadPlan` -/
def validateRecorderUploadPlan (value : Doc) : Except Failure RecorderUploadPlan := do
  refuse (isRecord value = false) (httpError 400 "recorder upload plan must be an object")
  refuse (exactFields planFields value = false)
    (httpError 400 "recorder upload plan fields do not match the recorder-v1 contract")
  (assertBoundedJson "recorder upload plan"
    { maxBytes := 64 * 1024, maxDepth := 8, maxNodes := 512, maxObjectKeys := 128 } value).mapError (httpError 400)
  refuse (hasMembers planVersions value = false) (httpError 400 "recorder upload plan declares an unsupported version")
  match reads_artifactId : stringMember "artifactId" value with
  | none => .error (httpError 400 "recorder upload artifactId is invalid")
  | some artifactId =>
    refuse (isArtifactId artifactId = false) (httpError 400 "recorder upload artifactId is invalid")
    refuse ((stringMember "referenceRigId" value).all (fun rig => rig ∉ d12Rigs))
      (httpError 400 "recorder upload referenceRigId is not a frozen D12 rig")
    match reads_contractHash : stringMember "contractHash" value, reads_lockfileHash : stringMember "lockfileHash" value,
        stringMember "sourcePortSha256" value with
    | some contractHash, some lockfileHash, some sourcePortSha256 =>
      refuse (¬ (isSha256 contractHash = true ∧ isSha256 lockfileHash = true ∧ isSha256 sourcePortSha256 = true))
        (httpError 400 "recorder upload identity hashes are invalid")
      refuse (timesOk value = false) (httpError 400 "recorder upload time, rate, count, or duration is invalid")
      refuse (hasMembers [("captureMaturity", text "local-serial-integration")] value = false)
        (httpError 400 "recorder upload maturity authority has drifted")
      refuse (hasMembers planAuthority value = false) (httpError 400 "recorder upload authority flags have drifted")
      match member "files" value with
      | some (.array raws) =>
        refuse (raws.length ≠ 5) (httpError 400 "recorder upload plan requires exactly five files")
        let files ← readFiles [] raws
        let file ← forFiles (plannedFile files)
        match safeValue (member "aggregateByteSize" value) with
        | some aggregateByteSize =>
          refuse (¬ (1 ≤ aggregateByteSize ∧ aggregateByteSize ≤ maxArchiveBytes ∧ aggregateByteSize = aggregateSize file))
            (httpError 400 "recorder upload aggregate size is invalid")
          pure { value, artifactId, contractHash, lockfileHash, aggregateByteSize, file, reads_artifactId,
                 reads_contractHash, reads_lockfileHash }
        | none => .error (httpError 400 "recorder upload aggregate size is invalid")
      | _ => .error (httpError 400 "recorder upload plan requires exactly five files")
    | _, _, _ => .error (httpError 400 "recorder upload identity hashes are invalid")

/-- A value that passes every check is accepted. -/
theorem validateRecorderUploadPlan_eq_ok {plan : RecorderUploadPlan} {source : CodeUnits} {raws : List Doc}
    {files : List RecorderUploadFilePlan} (hrecord : isRecord plan.value = true)
    (hfields : exactFields planFields plan.value = true)
    (hbounded : assertBoundedJson "recorder upload plan"
      { maxBytes := 64 * 1024, maxDepth := 8, maxNodes := 512, maxObjectKeys := 128 } plan.value = .ok ())
    (hversions : hasMembers planVersions plan.value = true) (hid : isArtifactId plan.artifactId = true)
    (hrig : (stringMember "referenceRigId" plan.value).all (fun rig => rig ∉ d12Rigs) = false)
    (hsource : stringMember "sourcePortSha256" plan.value = some source)
    (hsha : isSha256 plan.contractHash = true ∧ isSha256 plan.lockfileHash = true ∧ isSha256 source = true)
    (htimes : timesOk plan.value = true)
    (hmaturity : hasMembers [("captureMaturity", text "local-serial-integration")] plan.value = true)
    (hauthority : hasMembers planAuthority plan.value = true) (hfiles : member "files" plan.value = some (.array raws))
    (hfive : raws.length = 5) (hread : readFiles [] raws = .ok files) (hfile : forFiles (plannedFile files) = .ok plan.file)
    (hsize : safeValue (member "aggregateByteSize" plan.value) = some plan.aggregateByteSize)
    (hsum : 1 ≤ plan.aggregateByteSize ∧ plan.aggregateByteSize ≤ maxArchiveBytes ∧
      plan.aggregateByteSize = aggregateSize plan.file) : validateRecorderUploadPlan plan.value = .ok plan := by
  unfold validateRecorderUploadPlan
  rw [hbounded]
  simp only [hrecord, hfields, hversions, hrig, htimes, hmaturity, hauthority]
  split
  case h_1 h => rw [plan.reads_artifactId] at h; cases h
  case h_2 artifactId h =>
    obtain rfl : plan.artifactId = artifactId := Option.some.inj (plan.reads_artifactId.symm.trans h)
    simp only [hid, hsource]
    split
    case h_1 contractHash lockfileHash s hc hl hs =>
      obtain rfl : plan.contractHash = contractHash := Option.some.inj (plan.reads_contractHash.symm.trans hc)
      obtain rfl : plan.lockfileHash = lockfileHash := Option.some.inj (plan.reads_lockfileHash.symm.trans hl)
      obtain rfl : source = s := Option.some.inj hs
      simp [hsha.1, hsha.2.1, hsha.2.2, hfiles, hfive, hread, hfile, hsize, hsum.1, hsum.2.1, ← hsum.2.2, refuse, bind,
        Except.bind, pure, Except.pure, Except.mapError]
    case h_2 h2 => exact (h2 _ _ _ plan.reads_contractHash plan.reads_lockfileHash rfl).elim

end Forge.Recorder
