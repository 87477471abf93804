import Forge.Data.Call
import Forge.Desktop.Stream
import Forge.Studio.RecorderStart

/-!
# Custody of a recording

The signed authorization that a custodied recording needs, how it is loaded and checked against the
recording (`load_and_verify_authorization`), and the proof file (`write_custody_proof`). Reading and writing
files may fail at every step: what the operating system answers is an input. Hashes, JSON and Ed25519
belong to libraries (`CustodyHost`).

Times in milliseconds are `u64` here; nothing is added to them.
-/

namespace Forge.Desktop

/-- `is_lower_hex` -/
def isLowerHex (value : String) (size : ℕ) : Bool :=
  utf8Length value.toList = size && value.toList.all fun c => ('0' ≤ c && c ≤ '9') || ('a' ≤ c && c ≤ 'f')

/-- `is_safe_token` -/
def isSafeToken (value : String) (max : ℕ) : Bool :=
  value ≠ "" && utf8Length value.toList ≤ max && value.toList.all isTokenChar

/-! ### Trust bundles and authorizations -/

structure RecorderCustodyTrustKey where
  keyId : String
  algorithm : String
  publicKeyHex : String
  notBeforeUnixMs : UInt64
  notAfterUnixMs : UInt64
  revokedAtUnixMs : Option UInt64
deriving DecidableEq

structure RecorderCustodyTrustBundle where
  schemaVersion : String
  bundleId : String
  purpose : String
  keys : List RecorderCustodyTrustKey
deriving DecidableEq

structure RecorderCustodyAuthorizationBinding where
  authorizationId : String
  purpose : String
  protectedRevision : String
  evidencePackSchemaVersion : String
  evidencePackSha256 : String
  requiredSignoffSetSha256 : String
  referenceRigId : String
  artifactId : String
  modelId : String
  contractHash : String
  lockfileHash : String
  telemetrySourcePortSha256 : String
  telemetryOsDescriptorSha256 : String
  identitySourcePortSha256 : String
  identityOsDescriptorSha256 : String
  recorderAdapterProbeSchemaVersion : String
  recorderAdapterSchemaVersion : String
  expectedIdentitySha256 : String
  expectedDeviceUidSha256 : String
  issuedAtUnixMs : UInt64
  notBeforeUnixMs : UInt64
  expiresAtUnixMs : UInt64
  captureConsentConfirmed : Bool
  noAutoArm : Bool
  cryptographicDeviceAttestation : Bool
  recordedDeviceAttested : Bool
  fieldSessionVerified : Bool
  sharingAuthorized : Bool
  trainingReuseAuthorized : Bool
deriving DecidableEq

structure RecorderCustodyAuthorization where
  schemaVersion : String
  keyId : String
  algorithm : String
  signatureHex : String
  binding : RecorderCustodyAuthorizationBinding
deriving DecidableEq

/-- What an authorization has to be for. -/
structure CustodyBindingInputs where
  protectedRevision : String
  referenceRigId : String
  artifactId : String
  modelId : String
  contractHash : String
  lockfileHash : String
  telemetrySourcePortSha256 : String
  telemetryOsDescriptorSha256 : String
  identitySourcePortSha256 : String
  identityOsDescriptorSha256 : String
  recorderAdapterProbeSchemaVersion : String
  recorderAdapterSchemaVersion : String
deriving DecidableEq

structure VerifiedCustodyAuthorization where
  trustBundle : RecorderCustodyTrustBundle
  trustBundleSha256 : String
  authorizationSha256 : String
  authorization : RecorderCustodyAuthorization
deriving DecidableEq

/-- What `inspect_recorder_archive_path` reports of an archive, as far as a proof needs it. -/
structure RecorderArchiveInspection where
  artifactId : String
  referenceRigId : String
  contractHash : String
  lockfileHash : String
  sourcePortSha256 : String
  startedAtUnixMs : UnixMs
  stoppedAtUnixMs : UnixMs

/-- The libraries that custody uses. -/
structure CustodyHost where
  /-- How `serde_json` spells doubles. -/
  spell : Spelling
  /-- The digest of the bytes of a file. -/
  sha256 : List UInt8 → String
  /-- The digest of a text. -/
  sha256Hex : List Char → String
  /-- `recorder_source_port_sha256` -/
  sourcePortSha256 : String → String
  /-- `packet_set_sha256` of a transcript. -/
  transcriptSha256 : List (List UInt8) → String
  /-- `serde_json::from_slice` -/
  parseTrustBundle : List UInt8 → Except String RecorderCustodyTrustBundle
  /-- `serde_json::from_slice` -/
  parseAuthorization : List UInt8 → Except String RecorderCustodyAuthorization
  /-- Decoding the key and the signature, the check for a weak key, and `verify_strict` of the serialized binding. -/
  verifySignature : RecorderCustodyTrustKey → RecorderCustodyAuthorization → Except String Unit
  /-- The checks of an archive, which `verify_archive` and `inspect_recorder_archive_path` share. -/
  verifyArchive : RecorderArchive → Except String RecorderArchiveInspection

/-! ### Reading files -/

/-- What is at a path. -/
inductive DiskFile where
  | unreadable (message : String)
  | irregular
  | regular (bytes : List UInt8)

/-- `read_regular_bounded` -/
def readRegularBounded (path : String) (limit : ℕ) (label : String) (file : DiskFile) : Except String (List UInt8) :=
  if !isAbsolute path then .error s!"{label} path must be absolute"
  else
    match file with
    | .unreadable message => .error message
    | .irregular => .error s!"{label} must be a non-symlink regular file"
    | .regular bytes =>
      if bytes.length = 0 ∨ limit < bytes.length then .error s!"{label} must contain 1 through {limit} bytes"
      else .ok bytes

/-! ### The checks of an authorization -/

/-- One turn of the loop of `validate_trust_bundle`, with the key IDs before it. -/
def validateTrustKey (keyIds : List String) (key : RecorderCustodyTrustKey) : Except String Unit :=
  if !isSafeToken key.keyId 128 ∨ key.keyId ∈ keyIds then
    .error "recorder custody trust key IDs must be unique safe tokens"
  else if key.algorithm ≠ "Ed25519" ∨ !isLowerHex key.publicKeyHex 64 then
    .error "recorder custody trust keys must be lowercase Ed25519 public keys"
  else if key.notAfterUnixMs ≤ key.notBeforeUnixMs then
    .error "recorder custody trust key validity interval is invalid"
  else if ∃ revoked ∈ key.revokedAtUnixMs, revoked < key.notBeforeUnixMs then
    .error "recorder custody trust key revocation predates its validity"
  else .ok ()

/-- The loop of `validate_trust_bundle`. -/
def validateTrustKeys : List String → List RecorderCustodyTrustKey → Except String Unit
  | _, [] => .ok ()
  | keyIds, key :: keys => do
    validateTrustKey keyIds key
    validateTrustKeys (key.keyId :: keyIds) keys

/-- `validate_trust_bundle` -/
def validateTrustBundle (bundle : RecorderCustodyTrustBundle) : Except String Unit :=
  if bundle.schemaVersion ≠ "forge-recorder-custody-trust-bundle/1.0.0" then
    .error "recorder custody trust bundle version is unsupported"
  else if !isSafeToken bundle.bundleId 128 then .error "recorder custody trust bundle ID is invalid"
  else if bundle.purpose ≠ "controlled-lab-recorder-custody" then
    .error "recorder custody trust bundle has the wrong purpose"
  else if bundle.keys = [] ∨ 32 < bundle.keys.length then
    .error "recorder custody trust bundle requires 1 through 32 public keys"
  else validateTrustKeys [] bundle.keys

/-- The hashes of a binding with the names that errors give them. -/
def RecorderCustodyAuthorizationBinding.hashes (binding : RecorderCustodyAuthorizationBinding) :
    List (String × String) :=
  [("evidence-pack hash", binding.evidencePackSha256), ("signoff-set hash", binding.requiredSignoffSetSha256),
    ("contract hash", binding.contractHash), ("lockfile hash", binding.lockfileHash),
    ("telemetry source-port hash", binding.telemetrySourcePortSha256),
    ("telemetry descriptor hash", binding.telemetryOsDescriptorSha256),
    ("identity source-port hash", binding.identitySourcePortSha256),
    ("identity descriptor hash", binding.identityOsDescriptorSha256),
    ("expected identity hash", binding.expectedIdentitySha256),
    ("expected device-UID hash", binding.expectedDeviceUidSha256)]

def requireHash (field : String × String) : Except String Unit :=
  if !isLowerHex field.2 64 then .error s!"recorder custody {field.1} must be a lowercase SHA-256" else .ok ()

/-- What a binding says it is for. -/
def RecorderCustodyAuthorizationBinding.inputs (binding : RecorderCustodyAuthorizationBinding) :
    CustodyBindingInputs where
  protectedRevision := binding.protectedRevision
  referenceRigId := binding.referenceRigId
  artifactId := binding.artifactId
  modelId := binding.modelId
  contractHash := binding.contractHash
  lockfileHash := binding.lockfileHash
  telemetrySourcePortSha256 := binding.telemetrySourcePortSha256
  telemetryOsDescriptorSha256 := binding.telemetryOsDescriptorSha256
  identitySourcePortSha256 := binding.identitySourcePortSha256
  identityOsDescriptorSha256 := binding.identityOsDescriptorSha256
  recorderAdapterProbeSchemaVersion := binding.recorderAdapterProbeSchemaVersion
  recorderAdapterSchemaVersion := binding.recorderAdapterSchemaVersion

/-- `MAX_AUTHORIZATION_LIFETIME_MS` -/
def maxAuthorizationLifetimeMs : UInt64 := 8 * 60 * 60 * 1000

/-- `validate_authorization_binding` -/
def validateAuthorizationBinding (authorization : RecorderCustodyAuthorization) (expected : CustodyBindingInputs)
    (now : UInt64) : Except String Unit :=
  let binding := authorization.binding
  if authorization.schemaVersion ≠ "forge-recorder-custody-authorization/1.0.0" ∨ authorization.algorithm ≠ "Ed25519" ∨
      !isSafeToken authorization.keyId 128 ∨ !isLowerHex authorization.signatureHex 128 then
    .error "recorder custody authorization envelope is invalid"
  else if !isSafeToken binding.authorizationId 128 ∨ binding.purpose ≠ "controlled-lab-recorder-custody" ∨
      !isLowerHex binding.protectedRevision 40 ∨ binding.evidencePackSchemaVersion ≠ "forge.external-acceptance.v1" ∨
      binding.referenceRigId ≠ "ref_quad_kakute-h7-source-one-5in" ∨ !isSafeToken binding.artifactId 128 ∨
      !isSafeToken binding.modelId 128 then
    .error "recorder custody authorization identity or scope is invalid"
  else do
    binding.hashes.forM requireHash
    if binding.telemetrySourcePortSha256 = binding.identitySourcePortSha256 then
      .error "recorder custody telemetry and identity ports must be distinct"
    else if binding.recorderAdapterProbeSchemaVersion ≠ "forge-recorder-adapter-probe/1.0.0" ∨
        binding.recorderAdapterSchemaVersion ≠ "forge-betaflight-msp-adapter/1.0.0" then
      .error "recorder custody authorization requires the exact D55 contracts"
    else if binding.notBeforeUnixMs < binding.issuedAtUnixMs ∨ binding.expiresAtUnixMs ≤ binding.notBeforeUnixMs ∨
        maxAuthorizationLifetimeMs < binding.expiresAtUnixMs - binding.notBeforeUnixMs ∨
        now < binding.notBeforeUnixMs ∨ binding.expiresAtUnixMs < now then
      .error "recorder custody authorization is outside its bounded validity window"
    else if binding.captureConsentConfirmed = false ∨ binding.noAutoArm = false ∨
        binding.cryptographicDeviceAttestation ∨ binding.recordedDeviceAttested ∨ binding.fieldSessionVerified ∨
        binding.sharingAuthorized ∨ binding.trainingReuseAuthorized then
      .error "recorder custody authorization authority flags have drifted"
    else if binding.inputs ≠ expected then
      .error "recorder custody authorization does not match the protected capture binding"
    else .ok ()

/-- A key at a time. -/
def validateKeyAt (key : RecorderCustodyTrustKey) (now : UInt64) : Except String Unit :=
  if now < key.notBeforeUnixMs ∨ key.notAfterUnixMs < now ∨ ∃ revoked ∈ key.revokedAtUnixMs, revoked ≤ now then
    .error "custody authorization trust key is not currently valid"
  else .ok ()

/-- The authority of the deployment at a time (`CustodyDeploymentAuthority`), with what is at its paths. -/
structure CustodyDeploymentAuthority where
  trustBundlePath : String
  trustBundleSha256 : String
  protectedRevision : String
  nowUnixMs : UInt64

/-- `load_and_verify_authorization`, with what is at the two paths. -/
def loadAndVerifyAuthorization (host : CustodyHost) (authority : CustodyDeploymentAuthority)
    (authorizationPath : String) (trustBundleFile authorizationFile : DiskFile) (expected : CustodyBindingInputs) :
    Except String VerifiedCustodyAuthorization :=
  if !isLowerHex authority.trustBundleSha256 64 then
    .error "deployment custody trust-bundle pin must be a lowercase SHA-256"
  else do
    let trustBundleBytes ← readRegularBounded authority.trustBundlePath (64 * 1024) "custody trust bundle" trustBundleFile
    if host.sha256 trustBundleBytes ≠ authority.trustBundleSha256 then
      .error "custody trust-bundle bytes do not match the deployment SHA-256 pin"
    else do
      let trustBundle ← host.parseTrustBundle trustBundleBytes
      validateTrustBundle trustBundle
      let authorizationBytes ← readRegularBounded authorizationPath (128 * 1024) "custody authorization" authorizationFile
      let authorization ← host.parseAuthorization authorizationBytes
      validateAuthorizationBinding authorization expected authority.nowUnixMs
      match trustBundle.keys.find? fun key => key.keyId = authorization.keyId with
      | none => .error "custody authorization references an unknown trust key"
      | some key => do
        validateKeyAt key authority.nowUnixMs
        host.verifySignature key authorization
        .ok {
          trustBundle
          trustBundleSha256 := host.sha256 trustBundleBytes
          authorizationSha256 := host.sha256 authorizationBytes
          authorization }

/-! ### Proof files -/

structure RecorderCustodyProof where
  schemaVersion : String
  trustBundleSchemaVersion : String
  authorizationSchemaVersion : String
  recorderAdapterProbeSchemaVersion : String
  recorderAdapterSchemaVersion : String
  authorizationId : String
  authorizationSha256 : String
  trustBundleId : String
  trustBundleSha256 : String
  acceptanceAuthorityKeyId : String
  protectedRevision : String
  purpose : String
  evidencePackSchemaVersion : String
  evidencePackSha256 : String
  requiredSignoffSetSha256 : String
  referenceRigId : String
  artifactId : String
  modelId : String
  contractHash : String
  lockfileHash : String
  telemetrySourcePortSha256 : String
  telemetryStartOsDescriptorSha256 : String
  telemetryStopOsDescriptorSha256 : String
  identitySourcePortSha256 : String
  identityStartOsDescriptorSha256 : String
  identityStopOsDescriptorSha256 : String
  expectedIdentitySha256 : String
  preIdentitySha256 : String
  postIdentitySha256 : String
  expectedDeviceUidSha256 : String
  preDeviceUidSha256 : String
  postDeviceUidSha256 : String
  preObservedAtUnixMs : UnixMs
  postObservedAtUnixMs : UnixMs
  startPreIdentityResponseSha256 : String
  startPostIdentityResponseSha256 : String
  startTranscriptSha256 : String
  stopPreIdentityResponseSha256 : String
  stopPostIdentityResponseSha256 : String
  stopTranscriptSha256 : String
  recorderReceiptSha256 : String
  captureStartedAtUnixMs : UnixMs
  captureStoppedAtUnixMs : UnixMs
  proofCreatedAtUnixMs : UnixMs
  acceptanceAuthoritySignatureVerified : Bool
  identityContinuityVerified : Bool
  captureConsentConfirmed : Bool
  noAutoArm : Bool
  cryptographicDeviceAttestation : Bool
  recordedDeviceAttested : Bool
  deviceIdentityVerified : Bool
  fieldSessionVerified : Bool
  sharingAuthorized : Bool
  trainingReuseAuthorized : Bool
deriving DecidableEq

/-- A file at a path where proofs are written: a proof, what a failed write left, or something else. -/
inductive ProofFile where
  | proof (proof : RecorderCustodyProof)
  | torn
  | other
deriving DecidableEq

/-- The files at such paths, by canonical path. -/
abbrev ProofFiles : Type := List (String × ProofFile)

/-- What the operating system answers while a proof is written: the canonical parent of the target, unless that is no
directory, the canonical archive, and what fails. -/
structure ProofIo where
  parent : Except String String
  archive : Except String String
  openFault : Option String
  writeFault : Option String
  removeFault : Option String

/-- Where the file name of a path is put under a canonical directory. -/
def joinFileName (parent path : String) : Except String String :=
  match (components path).getLast? with
  | none => .error "custody proof path requires a file name"
  | some name => .ok (parent ++ "/" ++ String.ofList name)

/-- The checks of `write_custody_proof` before it creates the file: the canonical target. -/
def proofTarget (io : ProofIo) (proofPath : String) (proof : RecorderCustodyProof) : Except String String :=
  if !isAbsolute proofPath then .error "custody proof path must be absolute"
  else do
    let parent ← io.parent
    let archive ← io.archive
    let target ← joinFileName parent proofPath
    if startsWith target archive then .error "custody proof must remain outside the exact five-file archive"
    else if proof.schemaVersion ≠ "forge-recorder-custody-proof/1.0.0" ∨
        proof.trustBundleSchemaVersion ≠ "forge-recorder-custody-trust-bundle/1.0.0" ∨
        proof.authorizationSchemaVersion ≠ "forge-recorder-custody-authorization/1.0.0" then
      .error "custody proof schema versions have drifted"
    else .ok target

/-- Creating, writing and syncing the file; after a failed write the file is removed. -/
def createProofFile (io : ProofIo) (target : String) (proof : RecorderCustodyProof) : Call ProofFiles String Unit :=
  fun files =>
    if (Assoc.get target files).isSome then
      (.error s!"create custody proof '{target}': File exists (os error 17)", files)
    else
      match io.openFault, io.writeFault, io.removeFault with
      | some message, _, _ => (.error s!"create custody proof '{target}': {message}", files)
      | none, none, _ => (.ok (), Assoc.insert target (.proof proof) files)
      | none, some message, none => (.error s!"write custody proof '{target}': {message}", files)
      | none, some message, some cleanup =>
        (.error (s!"write custody proof '{target}': {message}; also failed to remove partial custody proof " ++
          s!"'{target}': {cleanup}"), Assoc.insert target .torn files)

/-- `write_custody_proof` -/
def writeCustodyProof (io : ProofIo) (proofPath : String) (proof : RecorderCustodyProof) :
    Call ProofFiles String Unit := do
  let target ← Call.ofExcept (proofTarget io proofPath proof)
  createProofFile io target proof

end Forge.Desktop
