import Forge.Desktop.Recorder
import Forge.Json.Received

/-!
# Recorder requests of the studio

Before the studio asks the desktop to record, it checks the request itself
(`validateRecorderStartRequest`, `validateRecorderCustodyStartRequest`) and sends what the check
returns as JSON. The desktop reads the JSON and checks it again (`validate_recorder_request`,
`validate_custody_start_request`), here on POSIX.

The strings of a request are those that UTF-8 can encode.
-/

namespace Forge.Desktop

/-! ### The desktop -/

structure RecorderCustodyStartRequest where
  recorder : RecorderRequest
  modelId : String
  identityPort : String
  identityBaud : UInt32
  identityPhysicalConfirmation : String
  authorizationPath : String
  custodyProofPath : String

/-- `RECORDER_ADAPTER_PROBE_CONFIRMATION` -/
def recorderAdapterProbeConfirmation : String :=
  "I confirm propellers are removed and authorize a read-only adapter identity probe"

/-- `valid_custody_token` -/
def validCustodyToken (value : String) : Bool :=
  value ≠ "" && utf8Length value.toList ≤ 128 && value.toList.all isTokenChar

/-- The components of an absolute path, as `Path::components` yields them after the root: separators that repeat
or trail and single dots are skipped. -/
def components (path : String) : List (List Char) :=
  (path.toList.splitOn '/').filter fun c => c ≠ [] ∧ c ≠ ['.']

/-- `Path::starts_with`, for two absolute paths. -/
def startsWith (path base : String) : Bool := (components base).isPrefixOf (components path)

/-- The check of one of the two paths of a custody request. -/
def validateCustodyPath (label path : String) : Except String Unit :=
  if isBlank path ∨ 4096 < utf8Length path.toList ∨ !isAbsolute path then
    .error s!"recorder custody {label} must be an absolute path of at most 4096 bytes"
  else .ok ()

/-- `validate_custody_start_request` -/
def validateCustodyStartRequest (spell : Spelling) (request : RecorderCustodyStartRequest) : Except String Unit := do
  let _ ← validateRecorderRequest spell request.recorder true
  if request.recorder.referenceRigId ≠ d12Rigs.head? then
    .error "recorder custody v1 is limited to the D12 reference quad"
  else if !validCustodyToken request.modelId then
    .error "recorder custody modelId must be a bounded safe token"
  else if request.identityPhysicalConfirmation ≠ recorderAdapterProbeConfirmation then
    .error "recorder custody start requires the exact props-off confirmation"
  else if isBlank request.identityPort ∨ 4096 < utf8Length request.identityPort.toList ∨
      request.identityBaud ≠ betaflightSerialBaud then
    .error s!"recorder custody identity probing requires a bounded port at {betaflightSerialBaud} baud"
  else if request.identityPort = request.recorder.port then
    .error "recorder custody requires distinct telemetry and identity ports"
  else do
    validateCustodyPath "authorizationPath" request.authorizationPath
    validateCustodyPath "custodyProofPath" request.custodyProofPath
    if startsWith request.custodyProofPath request.recorder.outputDir then
      .error "recorder custody proof must remain outside the five-file archive"
    else .ok ()

end Forge.Desktop

namespace Forge.Studio

/-! ### The studio -/

/-- The characters that `trim` removes. -/
def isTrimmed (c : Char) : Bool :=
  let n := c.toNat
  (9 ≤ n && n ≤ 13) || n = 0x20 || n = 0xA0 || n = 0x1680 || (0x2000 ≤ n && n ≤ 0x200A) || n = 0x2028 || n = 0x2029 ||
    n = 0x202F || n = 0x205F || n = 0x3000 || n = 0xFEFF

/-- `value.trim()` -/
def trim (value : String) : String :=
  String.ofList ((value.toList.dropWhile isTrimmed).reverse.dropWhile isTrimmed).reverse

/-- The integer of a number, if `Number.isSafeInteger` holds of it. -/
def safeInteger (x : Float) : Option ℤ :=
  if x.isFinite = true ∧ (floatValue x).den = 1 ∧ |(floatValue x).num| ≤ 2 ^ 53 - 1 then some (floatValue x).num
  else none

structure RecorderStartRequest where
  artifactId : String
  outputDir : String
  sampleRateHz : Float
  referenceRigId : String
  physicalConfirmation : String
  port : String
  baud : Float
  contractHash : String
  lockfileHash : String
  environment : Tree String JsScalar
  seed : Float
  /-- An object of JavaScript holds each name once. -/
  names : environment.Everywhere Encoder.DistinctNames

structure RecorderCustodyStartRequest where
  recorder : RecorderStartRequest
  modelId : String
  identityPort : String
  identityBaud : Float
  identityPhysicalConfirmation : String
  authorizationPath : String
  custodyProofPath : String

def isSeparator (c : Char) : Bool := c = '\\' || c = '/'

/-- `/^[A-Za-z]:[\\/]/` -/
def isDrivePath : List Char → Bool
  | c :: ':' :: s :: _ => c.isAlpha && isSeparator s
  | _ => false

/-- `/^\\\\[^\\/]+[\\/][^\\/]+/` -/
def isUncPath : List Char → Bool
  | '\\' :: '\\' :: rest =>
    match rest.takeWhile fun c => !isSeparator c, rest.dropWhile fun c => !isSeparator c with
    | _ :: _, _ :: c :: _ => !isSeparator c
    | _, _ => false
  | _ => false

def validAbsolutePath (value : String) : Bool :=
  value ≠ "" && utf8Length value.toList ≤ 4096 &&
    (value.toList.head? = some '/' || isDrivePath value.toList || isUncPath value.toList)

/-- `/^[A-Za-z0-9._-]{1,128}$/` -/
def isToken (value : String) : Bool :=
  1 ≤ value.toList.length && value.toList.length ≤ 128 && value.toList.all Desktop.isTokenChar

/-- `/^[0-9a-f]{64}$/` -/
def isSha256 (value : String) : Bool :=
  value.toList.length = 64 && value.toList.all fun c => ('0' ≤ c && c ≤ '9') || ('a' ≤ c && c ≤ 'f')

mutual

/-- `visit`, with the number of nodes that were counted. -/
def visit (item : Tree String JsScalar) (depth nodes : ℕ) : Except String ℕ :=
  if 32 < depth ∨ 2048 < nodes + 1 then .error "recorder environment exceeds the depth or node bound"
  else
    match item with
    | .leaf (.number x) =>
      if x.isFinite then .ok (nodes + 1) else .error "recorder environment numbers must be finite"
    | .leaf .other => .error "recorder environment contains an unsupported JSON value"
    | .leaf _ => .ok (nodes + 1)
    | .array items => visitList items (depth + 1) (nodes + 1)
    | .object values => visitMembers values (depth + 1) (nodes + 1)

/-- The loop over the elements of an array. -/
def visitList (items : List (Tree String JsScalar)) (depth nodes : ℕ) : Except String ℕ :=
  match items with
  | [] => .ok nodes
  | child :: rest => do visitList rest depth (← visit child depth nodes)

/-- The loop over the members of an object. -/
def visitMembers (values : List (String × Tree String JsScalar)) (depth nodes : ℕ) : Except String ℕ :=
  match values with
  | [] => .ok nodes
  | (_, child) :: rest => do visitMembers rest depth (← visit child depth nodes)

end

def isRecord : Tree String JsScalar → Bool
  | .object _ => true
  | _ => false

def validateBoundedEnvironment (value : Tree String JsScalar) : Except String Unit :=
  if !isRecord value then .error "recorder environment must be an object"
  else do
    let _ ← visit value 0 0
    if 64 * 1024 < utf8Length (stringify value).render then .error "recorder environment exceeds 65536 UTF-8 bytes"
    else .ok ()

def validateRecorderStartRequest (request : RecorderStartRequest) : Except String RecorderStartRequest :=
  let artifactId := trim request.artifactId
  let outputDir := trim request.outputDir
  let port := trim request.port
  if !isToken artifactId then .error "recorder artifact ID must use 1 through 128 safe ASCII characters"
  else if !validAbsolutePath outputDir then
    .error "recorder output directory must be an absolute path of at most 4096 UTF-8 bytes"
  else if !(safeInteger request.sampleRateHz).any fun n => 1 ≤ n && n ≤ 1000 then
    .error "recorder sample rate must be an integer from 1 through 1000 Hz"
  else if request.referenceRigId ∉ Desktop.d12Rigs then
    .error "recorder reference rig must be one frozen D12 rig"
  else if request.physicalConfirmation ≠ "I consent to record this telemetry log" then
    .error "recorder capture consent phrase mismatch"
  else if port = "" ∨ 4096 < utf8Length port.toList ∨ safeInteger request.baud ≠ some 115200 then
    .error "recorder capture requires one bounded serial port at 115200 baud"
  else if !(isSha256 request.contractHash && isSha256 request.lockfileHash) then
    .error "recorder contract and lockfile hashes must be lowercase SHA-256 values"
  else do
    validateBoundedEnvironment request.environment
    if !(safeInteger request.seed).any fun n => 0 ≤ n then
      .error "recorder seed must be a non-negative safe integer"
    else .ok { request with artifactId, outputDir, port }

def validateRecorderCustodyStartRequest (request : RecorderCustodyStartRequest) :
    Except String RecorderCustodyStartRequest := do
  let recorder ← validateRecorderStartRequest request.recorder
  let modelId := trim request.modelId
  let identityPort := trim request.identityPort
  let authorizationPath := trim request.authorizationPath
  let custodyProofPath := trim request.custodyProofPath
  if some recorder.referenceRigId ≠ Desktop.d12Rigs.head? ∨ !isToken modelId ∨ identityPort = "" ∨
      4096 < utf8Length identityPort.toList ∨ identityPort = recorder.port ∨
      safeInteger request.identityBaud ≠ some 115200 ∨
      request.identityPhysicalConfirmation ≠ Desktop.recorderAdapterProbeConfirmation ∨
      !validAbsolutePath authorizationPath ∨ !validAbsolutePath custodyProofPath ∨
      custodyProofPath = recorder.outputDir ∨ (recorder.outputDir.toList ++ ['/']).isPrefixOf custodyProofPath.toList ∨
      (recorder.outputDir.toList ++ ['\\']).isPrefixOf custodyProofPath.toList then
    .error "Desktop recorder custody start request is outside the signed D12 contract"
  else .ok { request with recorder, modelId, identityPort, authorizationPath, custodyProofPath }

/-! ### What the desktop receives -/

/-- A number that is read as an unsigned integer of `bits` bits; those of an accepted request are safe integers. -/
def unsigned (bits : ℕ) (x : Float) : Option ℕ :=
  (safeInteger x).bind fun n => if 0 ≤ n ∧ n < 2 ^ bits then some n.toNat else none

def RecorderStartRequest.received (read : NumberReader) (request : RecorderStartRequest) :
    Option Desktop.RecorderRequest := do
  let sampleRateHz ← unsigned 32 request.sampleRateHz
  let baud ← unsigned 32 request.baud
  let environment ← Forge.received read request.environment
  let seed ← unsigned 64 request.seed
  some {
    artifactId := request.artifactId
    outputDir := request.outputDir
    sampleRateHz := UInt32.ofNat sampleRateHz
    referenceRigId := some request.referenceRigId
    physicalConfirmation := request.physicalConfirmation
    port := request.port
    baud := UInt32.ofNat baud
    contractHash := request.contractHash
    lockfileHash := request.lockfileHash
    environment
    seed := UInt64.ofNat seed }

def RecorderCustodyStartRequest.received (read : NumberReader) (request : RecorderCustodyStartRequest) :
    Option Desktop.RecorderCustodyStartRequest := do
  let recorder ← request.recorder.received read
  let identityBaud ← unsigned 32 request.identityBaud
  some {
    recorder
    modelId := request.modelId
    identityPort := request.identityPort
    identityBaud := UInt32.ofNat identityBaud
    identityPhysicalConfirmation := request.identityPhysicalConfirmation
    authorizationPath := request.authorizationPath
    custodyProofPath := request.custodyProofPath }

end Forge.Studio
