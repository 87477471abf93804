import Forge.Data.Except
import Forge.Data.Text
import Forge.Json.Pretty

/-!
# The recorder of the desktop

A recorder request, the manifest that is written for it, and what one telemetry frame does to the
files of an archive (`validate_recorder_request`, `create_recorder_archive`,
`append_recorder_frame`). Files are modelled by their texts, and file operations succeed: one that
fails makes the recording fail. Reading a frame and hashing belong to libraries (`Host`).
-/

namespace Forge.Desktop

/-! ### Limits -/

/-- `MAX_RECORDER_FRAME_BYTES` -/
def maxRecorderFrameBytes : ℕ := 64 * 1024

/-- `MAX_RECORDER_ARCHIVE_BYTES` -/
def maxRecorderArchiveBytes : ℕ := 512 * 1024 * 1024

/-- `RECORDER_ARCHIVE_METADATA_RESERVE_BYTES` -/
def recorderArchiveMetadataReserveBytes : ℕ := 1024 * 1024

/-- `MAX_RECORDER_FRAMES` -/
def maxRecorderFrames : ℕ := 1000000

/-- `BETAFLIGHT_SERIAL_BAUD` -/
def betaflightSerialBaud : UInt32 := 115200

/-- `D12_RIGS` -/
def d12Rigs : List String := ["ref_quad_kakute-h7-source-one-5in", "ref_rover_waveshare-ugv-rover-pt-pi5-ros2"]

/-! ### Requests -/

structure RecorderRequest where
  artifactId : String
  outputDir : String
  sampleRateHz : UInt32
  referenceRigId : Option String
  physicalConfirmation : String
  port : String
  baud : UInt32
  contractHash : String
  lockfileHash : String
  environment : Json
  seed : UInt64

/-- `is_sha256_hex` -/
def isSha256Hex (value : String) : Bool :=
  utf8Length value.toList = 64 && value.toList.all fun c => ('0' ≤ c && c ≤ '9') || ('a' ≤ c && c ≤ 'f')

/-- A letter or digit of ASCII, or one of `-`, `_` and `.`. -/
def isTokenChar (c : Char) : Bool :=
  ('0' ≤ c && c ≤ '9') || ('a' ≤ c && c ≤ 'z') || ('A' ≤ c && c ≤ 'Z') || c = '-' || c = '_' || c = '.'

def isBlank (s : String) : Bool := s.toList.all Text.isWhiteSpace

/-- `Path::is_absolute`, on POSIX. -/
def isAbsolute (path : String) : Bool := path.toList.head? = some '/'

mutual

/-- `bounded_json_nodes`, with the number of nodes that were counted. -/
def boundedJsonNodes (value : Json) (depth nodes : ℕ) : Except String ℕ :=
  if 32 < depth then .error "recorder JSON exceeds the maximum depth of 32"
  else if 2048 < nodes + 1 then .error "recorder JSON exceeds the maximum 2048 nodes per frame"
  else
    match value with
    | .array values => boundedList values (depth + 1) (nodes + 1)
    | .object values => boundedMembers values (depth + 1) (nodes + 1)
    | _ => .ok (nodes + 1)

/-- The loop over the elements of an array. -/
def boundedList (values : List Json) (depth nodes : ℕ) : Except String ℕ :=
  match values with
  | [] => .ok nodes
  | child :: rest => do boundedList rest depth (← boundedJsonNodes child depth nodes)

/-- The loop over the members of an object. -/
def boundedMembers (values : List (String × Json)) (depth nodes : ℕ) : Except String ℕ :=
  match values with
  | [] => .ok nodes
  | (_, child) :: rest => do boundedMembers rest depth (← boundedJsonNodes child depth nodes)

end

/-- `require_d12_rig` -/
def requireD12Rig (referenceRigId : Option String) : Except String Unit :=
  match referenceRigId with
  | none => .error "referenceRigId is required for native D12 lab hardware access"
  | some rigId =>
    if rigId ∈ d12Rigs then .ok () else .error "native hardware access is limited to D12 reference rigs in lab mode"

def isObject : Json → Bool
  | .object _ => true
  | _ => false

/-- `validate_recorder_request`: the rig of the recording. -/
def validateRecorderRequest (spell : Spelling) (request : RecorderRequest) (portIsEnumerated : Bool) :
    Except String String :=
  if request.physicalConfirmation ≠ "I consent to record this telemetry log" then
    .error "telemetry consent phrase mismatch"
  else if request.artifactId = "" ∨ 128 < utf8Length request.artifactId.toList ∨
      ¬request.artifactId.toList.all isTokenChar then
    .error "artifactId must be 1..128 ASCII letters, digits, '.', '_', or '-'"
  else if isBlank request.outputDir ∨ 4096 < utf8Length request.outputDir.toList then
    .error "outputDir must be a non-empty absolute path of at most 4096 UTF-8 bytes"
  else if !isAbsolute request.outputDir then .error "outputDir must be absolute for a new recorder archive"
  else if request.sampleRateHz < 1 ∨ 1000 < request.sampleRateHz then
    .error "sampleRateHz must be an integer from 1 through 1000"
  else if isBlank request.port ∨ request.baud ≠ betaflightSerialBaud then
    .error s!"recorder serial capture requires a non-empty port and exactly {betaflightSerialBaud} baud"
  else if !portIsEnumerated then .error "recorder serial port must be reported by the operating system"
  else if !(isSha256Hex request.contractHash && isSha256Hex request.lockfileHash) then
    .error "contractHash and lockfileHash must be lowercase SHA-256 values"
  else if !isObject request.environment then .error "environment must be an object bound into the replay header"
  else if maxRecorderFrameBytes < utf8Length (request.environment.toText spell) then
    .error s!"recorder environment exceeds {maxRecorderFrameBytes} bytes"
  else do
    let _ ← boundedJsonNodes request.environment 0 0
    match request.referenceRigId with
    | none => .error "referenceRigId is required for native D12 lab hardware access"
    | some rigId => do
      requireD12Rig (some rigId)
      return rigId

/-! ### Records -/

/-- A telemetry frame as it is received. -/
structure RecorderTelemetryFrame where
  schemaVersion : String
  artifactId : String
  sequence : UInt64
  t : Float
  state : Json

structure RecorderIndexEntry where
  sequence : UInt64
  t : Float
  byteOffset : ℕ

/-- The libraries that the recorder uses. -/
structure Host where
  /-- How `serde_json` spells doubles. -/
  spell : Spelling
  /-- The digest of a text, in hexadecimal. -/
  sha256Hex : List Char → String
  /-- `serde_json::from_slice` -/
  fromSlice : List UInt8 → Except String RecorderTelemetryFrame

/-- A time in milliseconds (`u128`). -/
abbrev UnixMs := Fin (2 ^ 128)

instance (priority := 2000) neZero_unixMs : NeZero (2 ^ 128) := ⟨by decide⟩

structure RecorderArchiveManifest where
  artifactId : String
  referenceRigId : String
  sampleRateHz : UInt32
  startedAtUnixMs : UnixMs
  contractHash : String
  lockfileHash : String
  environment : Json
  seed : UInt64
  sourcePortSha256 : String
  sourceBaud : UInt32

structure RecorderStopReceipt where
  artifactId : String
  referenceRigId : String
  contractHash : String
  lockfileHash : String
  startedAtUnixMs : UnixMs
  stoppedAtUnixMs : UnixMs
  frameCount : ℕ
  durationS : Float
  frameFileSha256 : String
  indexFileSha256 : String
  replayFileSha256 : String
  sourcePortSha256 : String

/-! ### How records are written -/

/-- A record with its fields, in the order in which they are declared. -/
def recordTree (fields : List (String × Tree (List Char) (List Char))) : Tree (List Char) (List Char) :=
  .object (fields.map fun f => (stringToken f.1, f.2))

def text (s : String) : Tree (List Char) (List Char) := .leaf (stringToken s)

def natural (n : ℕ) : Tree (List Char) (List Char) := .leaf (Nat.toDigits 10 n)

def flag (b : Bool) : Tree (List Char) (List Char) := .leaf (if b then "true".toList else "false".toList)

/-- A double that may not be finite. -/
def double (spell : Spelling) (x : Float) : Tree (List Char) (List Char) :=
  .leaf (if x.isFinite then spell x else "null".toList)

def RecorderIndexEntry.tree (spell : Spelling) (e : RecorderIndexEntry) : Tree (List Char) (List Char) :=
  recordTree [("sequence", natural e.sequence.toNat), ("t", double spell e.t), ("byteOffset", natural e.byteOffset)]

/-- A `ReplayFrame`. -/
def replayFrameTree (spell : Spelling) (t : Float) (state : Json) : Tree (List Char) (List Char) :=
  recordTree [("t", double spell t), ("state", state.tokens spell)]

def RecorderArchiveManifest.fields (spell : Spelling) (m : RecorderArchiveManifest) :
    List (String × Tree (List Char) (List Char)) :=
  [("schemaVersion", text "forge-recorder-archive/1.0.0"), ("replaySchemaVersion", text "1.0.0"),
    ("frameSchemaVersion", text "forge-telemetry-frame/1.0.0"),
    ("receiptSchemaVersion", text "forge-recorder-receipt/1.0.0"), ("artifactId", text m.artifactId),
    ("referenceRigId", text m.referenceRigId), ("sampleRateHz", natural m.sampleRateHz.toNat),
    ("startedAtUnixMs", natural m.startedAtUnixMs), ("contractHash", text m.contractHash),
    ("lockfileHash", text m.lockfileHash), ("environment", m.environment.tokens spell), ("seed", natural m.seed.toNat),
    ("sourceKind", text "serial-jsonl"), ("sourcePortSha256", text m.sourcePortSha256),
    ("sourceBaud", natural m.sourceBaud.toNat), ("captureMaturity", text "local-serial-integration"),
    ("recordedDeviceAttested", flag false), ("frameFile", text "telemetry.frames.jsonl"),
    ("indexFile", text "telemetry.index.jsonl"), ("replayFile", text "telemetry.replay.json"),
    ("receiptFile", text "forge-recorder-receipt.json"), ("captureConsentConfirmed", flag true), ("userOwned", flag true),
    ("sharingAuthorized", flag false), ("trainingReuseAuthorized", flag false), ("noAutoArm", flag true)]

def RecorderArchiveManifest.tree (spell : Spelling) (m : RecorderArchiveManifest) : Tree (List Char) (List Char) :=
  recordTree (m.fields spell)

def RecorderStopReceipt.fields (spell : Spelling) (r : RecorderStopReceipt) :
    List (String × Tree (List Char) (List Char)) :=
  [("schemaVersion", text "forge-recorder-receipt/1.0.0"),
    ("archiveSchemaVersion", text "forge-recorder-archive/1.0.0"), ("replaySchemaVersion", text "1.0.0"),
    ("frameSchemaVersion", text "forge-telemetry-frame/1.0.0"), ("artifactId", text r.artifactId),
    ("referenceRigId", text r.referenceRigId), ("contractHash", text r.contractHash),
    ("lockfileHash", text r.lockfileHash), ("startedAtUnixMs", natural r.startedAtUnixMs),
    ("stoppedAtUnixMs", natural r.stoppedAtUnixMs), ("frameCount", natural r.frameCount),
    ("durationS", double spell r.durationS), ("frameFileSha256", text r.frameFileSha256),
    ("indexFileSha256", text r.indexFileSha256), ("replayFileSha256", text r.replayFileSha256),
    ("sourcePortSha256", text r.sourcePortSha256), ("captureComplete", flag true),
    ("captureMaturity", text "local-serial-integration"), ("captureConsentConfirmed", flag true),
    ("recordedDeviceAttested", flag false), ("userOwned", flag true), ("sharingAuthorized", flag false),
    ("trainingReuseAuthorized", flag false), ("noAutoArm", flag true)]

def RecorderStopReceipt.tree (spell : Spelling) (r : RecorderStopReceipt) : Tree (List Char) (List Char) :=
  recordTree (r.fields spell)

/-- The file that `create_new_json` writes. -/
def newJson (value : Tree (List Char) (List Char)) : List Char := value.pretty 0 ++ ['\n']

/-- `create_recorder_archive`: the manifest. -/
def createRecorderArchive (host : Host) (request : RecorderRequest) (rigId : String) (now : UnixMs) :
    RecorderArchiveManifest where
  artifactId := request.artifactId
  referenceRigId := rigId
  sampleRateHz := request.sampleRateHz
  startedAtUnixMs := now
  contractHash := request.contractHash
  lockfileHash := request.lockfileHash
  environment := request.environment
  seed := request.seed
  sourcePortSha256 := host.sha256Hex request.port.toList
  sourceBaud := request.baud

/-! ### Frames -/

structure RecorderProgress where
  frameCount : ℕ := 0
  frameBytes : ℕ := 0
  indexBytes : ℕ := 0
  firstT : Option Float := none
  lastT : Option Float := none
  lastIndex : Option RecorderIndexEntry := none
  lastIndexedSequence : Option UInt64 := none

/-- The progress of a recording, and what its two open files hold. -/
structure Recording where
  progress : RecorderProgress := {}
  frames : List Char := []
  index : List Char := []

/-- A line of a file of records. -/
def recordLine (value : Tree (List Char) (List Char)) : List Char := value.render ++ ['\n']

/-- The result of a checked operation on `u64`. -/
def checked (n : ℕ) (message : String) : Except String ℕ := if 2 ^ 64 ≤ n then .error message else .ok n

/-- The checks of a frame that was read. -/
def checkFrame (request : RecorderRequest) (progress : RecorderProgress) (input : RecorderTelemetryFrame) :
    Except String Unit :=
  if input.schemaVersion ≠ "forge-telemetry-frame/1.0.0" then
    .error s!"unsupported recorder telemetry frame schema {input.schemaVersion}; expected forge-telemetry-frame/1.0.0"
  else if input.artifactId ≠ request.artifactId then
    .error "recorder telemetry frame artifactId does not match the active archive"
  else if input.sequence.toNat ≠ progress.frameCount then
    .error (s!"recorder telemetry sequence must be exact and contiguous: expected {progress.frameCount}, " ++
      s!"observed {input.sequence}")
  else if !input.t.isFinite then .error "recorder telemetry time must be finite"
  else if progress.lastT.any fun last => input.t ≤ last then
    .error "recorder telemetry time must be strictly increasing"
  else if !isObject input.state then .error "recorder telemetry state must be an object"
  else do
    let _ ← boundedJsonNodes input.state 0 0
    return ()

/-- `append_recorder_frame` -/
def appendRecorderFrame (host : Host) (request : RecorderRequest) (indexStride : ℕ) (r : Recording) (line : List UInt8) :
    Except String Recording :=
  if line = [] then .error "recorder telemetry stream contains an empty frame"
  else if maxRecorderFrameBytes < line.length then
    .error s!"recorder telemetry frame exceeds {maxRecorderFrameBytes} bytes"
  else if maxRecorderFrames ≤ r.progress.frameCount then
    .error s!"recorder archive exceeds the {maxRecorderFrames}-frame safety cap"
  else do
    let input ← (host.fromSlice line).mapError fun err => s!"parse recorder telemetry frame: {err}"
    checkFrame request r.progress input
    let bytes := recordLine (replayFrameTree host.spell input.t input.state)
    let nextSize ← checked (r.progress.frameBytes + utf8Length bytes) "recorder archive byte count overflow"
    let entry : RecorderIndexEntry := { sequence := input.sequence, t := input.t, byteOffset := r.progress.frameBytes }
    let indexed : Bool := input.sequence.toNat % indexStride = 0
    let entryBytes := if indexed then recordLine (entry.tree host.spell) else []
    let nextIndexSize ← checked (r.progress.indexBytes + utf8Length entryBytes) "recorder index byte count overflow"
    let boundedArchiveSize ← checked (nextSize * 2 + nextIndexSize + recorderArchiveMetadataReserveBytes)
      "recorder archive byte count overflow"
    if maxRecorderArchiveBytes < boundedArchiveSize then
      .error s!"complete recorder archive exceeds the {maxRecorderArchiveBytes}-byte safety cap"
    else
      return {
        progress := {
          frameCount := r.progress.frameCount + 1
          frameBytes := nextSize
          indexBytes := nextIndexSize
          firstT := some (r.progress.firstT.getD input.t)
          lastT := some input.t
          lastIndex := some entry
          lastIndexedSequence := if indexed then some input.sequence else r.progress.lastIndexedSequence }
        frames := r.frames ++ bytes
        index := r.index ++ entryBytes }

end Forge.Desktop
