import Forge.Data.Lines
import Forge.Data.Table
import Forge.Desktop.Recorder

/-!
# Verifying a recorder archive

The validator reads the five files of a recorder archive in one pass (`verify_archive`): the frames and the index in
lock step, and the replay by its digest alone, which it compares with that of the replay it puts together from the
frames.

A directory is modelled by its entries, which stay as they are while it is read. Reading records and hashing belong to
libraries (`Libraries`); what a hasher was given is modelled by the bytes.
-/

namespace Forge.Validate.Recorder

open Desktop Lines

/-! ### Records -/

structure ReplayFrame where
  t : Float
  state : Json

structure RecorderArchiveManifest where
  schemaVersion : String
  replaySchemaVersion : String
  frameSchemaVersion : String
  receiptSchemaVersion : String
  artifactId : String
  referenceRigId : String
  sampleRateHz : UInt32
  startedAtUnixMs : UnixMs
  contractHash : String
  lockfileHash : String
  environment : Json
  seed : UInt64
  sourceKind : String
  sourcePortSha256 : String
  sourceBaud : UInt32
  captureMaturity : String
  recordedDeviceAttested : Bool
  frameFile : String
  indexFile : String
  replayFile : String
  receiptFile : String
  captureConsentConfirmed : Bool
  userOwned : Bool
  sharingAuthorized : Bool
  trainingReuseAuthorized : Bool
  noAutoArm : Bool

structure RecorderStopReceipt where
  schemaVersion : String
  archiveSchemaVersion : String
  replaySchemaVersion : String
  frameSchemaVersion : String
  artifactId : String
  referenceRigId : String
  contractHash : String
  lockfileHash : String
  startedAtUnixMs : UnixMs
  stoppedAtUnixMs : UnixMs
  frameCount : ℕ
  durationS : Float
  frameFileSha256 : String
  indexFileSha256 : String
  replayFileSha256 : String
  sourcePortSha256 : String
  captureComplete : Bool
  captureMaturity : String
  captureConsentConfirmed : Bool
  recordedDeviceAttested : Bool
  userOwned : Bool
  sharingAuthorized : Bool
  trainingReuseAuthorized : Bool
  noAutoArm : Bool

/-- The proof of a verification. -/
structure RecorderVerificationReport where
  schemaVersion : String
  archiveSchemaVersion : String
  replaySchemaVersion : String
  receiptSchemaVersion : String
  artifactId : String
  referenceRigId : String
  contractHash : String
  lockfileHash : String
  sourcePortSha256 : String
  sampleRateHz : UInt32
  startedAtUnixMs : UnixMs
  stoppedAtUnixMs : UnixMs
  frameCount : ℕ
  durationS : Float
  aggregateByteSize : ℕ
  frameFileSha256 : String
  indexFileSha256 : String
  replayFileSha256 : String
  captureMaturity : String
  archiveSemanticsVerified : Bool
  captureComplete : Bool
  captureConsentConfirmed : Bool
  userOwned : Bool
  sharingAuthorized : Bool
  trainingReuseAuthorized : Bool
  recordedDeviceAttested : Bool
  deviceIdentityVerified : Bool
  fieldSessionVerified : Bool
  noAutoArm : Bool

/-! ### How records are written -/

def RecorderArchiveManifest.tree (spell : Spelling) (m : RecorderArchiveManifest) : Tree (List Char) (List Char) :=
  recordTree [("schemaVersion", Desktop.text m.schemaVersion),
    ("replaySchemaVersion", Desktop.text m.replaySchemaVersion),
    ("frameSchemaVersion", Desktop.text m.frameSchemaVersion),
    ("receiptSchemaVersion", Desktop.text m.receiptSchemaVersion), ("artifactId", Desktop.text m.artifactId),
    ("referenceRigId", Desktop.text m.referenceRigId), ("sampleRateHz", natural m.sampleRateHz.toNat),
    ("startedAtUnixMs", natural m.startedAtUnixMs), ("contractHash", Desktop.text m.contractHash),
    ("lockfileHash", Desktop.text m.lockfileHash), ("environment", m.environment.tokens spell),
    ("seed", natural m.seed.toNat), ("sourceKind", Desktop.text m.sourceKind),
    ("sourcePortSha256", Desktop.text m.sourcePortSha256), ("sourceBaud", natural m.sourceBaud.toNat),
    ("captureMaturity", Desktop.text m.captureMaturity), ("recordedDeviceAttested", flag m.recordedDeviceAttested),
    ("frameFile", Desktop.text m.frameFile), ("indexFile", Desktop.text m.indexFile),
    ("replayFile", Desktop.text m.replayFile), ("receiptFile", Desktop.text m.receiptFile),
    ("captureConsentConfirmed", flag m.captureConsentConfirmed), ("userOwned", flag m.userOwned),
    ("sharingAuthorized", flag m.sharingAuthorized), ("trainingReuseAuthorized", flag m.trainingReuseAuthorized),
    ("noAutoArm", flag m.noAutoArm)]

def RecorderStopReceipt.tree (spell : Spelling) (r : RecorderStopReceipt) : Tree (List Char) (List Char) :=
  recordTree [("schemaVersion", Desktop.text r.schemaVersion),
    ("archiveSchemaVersion", Desktop.text r.archiveSchemaVersion),
    ("replaySchemaVersion", Desktop.text r.replaySchemaVersion),
    ("frameSchemaVersion", Desktop.text r.frameSchemaVersion), ("artifactId", Desktop.text r.artifactId),
    ("referenceRigId", Desktop.text r.referenceRigId), ("contractHash", Desktop.text r.contractHash),
    ("lockfileHash", Desktop.text r.lockfileHash), ("startedAtUnixMs", natural r.startedAtUnixMs),
    ("stoppedAtUnixMs", natural r.stoppedAtUnixMs), ("frameCount", natural r.frameCount),
    ("durationS", double spell r.durationS), ("frameFileSha256", Desktop.text r.frameFileSha256),
    ("indexFileSha256", Desktop.text r.indexFileSha256), ("replayFileSha256", Desktop.text r.replayFileSha256),
    ("sourcePortSha256", Desktop.text r.sourcePortSha256), ("captureComplete", flag r.captureComplete),
    ("captureMaturity", Desktop.text r.captureMaturity), ("captureConsentConfirmed", flag r.captureConsentConfirmed),
    ("recordedDeviceAttested", flag r.recordedDeviceAttested), ("userOwned", flag r.userOwned),
    ("sharingAuthorized", flag r.sharingAuthorized), ("trainingReuseAuthorized", flag r.trainingReuseAuthorized),
    ("noAutoArm", flag r.noAutoArm)]

/-- The libraries that the verifier uses: how doubles are spelled, the digest of bytes in hexadecimal, and
`serde_json::from_slice` for each kind of record. -/
structure Libraries where
  spell : Spelling
  sha256Hex : List UInt8 → String
  manifest : List UInt8 → Except String RecorderArchiveManifest
  receipt : List UInt8 → Except String RecorderStopReceipt
  frame : List UInt8 → Except String ReplayFrame
  indexEntry : List UInt8 → Except String RecorderIndexEntry

variable (lib : Libraries)

/-- How frames are read and written. -/
def Libraries.frames : Format ReplayFrame where
  read := lib.frame
  write f := utf8 (replayFrameTree lib.spell f.t f.state).render

/-- How index entries are read and written. -/
def Libraries.index : Format RecorderIndexEntry where
  read := lib.indexEntry
  write e := utf8 (e.tree lib.spell).render

/-! ### Files -/

def recorderManifestFile : String := "forge-recorder-manifest.json"

def recorderFrameFile : String := "telemetry.frames.jsonl"

def recorderIndexFile : String := "telemetry.index.jsonl"

def recorderReplayFile : String := "telemetry.replay.json"

def recorderReceiptFile : String := "forge-recorder-receipt.json"

/-- An entry of a directory. A name that is not UTF-8 is none. -/
structure DirEntry where
  name : Option String
  /-- A real regular file, no symbolic link. -/
  regular : Bool
  bytes : List UInt8

structure Directory where
  /-- A real directory, no symbolic link. -/
  real : Bool
  entries : List DirEntry

/-- The names of the files of an archive. -/
def expectedFiles : List String :=
  [recorderManifestFile, recorderFrameFile, recorderIndexFile, recorderReplayFile, recorderReceiptFile]

/-- One turn of the loop of `archive_file_lengths`: the length so far and the names that were seen. -/
def observeEntry (acc : ℕ × List String) (entry : DirEntry) : Except String (ℕ × List String) :=
  match entry.name with
  | none => .error "recorder archive contains a non-UTF-8 filename"
  | some name =>
    if name ∉ expectedFiles then .error s!"recorder archive contains unexpected entry '{name}'"
    else if !entry.regular then
      .error s!"recorder archive entry '{name}' must be a real regular file, not a symlink"
    else do
      let size ← checked (acc.1 + entry.bytes.length) "recorder archive aggregate size overflow"
      return (size, acc.2 ++ [name])

/-- `archive_file_lengths`. The names are compared as sorted lists. -/
def archiveFileLengths (directory : Directory) : Except String ℕ :=
  if !directory.real then .error "recorder archive path must be a real directory, not a symlink"
  else do
    let (aggregateSize, observed) ← directory.entries.foldlM observeEntry (0, [])
    if ¬observed.Perm expectedFiles then .error "recorder archive must contain exactly the five canonical files"
    else if maxRecorderArchiveBytes < aggregateSize then
      .error s!"recorder archive exceeds the {maxRecorderArchiveBytes}-byte safety cap"
    else return aggregateSize

/-- `File::open` and what is read from the file. -/
def Directory.read (directory : Directory) (name label : String) : Except String (List UInt8) :=
  match Table.find DirEntry.name (some name) directory.entries with
  | some entry => .ok entry.bytes
  | none => .error s!"open recorder {label}: No such file or directory (os error 2)"

/-- `read_canonical_pretty_json`, of the bytes of a file. -/
def readCanonicalPrettyJson {α : Type} (read : List UInt8 → Except String α) (tree : α → Tree (List Char) (List Char))
    (label : String) (bytes : List UInt8) : Except String α :=
  if recorderArchiveMetadataReserveBytes < bytes.length then
    .error s!"recorder {label} exceeds the {recorderArchiveMetadataReserveBytes}-byte metadata cap"
  else do
    let value ← (read bytes).mapError fun error => s!"parse recorder {label}: {error}"
    if bytes ≠ utf8 (newJson (tree value)) then .error s!"recorder {label} is not canonical pretty JSON"
    else return value

/-! ### Metadata -/

/-- `validate_manifest` -/
def validateManifest (spell : Spelling) (m : RecorderArchiveManifest) : Except String Unit :=
  if m.schemaVersion ≠ "forge-recorder-archive/1.0.0" ∨ m.replaySchemaVersion ≠ "1.0.0" ∨
      m.frameSchemaVersion ≠ "forge-telemetry-frame/1.0.0" ∨ m.receiptSchemaVersion ≠ "forge-recorder-receipt/1.0.0" then
    .error "recorder manifest declares an unsupported format version"
  else if m.artifactId = "" ∨ 128 < utf8Length m.artifactId.toList ∨ ¬m.artifactId.toList.all isTokenChar then
    .error "recorder manifest artifactId is outside the v1 identifier grammar"
  else if m.referenceRigId ∉ d12Rigs then .error "recorder manifest referenceRigId is not a frozen D12 rig"
  else if m.sampleRateHz < 1 ∨ 1000 < m.sampleRateHz then
    .error "recorder manifest sampleRateHz is outside 1 through 1000"
  else if !isSha256Hex m.contractHash || !isSha256Hex m.lockfileHash || !isSha256Hex m.sourcePortSha256 then
    .error "recorder manifest hashes must be lowercase SHA-256 values"
  else if !isObject m.environment then .error "recorder manifest environment must be an object"
  else if maxRecorderFrameBytes < utf8Length (m.environment.toText spell) then
    .error s!"recorder manifest environment exceeds {maxRecorderFrameBytes} bytes"
  else do
    let _ ← boundedJsonNodes m.environment 0 0
    if m.sourceKind ≠ "serial-jsonl" ∨ m.sourceBaud ≠ betaflightSerialBaud ∨
        m.captureMaturity ≠ "local-serial-integration" then
      .error "recorder manifest source or maturity authority has drifted"
    else if m.frameFile ≠ recorderFrameFile ∨ m.indexFile ≠ recorderIndexFile ∨ m.replayFile ≠ recorderReplayFile ∨
        m.receiptFile ≠ recorderReceiptFile then
      .error "recorder manifest filenames do not match archive v1"
    else if !m.captureConsentConfirmed || !m.userOwned || m.sharingAuthorized || m.trainingReuseAuthorized ||
        m.recordedDeviceAttested || !m.noAutoArm then
      .error "recorder manifest privacy, consent, or authority flags have drifted"
    else return ()

/-- `validate_receipt` -/
def validateReceipt (r : RecorderStopReceipt) (m : RecorderArchiveManifest) : Except String Unit :=
  if r.schemaVersion ≠ "forge-recorder-receipt/1.0.0" ∨ r.archiveSchemaVersion ≠ "forge-recorder-archive/1.0.0" ∨
      r.replaySchemaVersion ≠ "1.0.0" ∨ r.frameSchemaVersion ≠ "forge-telemetry-frame/1.0.0" then
    .error "recorder receipt declares an unsupported format version"
  else if r.artifactId ≠ m.artifactId ∨ r.referenceRigId ≠ m.referenceRigId ∨ r.contractHash ≠ m.contractHash ∨
      r.lockfileHash ≠ m.lockfileHash ∨ r.startedAtUnixMs ≠ m.startedAtUnixMs ∨
      r.sourcePortSha256 ≠ m.sourcePortSha256 then
    .error "recorder receipt does not match the archive manifest authority"
  else if r.stoppedAtUnixMs < r.startedAtUnixMs ∨ r.frameCount < 1 ∨ maxRecorderFrames < r.frameCount ∨
      !r.durationS.isFinite ∨ r.durationS < 0.0 then
    .error "recorder receipt time, duration, or frame count is invalid"
  else if !isSha256Hex r.frameFileSha256 || !isSha256Hex r.indexFileSha256 || !isSha256Hex r.replayFileSha256 then
    .error "recorder receipt file hashes must be lowercase SHA-256 values"
  else if !r.captureComplete || r.captureMaturity ≠ "local-serial-integration" || !r.captureConsentConfirmed ||
      !r.userOwned || r.sharingAuthorized || r.trainingReuseAuthorized || r.recordedDeviceAttested || !r.noAutoArm then
    .error "recorder receipt completion, privacy, or authority flags have drifted"
  else .ok ()

/-! ### The pass over the frames -/

/-- The header of the replay. `json!` builds ordered maps. -/
def replayHeader (spell : Spelling) (m : RecorderArchiveManifest) : Tree (List Char) (List Char) :=
  recordTree [("contractHash", Desktop.text m.contractHash), ("env", m.environment.tokens spell),
    ("lockfileHash", Desktop.text m.lockfileHash),
    ("recorder", recordTree [("archiveSchemaVersion", Desktop.text "forge-recorder-archive/1.0.0"),
      ("artifactId", Desktop.text m.artifactId), ("captureConsentConfirmed", flag true),
      ("captureMaturity", Desktop.text m.captureMaturity), ("noAutoArm", flag true),
      ("recordedDeviceAttested", flag false), ("referenceRigId", Desktop.text m.referenceRigId),
      ("sourceKind", Desktop.text m.sourceKind), ("sourcePortSha256", Desktop.text m.sourcePortSha256)]),
    ("seed", natural m.seed.toNat)]

/-- `replay_prefix` -/
def replayPrefix (spell : Spelling) (m : RecorderArchiveManifest) : List Char :=
  "\x7b\"schemaVersion\":".toList ++ stringToken "1.0.0" ++ ",\"header\":".toList ++ (replayHeader spell m).render ++
    ",\"frames\":[".toList

/-- The variables of the pass: what was hashed of the frames and of the index, what was hashed of the replay that is
expected, and the rest of the index. -/
structure Pass where
  frameHasher : List UInt8 := []
  indexHasher : List UInt8 := []
  expectedReplayHasher : List UInt8
  index : List UInt8
  frameCount : ℕ := 0
  frameOffset : ℕ := 0
  lastFrameOffset : ℕ := 0
  firstT : Option Float := none
  lastT : Option Float := none

/-- `verify_next_index_entry` -/
def verifyNextIndexEntry (p : Pass) (expectedSequence : ℕ) (expectedT : Float) (expectedOffset : ℕ) :
    Except String Pass := do
  match ← lib.index.readLine "index entry" 256 p.index with
  | none => .error "recorder index ended before its required entry"
  | some (entry, rest) =>
    if entry.sequence.toNat ≠ expectedSequence ∨ entry.t ≠ expectedT ∨ entry.byteOffset ≠ expectedOffset then
      .error (s!"recorder index entry does not match frame {expectedSequence} at byte offset {expectedOffset}")
    else return { p with index := rest, indexHasher := p.indexHasher ++ lib.index.line entry }

/-- The index entry of the frame, when there has to be one. -/
def verifyIndexed (indexStride : ℕ) (p : Pass) (frame : ReplayFrame) : Except String Pass :=
  if p.frameCount % indexStride = 0 then verifyNextIndexEntry lib p p.frameCount frame.t p.frameOffset else .ok p

/-- The end of a turn, after the index was looked at. -/
def Pass.advance (p : Pass) (frame : ReplayFrame) : Pass where
  frameHasher := p.frameHasher ++ lib.frames.line frame
  indexHasher := p.indexHasher
  expectedReplayHasher :=
    p.expectedReplayHasher ++ (if 0 < p.frameCount then utf8 [','] else []) ++ lib.frames.write frame
  index := p.index
  frameCount := p.frameCount + 1
  frameOffset := p.frameOffset + (lib.frames.line frame).length
  lastFrameOffset := p.frameOffset
  firstT := some (p.firstT.getD frame.t)
  lastT := some frame.t

/-- One turn of the loop of `verify_archive`, for a frame that was read. -/
def verifyFrame (indexStride : ℕ) (p : Pass) (frame : ReplayFrame) : Except String Pass :=
  if maxRecorderFrames ≤ p.frameCount then
    .error s!"recorder archive exceeds the {maxRecorderFrames}-frame safety cap"
  else if !frame.t.isFinite ∨ p.lastT.any fun last => frame.t ≤ last then
    .error "recorder archive frame time must be finite and strictly increasing"
  else if !isObject frame.state then .error "recorder archive frame state must be an object"
  else do
    let _ ← boundedJsonNodes frame.state 0 0
    let p ← verifyIndexed lib indexStride p frame
    let _ ← checked (p.frameOffset + (lib.frames.line frame).length) "recorder frame byte offset overflow"
    return p.advance lib frame

/-- The loop of `verify_archive`. -/
def verifyFrames (indexStride : ℕ) (p : Pass) (frames : List UInt8) : Except String Pass :=
  lib.frames.foldLines "frame" (maxRecorderFrameBytes + 1) (verifyFrame lib indexStride) frames.length p frames

/-- The index entry of the last frame, when it has none yet. -/
def verifyLastIndexed (indexStride : ℕ) (p : Pass) : Except String Pass :=
  if (p.frameCount - 1) % indexStride = 0 then .ok p
  else verifyNextIndexEntry lib p (p.frameCount - 1) (p.lastT.getD 0.0) p.lastFrameOffset

/-- What `verify_archive` demands of the index after the loop. -/
def verifyIndexEnd (indexStride : ℕ) (p : Pass) : Except String Pass := do
  let p ← verifyLastIndexed lib indexStride p
  match ← lib.index.readLine "index entry" 256 p.index with
  | some _ => .error "recorder index contains an unexpected extra entry"
  | none => return p

/-- `index_stride` -/
def indexStride (m : RecorderArchiveManifest) : ℕ := max (m.sampleRateHz.toNat / 4) 1

/-! ### Verification -/

/-- The five files. -/
structure ArchiveFiles where
  manifest : List UInt8
  frames : List UInt8
  index : List UInt8
  replay : List UInt8
  receipt : List UInt8

/-- The report on an archive of this size. -/
def reportOf (m : RecorderArchiveManifest) (r : RecorderStopReceipt) (p : Pass) (replay : List UInt8) (size : ℕ) :
    RecorderVerificationReport where
  schemaVersion := "forge-recorder-verification/1.0.0"
  archiveSchemaVersion := "forge-recorder-archive/1.0.0"
  replaySchemaVersion := "1.0.0"
  receiptSchemaVersion := "forge-recorder-receipt/1.0.0"
  artifactId := m.artifactId
  referenceRigId := m.referenceRigId
  contractHash := m.contractHash
  lockfileHash := m.lockfileHash
  sourcePortSha256 := m.sourcePortSha256
  sampleRateHz := m.sampleRateHz
  startedAtUnixMs := r.startedAtUnixMs
  stoppedAtUnixMs := r.stoppedAtUnixMs
  frameCount := p.frameCount
  durationS := p.lastT.getD 0.0 - p.firstT.getD 0.0
  aggregateByteSize := size
  frameFileSha256 := lib.sha256Hex p.frameHasher
  indexFileSha256 := lib.sha256Hex p.indexHasher
  replayFileSha256 := lib.sha256Hex replay
  captureMaturity := r.captureMaturity
  archiveSemanticsVerified := true
  captureComplete := true
  captureConsentConfirmed := true
  userOwned := true
  sharingAuthorized := false
  trainingReuseAuthorized := false
  recordedDeviceAttested := false
  deviceIdentityVerified := false
  fieldSessionVerified := false
  noAutoArm := true

/-- What `verify_archive` demands of the receipt after the pass. -/
def verifyReceipt (r : RecorderStopReceipt) (p : Pass) (replay : List UInt8) : Except String Unit :=
  if p.frameCount ≠ r.frameCount then .error "recorder receipt frameCount does not match the frame file"
  else if p.lastT.getD 0.0 - p.firstT.getD 0.0 ≠ r.durationS then
    .error "recorder receipt duration does not match the frame file"
  else if lib.sha256Hex p.frameHasher ≠ r.frameFileSha256 ∨ lib.sha256Hex p.indexHasher ≠ r.indexFileSha256 ∨
      lib.sha256Hex (p.expectedReplayHasher ++ utf8 "]\x7d\n".toList) ≠ r.replayFileSha256 ∨
      lib.sha256Hex replay ≠ r.replayFileSha256 then
    .error "recorder archive hash or reconstructed replay verification failed"
  else .ok ()

/-- The part of `verify_archive` that reads the files. -/
def verifyFiles (files : ArchiveFiles) (size : ℕ) : Except String RecorderVerificationReport := do
  let manifest ← readCanonicalPrettyJson lib.manifest (RecorderArchiveManifest.tree lib.spell) "manifest" files.manifest
  validateManifest lib.spell manifest
  let receipt ← readCanonicalPrettyJson lib.receipt (RecorderStopReceipt.tree lib.spell) "receipt" files.receipt
  validateReceipt receipt manifest
  let stride := indexStride manifest
  let p ← verifyFrames lib stride
    { expectedReplayHasher := utf8 (replayPrefix lib.spell manifest), index := files.index } files.frames
  if p.frameCount = 0 then .error "recorder archive contains no frames"
  else do
    let p ← verifyIndexEnd lib stride p
    verifyReceipt lib receipt p files.replay
    return reportOf lib manifest receipt p files.replay size

/-- The files of a directory. -/
def Directory.files (directory : Directory) : Except String ArchiveFiles := do
  let manifest ← directory.read recorderManifestFile "manifest"
  let receipt ← directory.read recorderReceiptFile "receipt"
  let frames ← directory.read recorderFrameFile "frame file"
  let index ← directory.read recorderIndexFile "index file"
  let replay ← directory.read recorderReplayFile "replay file"
  return { manifest, frames, index, replay, receipt }

/-- `verify_archive` -/
def verifyArchive (directory : Directory) : Except String RecorderVerificationReport := do
  let initialArchiveBytes ← archiveFileLengths directory
  let files ← directory.files
  let report ← verifyFiles lib files initialArchiveBytes
  if archiveFileLengths directory ≠ .ok initialArchiveBytes then
    .error "recorder archive changed size during verification"
  else return report

end Forge.Validate.Recorder
