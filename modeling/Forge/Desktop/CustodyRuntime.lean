import Forge.Data.Run
import Forge.Desktop.Custody

/-!
# The recorder runtime of the desktop

Starting and stopping a recording, with and without custody (`start_background_recording`,
`start_custodied_background_recording`, `stop_background_recording`,
`stop_custodied_background_recording`). A command holds the lock on the active recorder from its first
look at it to its end, so that commands take their turns one after the other; the thread that records runs
beside them and may end at any time, for example because the device is lost.

What a command meets (ports, files, clocks, observations of the flight controller, failures of the operating
system) is an input of it. What a thread leaves is an input as well: its receipt and the five files, or
an error (`Forge.Desktop.recordSerialStream`).
-/

namespace Forge.Desktop

/-! ### The identity of a device -/

structure MspIdentityObservation where
  firmwareVersion : String
  flightControllerVariant : String
  boardIdentifier : String
  targetName : String
  boardName : String
  manufacturerId : String
  deviceUidSha256 : String
  identitySha256 : String
  responseSha256 : String
  packets : List (List UInt8)
deriving DecidableEq

structure RecorderAdapterProbeRequest where
  port : String
  baud : UInt32
  referenceRigId : Option String
  physicalConfirmation : String

structure RecorderAdapterProbe where
  schemaVersion : String
  adapterSchemaVersion : String
  referenceRigId : String
  sourcePortSha256 : String
  osDescriptorSha256 : String
  baud : UInt32
  observedAtUnixMs : UnixMs
  deviceUidSha256 : String
  identitySha256 : String
  preIdentityResponseSha256 : String
  postIdentityResponseSha256 : String
  transcriptSha256 : String
  deviceIdentityVerified : Bool
  cryptographicDeviceAttestation : Bool
  recordedDeviceAttested : Bool
  fieldSessionVerified : Bool
  sharingAuthorized : Bool
  trainingReuseAuthorized : Bool
  noAutoArm : Bool

/-- `validate_adapter_probe_request` -/
def validateAdapterProbeRequest (request : RecorderAdapterProbeRequest) (gateEnabled : Bool) : Except String String :=
  if !gateEnabled then
    .error "native adapter identity probing requires the hardware-enable, D30-signoff, and lab-mode gates"
  else if request.physicalConfirmation ≠ recorderAdapterProbeConfirmation then
    .error "adapter identity probe props-off confirmation phrase mismatch"
  else if isBlank request.port ∨ 4096 < utf8Length request.port.toList then
    .error "adapter identity probe requires a bounded non-empty serial port"
  else if request.baud ≠ betaflightSerialBaud then
    .error s!"adapter identity probe requires exactly {betaflightSerialBaud} baud"
  else
    match request.referenceRigId with
    | none => .error "referenceRigId is required for the D12 Betaflight adapter probe"
    | some rigId =>
      if some rigId ≠ d12Rigs.head? then .error "Betaflight MSP adapter v1 is limited to the D12 reference quad"
      else .ok rigId

/-- What the port and the clock answer to a probe: the opened port, two observations, the time. -/
structure ProbeIo where
  port : Except String Unit
  pre : Except String MspIdentityObservation
  post : Except String MspIdentityObservation
  now : Except String UnixMs

/-- `probe_recorder_adapter_with_port`, on a port that is open. -/
def probeRecorderAdapterWithPort (host : CustodyHost) (request : RecorderAdapterProbeRequest) (gateEnabled : Bool)
    (osDescriptorSha256 : String) (io : ProbeIo) : Except String RecorderAdapterProbe := do
  let rigId ← validateAdapterProbeRequest request gateEnabled
  if !isSha256Hex osDescriptorSha256 then .error "OS serial descriptor identity must be a lowercase SHA-256"
  else do
    let pre ← io.pre
    let post ← io.post
    if pre ≠ post then .error "MSP adapter identity changed between the required pre/post observations"
    else do
      let now ← io.now
      .ok {
        schemaVersion := "forge-recorder-adapter-probe/1.0.0"
        adapterSchemaVersion := "forge-betaflight-msp-adapter/1.0.0"
        referenceRigId := rigId
        sourcePortSha256 := host.sourcePortSha256 request.port
        osDescriptorSha256
        baud := request.baud
        observedAtUnixMs := now
        deviceUidSha256 := pre.deviceUidSha256
        identitySha256 := pre.identitySha256
        preIdentityResponseSha256 := pre.responseSha256
        postIdentityResponseSha256 := post.responseSha256
        transcriptSha256 := host.transcriptSha256 (pre.packets ++ post.packets)
        deviceIdentityVerified := false
        cryptographicDeviceAttestation := false
        recordedDeviceAttested := false
        fieldSessionVerified := false
        sharingAuthorized := false
        trainingReuseAuthorized := false
        noAutoArm := true }

/-- `custody_probe_request` -/
def custodyProbeRequest (port : String) (baud : UInt32) : RecorderAdapterProbeRequest where
  port := port
  baud := baud
  referenceRigId := d12Rigs.head?
  physicalConfirmation := recorderAdapterProbeConfirmation

/-- `validate_custody_probe` -/
def validateCustodyProbe (probe : RecorderAdapterProbe) (authorization : RecorderCustodyAuthorization)
    (phase : String) : Except String Unit :=
  let binding := authorization.binding
  if probe.schemaVersion ≠ binding.recorderAdapterProbeSchemaVersion ∨
      probe.adapterSchemaVersion ≠ binding.recorderAdapterSchemaVersion ∨
      probe.referenceRigId ≠ binding.referenceRigId ∨ probe.identitySha256 ≠ binding.expectedIdentitySha256 ∨
      probe.deviceUidSha256 ≠ binding.expectedDeviceUidSha256 ∨
      probe.sourcePortSha256 ≠ binding.identitySourcePortSha256 ∨
      probe.osDescriptorSha256 ≠ binding.identityOsDescriptorSha256 then
    .error s!"recorder custody {phase} identity observation does not match the signed authorization"
  else if probe.deviceIdentityVerified ∨ probe.cryptographicDeviceAttestation ∨ probe.recordedDeviceAttested ∨
      probe.fieldSessionVerified ∨ probe.sharingAuthorized ∨ probe.trainingReuseAuthorized ∨
      probe.noAutoArm = false then
    .error s!"recorder custody {phase} identity observation fabricated authority"
  else .ok ()

/-! ### Serial ports -/

/-- A port that the operating system reports, with `os_serial_descriptor_sha256` of it. -/
structure SerialPortInfo where
  portName : String
  descriptorSha256 : Except String String

/-- `enumerated_port_descriptor_sha256` -/
def enumeratedPortDescriptorSha256 (ports : List SerialPortInfo) (requested role : String) : Except String String :=
  match ports.find? fun candidate => candidate.portName = requested with
  | none => .error s!"recorder custody {role} port must be reported by the operating system"
  | some descriptor => descriptor.descriptorSha256

/-- `require_enumerated_serial_port` -/
def requireEnumeratedSerialPort (port : String) (available : List SerialPortInfo) : Except String Unit :=
  if port ∈ available.map SerialPortInfo.portName then .ok ()
  else .error "serial writes are limited to a port reported by the operating system"

/-! ### The active recorder -/

/-- What a recorder thread returns: the time of the receipt and the archive, or an error. -/
abbrev Recorded : Type := Except String (UnixMs × RecorderArchive)

/-- How a thread ends. -/
inductive ThreadEnd where
  | returned (recorded : Recorded)
  | panicked

/-- A recorder thread that was spawned and not joined. -/
structure RecorderThread where
  id : ℕ
  ended : Option ThreadEnd

structure ActiveRecorderCustody where
  verified : VerifiedCustodyAuthorization
  authorizationPath : String
  archivePath : String
  proofPath : String
  modelId : String
  telemetryPort : String
  identityPort : String
  identityBaud : UInt32
  telemetryStartOsDescriptorSha256 : String
  identityStartOsDescriptorSha256 : String
  preProbe : RecorderAdapterProbe

/-- The recorder in the slot: its thread, and what it was started with. -/
structure ActiveRecorder where
  join : ℕ
  request : RecorderRequest
  manifest : RecorderArchiveManifest
  custody : Option ActiveRecorderCustody

/-- The slot behind the lock, the threads, and the files at the paths of proofs. -/
structure RecorderRuntime where
  active : Option ActiveRecorder
  threads : List RecorderThread
  spawned : ℕ
  files : ProofFiles

/-- The receipt that a recording leaves (`record_serial_stream`). -/
def recordedReceipt (host : CustodyHost) (request : RecorderRequest) (manifest : RecorderArchiveManifest)
    (now : UnixMs) (archive : RecorderArchive) : RecorderStopReceipt where
  artifactId := request.artifactId
  referenceRigId := manifest.referenceRigId
  contractHash := request.contractHash
  lockfileHash := request.lockfileHash
  startedAtUnixMs := manifest.startedAtUnixMs
  stoppedAtUnixMs := now
  frameCount := archive.frameCount
  durationS := archive.durationS
  frameFileSha256 := host.sha256Hex archive.frames
  indexFileSha256 := host.sha256Hex archive.index
  replayFileSha256 := host.sha256Hex archive.replay
  sourcePortSha256 := manifest.sourcePortSha256

/-! ### Starting -/

/-- What the operating system answers when a recorder is started: the opened telemetry port, its timeout, the
archive with the time of its manifest, and the thread. A step that fails after the archive was made removes it. -/
structure StartIo where
  telemetryPort : Except String Unit
  setTimeout : Except String Unit
  archive : Except String UnixMs
  spawn : Except String Unit

/-- `start_recorder_with_port_locked` -/
def startRecorderWithPortLocked (host : CustodyHost) (request : RecorderRequest) (portIsEnumerated : Bool)
    (custody : Option ActiveRecorderCustody) (io : StartIo) : Call RecorderRuntime String Unit := fun runtime =>
  let started : Except String RecorderArchiveManifest := do
    let rigId ← validateRecorderRequest host.spell request portIsEnumerated
    io.setTimeout
    if runtime.active.isSome then .error "a Desktop background recorder is already active"
    else do
      let now ← io.archive
      io.spawn
      .ok (createRecorderArchive ⟨host.spell, host.sha256Hex, fun _ => .error ""⟩ request rigId now)
  match started with
  | .error e => (.error e, runtime)
  | .ok manifest =>
    (.ok (), { runtime with
      active := some { join := runtime.spawned, request, manifest, custody }
      threads := { id := runtime.spawned, ended := none } :: runtime.threads
      spawned := runtime.spawned + 1 })

/-- The reason of `disabled_status` without the gates of the lab. -/
def hardwareDisabled : String :=
  "FORGE_DESKTOP_ENABLE_HARDWARE=1, FORGE_DESKTOP_D30_LAB_SIGNOFF=1, and FORGE_HARDWARE_LAB_MODE=1 are required for " ++
    "native D12 lab hardware access"

/-- `start_background_recording` -/
def startBackgroundRecording (host : CustodyHost) (hardwareEnabled : Bool) (ports : Except String (List SerialPortInfo))
    (request : RecorderRequest) (io : StartIo) : Call RecorderRuntime String Unit := fun runtime =>
  let checked : Except String Unit := do
    if !hardwareEnabled then .error hardwareDisabled
    else do
      let available ← ports
      requireEnumeratedSerialPort request.port available
      let _ ← validateRecorderRequest host.spell request true
      io.telemetryPort
  match checked with
  | .error e => (.error e, runtime)
  | .ok () => startRecorderWithPortLocked host request true none io runtime

/-- `custody_deployment_authority` and the clock, with what is at the two paths. -/
structure AuthorityIo where
  ports : Except String (List SerialPortInfo)
  authority : Except String CustodyDeploymentAuthority
  trustBundleFile : DiskFile
  authorizationFile : DiskFile

/-- What the authorization of a recording has to be for. -/
def custodyBindingInputs (host : CustodyHost) (authority : CustodyDeploymentAuthority)
    (artifactId modelId contractHash lockfileHash telemetryPort identityPort telemetryDescriptorSha256
      identityDescriptorSha256 : String) : CustodyBindingInputs where
  protectedRevision := authority.protectedRevision
  referenceRigId := "ref_quad_kakute-h7-source-one-5in"
  artifactId := artifactId
  modelId := modelId
  contractHash := contractHash
  lockfileHash := lockfileHash
  telemetrySourcePortSha256 := host.sourcePortSha256 telemetryPort
  telemetryOsDescriptorSha256 := telemetryDescriptorSha256
  identitySourcePortSha256 := host.sourcePortSha256 identityPort
  identityOsDescriptorSha256 := identityDescriptorSha256
  recorderAdapterProbeSchemaVersion := "forge-recorder-adapter-probe/1.0.0"
  recorderAdapterSchemaVersion := "forge-betaflight-msp-adapter/1.0.0"

/-- `custody_start_with_ports`, up to the recorder: the custody of the recording. -/
def custodyOfStart (host : CustodyHost) (request : RecorderCustodyStartRequest) (ports : List SerialPortInfo)
    (authority : CustodyDeploymentAuthority) (trustBundleFile authorizationFile : DiskFile) (probe : ProbeIo)
    (telemetryPort : Except String Unit) : Except String ActiveRecorderCustody := do
  validateCustodyStartRequest host.spell request
  let telemetryDescriptorSha256 ← enumeratedPortDescriptorSha256 ports request.recorder.port "telemetry"
  let identityDescriptorSha256 ← enumeratedPortDescriptorSha256 ports request.identityPort "identity"
  let verified ← loadAndVerifyAuthorization host authority request.authorizationPath trustBundleFile authorizationFile
    (custodyBindingInputs host authority request.recorder.artifactId request.modelId request.recorder.contractHash
      request.recorder.lockfileHash request.recorder.port request.identityPort telemetryDescriptorSha256
      identityDescriptorSha256)
  probe.port
  let preProbe ← probeRecorderAdapterWithPort host (custodyProbeRequest request.identityPort request.identityBaud) true
    identityDescriptorSha256 probe
  validateCustodyProbe preProbe verified.authorization "start"
  telemetryPort
  .ok {
    verified
    authorizationPath := request.authorizationPath
    archivePath := request.recorder.outputDir
    proofPath := request.custodyProofPath
    modelId := request.modelId
    telemetryPort := request.recorder.port
    identityPort := request.identityPort
    identityBaud := request.identityBaud
    telemetryStartOsDescriptorSha256 := telemetryDescriptorSha256
    identityStartOsDescriptorSha256 := identityDescriptorSha256
    preProbe }

/-- `start_custodied_background_recording` -/
def startCustodiedBackgroundRecording (host : CustodyHost) (hardwareEnabled : Bool)
    (request : RecorderCustodyStartRequest) (outside : AuthorityIo) (probe : ProbeIo) (io : StartIo) :
    Call RecorderRuntime String Unit := fun runtime =>
  let checked : Except String ActiveRecorderCustody := do
    if !hardwareEnabled then .error hardwareDisabled
    else do
      validateCustodyStartRequest host.spell request
      if runtime.active.isSome then
        .error "read-only adapter identity probing requires the Desktop recorder to be inactive"
      else do
        let ports ← outside.ports
        let authority ← outside.authority
        custodyOfStart host request ports authority outside.trustBundleFile outside.authorizationFile probe io.telemetryPort
  match checked with
  | .error e => (.error e, runtime)
  | .ok custody => startRecorderWithPortLocked host request.recorder true (some custody) io runtime

/-! ### Stopping -/

/-- The slot is emptied and its thread is joined; a thread that has not ended yet ends with `now`. -/
def joinRecorder (active : ActiveRecorder) (now : ThreadEnd) (runtime : RecorderRuntime) :
    ThreadEnd × RecorderRuntime :=
  let ended := (runtime.threads.find? fun thread => thread.id = active.join).bind RecorderThread.ended
  (ended.getD now,
    { runtime with
      active := none
      threads := runtime.threads.filter fun thread => thread.id ≠ active.join })

/-- What `join` gives. -/
def ThreadEnd.recorded : ThreadEnd → Recorded
  | .returned recorded => recorded
  | .panicked => .error "Desktop background recorder thread panicked"

/-- `stop_background_recording` -/
def stopRecorder (host : CustodyHost) (now : ThreadEnd) : Call RecorderRuntime String RecorderStopReceipt :=
  fun runtime =>
    match runtime.active with
    | none => (.error "no Desktop background recorder is active", runtime)
    | some active =>
      if active.custody.isSome then
        (.error ("a custodied capture must use the custody stop command so archive completion and proof refusal " ++
          "remain explicit"), runtime)
      else
        ((joinRecorder active now runtime).1.recorded.map fun r =>
          recordedReceipt host active.request active.manifest r.1 r.2, (joinRecorder active now runtime).2)

structure RecorderCustodyStopRequest where
  authorizationId : String
  physicalConfirmation : String

/-- `validate_custody_stop_request` -/
def validateCustodyStopRequest (request : RecorderCustodyStopRequest) (custody : ActiveRecorderCustody) :
    Except String Unit :=
  if request.physicalConfirmation ≠ recorderAdapterProbeConfirmation then
    .error "recorder custody stop requires the exact props-off confirmation"
  else if !validCustodyToken request.authorizationId ∨
      request.authorizationId ≠ custody.verified.authorization.binding.authorizationId then
    .error "recorder custody stop authorizationId does not match the active capture"
  else .ok ()

/-- The record of `finish_custody_proof`. -/
def custodyProof (host : CustodyHost) (custody : ActiveRecorderCustody) (receipt : RecorderStopReceipt)
    (archive : RecorderArchive) (telemetryStopDescriptorSha256 identityStopDescriptorSha256 : String)
    (postProbe : RecorderAdapterProbe) (now : UnixMs) : RecorderCustodyProof where
  schemaVersion := "forge-recorder-custody-proof/1.0.0"
  trustBundleSchemaVersion := "forge-recorder-custody-trust-bundle/1.0.0"
  authorizationSchemaVersion := "forge-recorder-custody-authorization/1.0.0"
  recorderAdapterProbeSchemaVersion := "forge-recorder-adapter-probe/1.0.0"
  recorderAdapterSchemaVersion := "forge-betaflight-msp-adapter/1.0.0"
  authorizationId := custody.verified.authorization.binding.authorizationId
  authorizationSha256 := custody.verified.authorizationSha256
  trustBundleId := custody.verified.trustBundle.bundleId
  trustBundleSha256 := custody.verified.trustBundleSha256
  acceptanceAuthorityKeyId := custody.verified.authorization.keyId
  protectedRevision := custody.verified.authorization.binding.protectedRevision
  purpose := "controlled-lab-recorder-custody"
  evidencePackSchemaVersion := custody.verified.authorization.binding.evidencePackSchemaVersion
  evidencePackSha256 := custody.verified.authorization.binding.evidencePackSha256
  requiredSignoffSetSha256 := custody.verified.authorization.binding.requiredSignoffSetSha256
  referenceRigId := receipt.referenceRigId
  artifactId := receipt.artifactId
  modelId := custody.modelId
  contractHash := receipt.contractHash
  lockfileHash := receipt.lockfileHash
  telemetrySourcePortSha256 := host.sourcePortSha256 custody.telemetryPort
  telemetryStartOsDescriptorSha256 := custody.telemetryStartOsDescriptorSha256
  telemetryStopOsDescriptorSha256 := telemetryStopDescriptorSha256
  identitySourcePortSha256 := host.sourcePortSha256 custody.identityPort
  identityStartOsDescriptorSha256 := custody.identityStartOsDescriptorSha256
  identityStopOsDescriptorSha256 := identityStopDescriptorSha256
  expectedIdentitySha256 := custody.verified.authorization.binding.expectedIdentitySha256
  preIdentitySha256 := custody.preProbe.identitySha256
  postIdentitySha256 := postProbe.identitySha256
  expectedDeviceUidSha256 := custody.verified.authorization.binding.expectedDeviceUidSha256
  preDeviceUidSha256 := custody.preProbe.deviceUidSha256
  postDeviceUidSha256 := postProbe.deviceUidSha256
  preObservedAtUnixMs := custody.preProbe.observedAtUnixMs
  postObservedAtUnixMs := postProbe.observedAtUnixMs
  startPreIdentityResponseSha256 := custody.preProbe.preIdentityResponseSha256
  startPostIdentityResponseSha256 := custody.preProbe.postIdentityResponseSha256
  startTranscriptSha256 := custody.preProbe.transcriptSha256
  stopPreIdentityResponseSha256 := postProbe.preIdentityResponseSha256
  stopPostIdentityResponseSha256 := postProbe.postIdentityResponseSha256
  stopTranscriptSha256 := postProbe.transcriptSha256
  recorderReceiptSha256 := host.sha256Hex archive.receipt
  captureStartedAtUnixMs := receipt.startedAtUnixMs
  captureStoppedAtUnixMs := receipt.stoppedAtUnixMs
  proofCreatedAtUnixMs := now
  acceptanceAuthoritySignatureVerified := true
  identityContinuityVerified := true
  captureConsentConfirmed := true
  noAutoArm := true
  cryptographicDeviceAttestation := false
  recordedDeviceAttested := false
  deviceIdentityVerified := false
  fieldSessionVerified := false
  sharingAuthorized := false
  trainingReuseAuthorized := false

/-- The inspection of the archive against the receipt. -/
def requireSameRecording (inspection : RecorderArchiveInspection) (receipt : RecorderStopReceipt) : Except String Unit :=
  if inspection.artifactId ≠ receipt.artifactId ∨ inspection.referenceRigId ≠ receipt.referenceRigId ∨
      inspection.contractHash ≠ receipt.contractHash ∨ inspection.lockfileHash ≠ receipt.lockfileHash ∨
      inspection.sourcePortSha256 ≠ receipt.sourcePortSha256 ∨
      inspection.startedAtUnixMs ≠ receipt.startedAtUnixMs ∨ inspection.stoppedAtUnixMs ≠ receipt.stoppedAtUnixMs then
    .error "canonical recorder archive does not match the completed receipt"
  else .ok ()

/-- `finish_custody_proof`, up to the file: the proof. -/
def proofOfStop (host : CustodyHost) (custody : ActiveRecorderCustody) (receipt : RecorderStopReceipt)
    (archive : RecorderArchive) (ports : List SerialPortInfo) (authority : CustodyDeploymentAuthority)
    (trustBundleFile authorizationFile : DiskFile) (probe : ProbeIo) (now : Except String UnixMs) :
    Except String RecorderCustodyProof := do
  let telemetryStop ← enumeratedPortDescriptorSha256 ports custody.telemetryPort "telemetry"
  let identityStop ← enumeratedPortDescriptorSha256 ports custody.identityPort "identity"
  if telemetryStop ≠ custody.telemetryStartOsDescriptorSha256 ∨ identityStop ≠ custody.identityStartOsDescriptorSha256 then
    .error "recorder custody OS descriptor changed between start and stop"
  else do
    let stopVerified ← loadAndVerifyAuthorization host authority custody.authorizationPath trustBundleFile
      authorizationFile
      (custodyBindingInputs host authority receipt.artifactId custody.modelId receipt.contractHash receipt.lockfileHash
        custody.telemetryPort custody.identityPort telemetryStop identityStop)
    if stopVerified.trustBundleSha256 ≠ custody.verified.trustBundleSha256 ∨
        stopVerified.authorizationSha256 ≠ custody.verified.authorizationSha256 ∨
        stopVerified.authorization ≠ custody.verified.authorization then
      .error "recorder custody authority changed during the active capture"
    else do
      probe.port
      let postProbe ← probeRecorderAdapterWithPort host (custodyProbeRequest custody.identityPort custody.identityBaud)
        true identityStop probe
      validateCustodyProbe postProbe stopVerified.authorization "stop"
      if postProbe.identitySha256 ≠ custody.preProbe.identitySha256 ∨
          postProbe.deviceUidSha256 ≠ custody.preProbe.deviceUidSha256 ∨
          postProbe.preIdentityResponseSha256 ≠ custody.preProbe.preIdentityResponseSha256 ∨
          postProbe.postIdentityResponseSha256 ≠ custody.preProbe.postIdentityResponseSha256 ∨
          postProbe.transcriptSha256 ≠ custody.preProbe.transcriptSha256 then
        .error "recorder custody identity or exact response transcript changed between start and stop"
      else do
        let inspection ← host.verifyArchive archive
        requireSameRecording inspection receipt
        let now ← now
        .ok (custodyProof host custody receipt archive telemetryStop identityStop postProbe now)

/-- What the world answers to the end of a custodied recording. -/
structure StopIo where
  outside : AuthorityIo
  probe : ProbeIo
  now : Except String UnixMs
  proof : ProofIo

/-- The closure of `stop_custodied_background_recording`: `finish_custody_proof` with what it needs. -/
def finishCustodyProof (host : CustodyHost) (custody : ActiveRecorderCustody) (receipt : RecorderStopReceipt)
    (archive : RecorderArchive) (io : StopIo) : Call ProofFiles String RecorderCustodyProof := do
  let proof ← Call.ofExcept do
    let ports ← io.outside.ports
    let authority ← io.outside.authority
    proofOfStop host custody receipt archive ports authority io.outside.trustBundleFile io.outside.authorizationFile
      io.probe io.now
  writeCustodyProof io.proof custody.proofPath proof
  pure proof

/-- `stop_custodied_background_recording` -/
def stopCustodiedBackgroundRecording (host : CustodyHost) (request : RecorderCustodyStopRequest) (now : ThreadEnd)
    (io : StopIo) : Call RecorderRuntime String RecorderCustodyProof := fun runtime =>
  match runtime.active with
  | none => (.error "no Desktop background recorder is active", runtime)
  | some active =>
    match active.custody with
    | none => (.error "the active Desktop recorder was not started under custody", runtime)
    | some custody =>
      match validateCustodyStopRequest request custody with
      | .error e => (.error e, runtime)
      | .ok () =>
        let joined := joinRecorder active now runtime
        match joined.1.recorded with
        | .error e => (.error s!"custodied recorder did not complete its v1 archive: {e}", joined.2)
        | .ok r =>
          let finished := finishCustodyProof host custody (recordedReceipt host active.request active.manifest r.1 r.2)
            r.2 io joined.2.files
          (finished.1.mapError fun e => "recorder archive completed but custody proof was not created; the " ++
            s!"five-file archive remains valid and unpromoted: {e}", { joined.2 with files := finished.2 })

/-! ### Runs -/

/-- What may happen next. -/
inductive RecorderEvent where
  | start (hardwareEnabled : Bool) (ports : Except String (List SerialPortInfo)) (request : RecorderRequest)
    (io : StartIo)
  | startCustodied (hardwareEnabled : Bool) (request : RecorderCustodyStartRequest) (outside : AuthorityIo)
    (probe : ProbeIo) (io : StartIo)
  | stop (now : ThreadEnd)
  | stopCustodied (request : RecorderCustodyStopRequest) (now : ThreadEnd) (io : StopIo)
  /-- A thread ends on its own. -/
  | threadEnds (id : ℕ) (ended : ThreadEnd)

/-- The end of a thread that has not ended before. -/
def endThread (id : ℕ) (ended : ThreadEnd) (runtime : RecorderRuntime) : RecorderRuntime :=
  { runtime with
    threads := runtime.threads.map fun thread =>
      if thread.id = id ∧ thread.ended.isNone then { thread with ended := some ended } else thread }

/-- What an event does: whether the command succeeds, and the state after it. -/
def recorderStep (host : CustodyHost) (event : RecorderEvent) (runtime : RecorderRuntime) :
    Except String Unit × RecorderRuntime :=
  match event with
  | .start hardwareEnabled ports request io => startBackgroundRecording host hardwareEnabled ports request io runtime
  | .startCustodied hardwareEnabled request outside probe io =>
    startCustodiedBackgroundRecording host hardwareEnabled request outside probe io runtime
  | .stop now => ((stopRecorder host now runtime).1.map fun _ => (), (stopRecorder host now runtime).2)
  | .stopCustodied request now io =>
    ((stopCustodiedBackgroundRecording host request now io runtime).1.map fun _ => (),
      (stopCustodiedBackgroundRecording host request now io runtime).2)
  | .threadEnds id ended => (.ok (), endThread id ended runtime)

/-- The runtime as a transition system, from an inactive recorder and any files. -/
def recorderSystem (host : CustodyHost) (files : ProofFiles) : System RecorderRuntime RecorderEvent where
  init := { active := none, threads := [], spawned := 0, files }
  step runtime event after := after = (recorderStep host event runtime).2

end Forge.Desktop
