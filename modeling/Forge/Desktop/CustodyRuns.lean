import Forge.Desktop.CustodyRuntime

/-!
# Custody over runs of the recorder

What any sequence of commands and thread ends keeps of the recorder runtime. `RuntimeKept` says that the slot
and the threads go together and where the custody of a recording comes from; each event keeps it. From it
follows what a proof file stands for (`ProofBinds`) and **`custody_kept`**: one recorder at a time, a proof
only for a recording whose archive was verified and whose authorization, device and ports are the same at its
start and its stop, and no proof file and no occupied slot after a failure.

The exception is a proof file that can neither be written nor removed again (`torn_proof_left`).
-/

namespace Forge.Desktop

variable {host : CustodyHost}

/-! ### What a command does -/

/-- A recorder is started in an empty slot, or nothing changes. -/
theorem startRecorderWithPortLocked_cases (request : RecorderRequest) (portIsEnumerated : Bool)
    (custody : Option ActiveRecorderCustody) (io : StartIo) (r : RecorderRuntime) :
    (∃ e, startRecorderWithPortLocked host request portIsEnumerated custody io r = (.error e, r)) ∨
      r.active = none ∧ ∃ manifest, startRecorderWithPortLocked host request portIsEnumerated custody io r =
        (.ok (), { r with
          active := some { join := r.spawned, request, manifest, custody }
          threads := { id := r.spawned, ended := none } :: r.threads
          spawned := r.spawned + 1 }) := by
  unfold startRecorderWithPortLocked
  dsimp only
  split
  · exact .inl ⟨_, rfl⟩
  · rename_i manifest h
    obtain ⟨rigId, -, h⟩ := bind_eq_ok.mp h
    obtain ⟨-, h⟩ := check_eq_ok.mp h
    rw [ite_error_eq_ok] at h
    exact .inr ⟨by simpa using h.1, manifest, rfl⟩

/-- What writing a proof does to the files. -/
theorem writeCustodyProof_cases (io : ProofIo) (proofPath : String) (proof : RecorderCustodyProof) (files : ProofFiles) :
    (∃ e, writeCustodyProof io proofPath proof files = (.error e, files)) ∨
      ∃ target, Assoc.get target files = none ∧
        (writeCustodyProof io proofPath proof files = (.ok (), Assoc.insert target (.proof proof) files) ∨
          io.writeFault.isSome ∧ io.removeFault.isSome ∧
            ∃ e, writeCustodyProof io proofPath proof files = (.error e, Assoc.insert target .torn files)) := by
  unfold writeCustodyProof
  rw [Call.bind_apply]
  cases htarget : proofTarget io proofPath proof with
  | error e => exact .inl ⟨e, rfl⟩
  | ok target =>
    simp only [Call.ofExcept, createProofFile]
    split_ifs with hfile
    · exact .inl ⟨_, rfl⟩
    · have hnone : Assoc.get target files = none := by simpa using hfile
      cases hopen : io.openFault with
      | some message => exact .inl ⟨_, rfl⟩
      | none =>
        cases hwrite : io.writeFault with
        | none => exact .inr ⟨target, hnone, .inl rfl⟩
        | some message =>
          cases hremove : io.removeFault with
          | none => exact .inl ⟨_, rfl⟩
          | some cleanup => exact .inr ⟨target, hnone, .inr ⟨rfl, rfl, _, rfl⟩⟩

/-! ### Authorizations -/

/-- An authorization that was loaded: it is for these inputs, and a key of its bundle has signed it. -/
structure Authorized (host : CustodyHost) (expected : CustodyBindingInputs) (v : VerifiedCustodyAuthorization) :
    Prop where
  inputs : v.authorization.binding.inputs = expected
  tokens : validCustodyToken v.authorization.binding.authorizationId = true
  signed : ∃ key ∈ v.trustBundle.keys, key.keyId = v.authorization.keyId ∧
    host.verifySignature key v.authorization = .ok ()

theorem inputs_of_validateAuthorizationBinding {authorization : RecorderCustodyAuthorization}
    {expected : CustodyBindingInputs} {now : UInt64}
    (h : validateAuthorizationBinding authorization expected now = .ok ()) :
    authorization.binding.inputs = expected ∧
      validCustodyToken authorization.binding.authorizationId = true := by
  simp only [validateAuthorizationBinding, ite_error_eq_ok, check_eq_ok] at h
  obtain ⟨-, hscope, -, -, -, -, -, hinputs, -⟩ := h
  have htoken : isSafeToken authorization.binding.authorizationId 128 = true := by
    by_contra hne
    exact hscope (.inl (by simpa using hne))
  exact ⟨not_not.mp hinputs, htoken⟩

theorem loadAndVerifyAuthorization_ok {authority : CustodyDeploymentAuthority} {authorizationPath : String}
    {trustBundleFile authorizationFile : DiskFile} {expected : CustodyBindingInputs} {v : VerifiedCustodyAuthorization}
    (h : loadAndVerifyAuthorization host authority authorizationPath trustBundleFile authorizationFile expected = .ok v) :
    Authorized host expected v := by
  simp only [loadAndVerifyAuthorization, ite_error_eq_ok] at h
  obtain ⟨-, h⟩ := h
  obtain ⟨trustBundleBytes, -, h⟩ := bind_eq_ok.mp h
  rw [ite_error_eq_ok] at h
  obtain ⟨-, h⟩ := h
  obtain ⟨trustBundle, -, h⟩ := bind_eq_ok.mp h
  obtain ⟨-, h⟩ := check_eq_ok.mp h
  obtain ⟨authorizationBytes, -, h⟩ := bind_eq_ok.mp h
  obtain ⟨authorization, -, h⟩ := bind_eq_ok.mp h
  obtain ⟨hbinding, h⟩ := check_eq_ok.mp h
  obtain ⟨hinputs, htokens⟩ := inputs_of_validateAuthorizationBinding hbinding
  cases hkey : trustBundle.keys.find? fun key => key.keyId = authorization.keyId with
  | none =>
    rw [hkey] at h
    cases h
  | some key =>
    rw [hkey] at h
    obtain ⟨-, h⟩ := check_eq_ok.mp h
    obtain ⟨hsigned, h⟩ := check_eq_ok.mp h
    obtain rfl := Except.ok.inj h
    exact ⟨hinputs, htokens, key, List.mem_of_find?_eq_some hkey, by simpa using List.find?_some hkey, hsigned⟩

/-- A probe of the device that an authorization names. -/
structure Observed (binding : RecorderCustodyAuthorizationBinding) (probe : RecorderAdapterProbe) : Prop where
  identity : probe.identitySha256 = binding.expectedIdentitySha256
  deviceUid : probe.deviceUidSha256 = binding.expectedDeviceUidSha256
  sourcePort : probe.sourcePortSha256 = binding.identitySourcePortSha256
  descriptor : probe.osDescriptorSha256 = binding.identityOsDescriptorSha256

theorem validateCustodyProbe_ok {probe : RecorderAdapterProbe} {authorization : RecorderCustodyAuthorization}
    {phase : String} (h : validateCustodyProbe probe authorization phase = .ok ()) :
    Observed authorization.binding probe := by
  simp only [validateCustodyProbe, ite_error_eq_ok, not_or, not_not] at h
  obtain ⟨⟨-, -, -, hidentity, hdevice, hport, hdescriptor⟩, -⟩ := h
  exact ⟨hidentity, hdevice, hport, hdescriptor⟩

/-! ### The custody of a recording -/

/-- What is known of the custody that a start has captured. -/
structure Captured (host : CustodyHost) (request : RecorderCustodyStartRequest) (c : ActiveRecorderCustody) :
    Prop where
  accepted : validateCustodyStartRequest host.spell request = .ok ()
  archivePath : c.archivePath = request.recorder.outputDir
  proofPath : c.proofPath = request.custodyProofPath
  telemetryPort : c.telemetryPort = request.recorder.port
  authorized : ∃ authority, Authorized host
    (custodyBindingInputs host authority request.recorder.artifactId c.modelId request.recorder.contractHash
      request.recorder.lockfileHash c.telemetryPort c.identityPort c.telemetryStartOsDescriptorSha256
      c.identityStartOsDescriptorSha256) c.verified
  observed : Observed c.verified.authorization.binding c.preProbe

theorem custodyOfStart_ok {request : RecorderCustodyStartRequest} {ports : List SerialPortInfo}
    {authority : CustodyDeploymentAuthority} {trustBundleFile authorizationFile : DiskFile} {probe : ProbeIo}
    {telemetryPort : Except String Unit} {c : ActiveRecorderCustody}
    (h : custodyOfStart host request ports authority trustBundleFile authorizationFile probe telemetryPort = .ok c) :
    Captured host request c := by
  obtain ⟨haccepted, h⟩ := check_eq_ok.mp h
  obtain ⟨telemetryDescriptor, -, h⟩ := bind_eq_ok.mp h
  obtain ⟨identityDescriptor, -, h⟩ := bind_eq_ok.mp h
  obtain ⟨verified, hverified, h⟩ := bind_eq_ok.mp h
  obtain ⟨-, h⟩ := check_eq_ok.mp h
  obtain ⟨preProbe, -, h⟩ := bind_eq_ok.mp h
  obtain ⟨hobserved, h⟩ := check_eq_ok.mp h
  obtain ⟨-, h⟩ := check_eq_ok.mp h
  obtain rfl := Except.ok.inj h
  exact ⟨haccepted, rfl, rfl, rfl, ⟨authority, loadAndVerifyAuthorization_ok hverified⟩,
    validateCustodyProbe_ok hobserved⟩

/-- **What a proof stands for**, for a recorder `a` with the custody `c` whose thread left `archive`: the archive was
verified and is that of the recording; the authorization loaded at the stop is the one of the start, and both are
for this recording and its ports; the device and the descriptors of its ports are the same at both ends. -/
structure ProofBinds (host : CustodyHost) (a : ActiveRecorder) (c : ActiveRecorderCustody) (stoppedAt : UnixMs)
    (archive : RecorderArchive) (proof : RecorderCustodyProof) : Prop where
  started : ∃ request, request.recorder = a.request ∧ Captured host request c
  verified : ∃ inspection, host.verifyArchive archive = .ok inspection ∧
    inspection.artifactId = a.request.artifactId ∧ inspection.contractHash = a.request.contractHash ∧
    inspection.lockfileHash = a.request.lockfileHash ∧ inspection.referenceRigId = a.manifest.referenceRigId ∧
    inspection.sourcePortSha256 = a.manifest.sourcePortSha256 ∧
    inspection.startedAtUnixMs = a.manifest.startedAtUnixMs ∧ inspection.stoppedAtUnixMs = stoppedAt
  authorized : ∃ authority stop, Authorized host
    (custodyBindingInputs host authority a.request.artifactId c.modelId a.request.contractHash a.request.lockfileHash
      c.telemetryPort c.identityPort proof.telemetryStopOsDescriptorSha256 proof.identityStopOsDescriptorSha256) stop ∧
    stop.authorization = c.verified.authorization ∧ stop.authorizationSha256 = c.verified.authorizationSha256 ∧
    stop.trustBundleSha256 = c.verified.trustBundleSha256
  authorization : proof.authorizationId = c.verified.authorization.binding.authorizationId ∧
    proof.authorizationSha256 = c.verified.authorizationSha256 ∧ proof.trustBundleSha256 = c.verified.trustBundleSha256
  device : proof.preIdentitySha256 = proof.postIdentitySha256 ∧ proof.preDeviceUidSha256 = proof.postDeviceUidSha256 ∧
    proof.preIdentitySha256 = proof.expectedIdentitySha256 ∧ proof.preDeviceUidSha256 = proof.expectedDeviceUidSha256
  descriptors : proof.telemetryStartOsDescriptorSha256 = proof.telemetryStopOsDescriptorSha256 ∧
    proof.identityStartOsDescriptorSha256 = proof.identityStopOsDescriptorSha256
  recording : proof.artifactId = a.request.artifactId ∧ proof.contractHash = a.request.contractHash ∧
    proof.lockfileHash = a.request.lockfileHash ∧ proof.captureStartedAtUnixMs = a.manifest.startedAtUnixMs ∧
    proof.captureStoppedAtUnixMs = stoppedAt ∧ proof.recorderReceiptSha256 = host.sha256Hex archive.receipt

theorem requireSameRecording_ok {inspection : RecorderArchiveInspection} {receipt : RecorderStopReceipt}
    (h : requireSameRecording inspection receipt = .ok ()) :
    inspection.artifactId = receipt.artifactId ∧ inspection.referenceRigId = receipt.referenceRigId ∧
      inspection.contractHash = receipt.contractHash ∧ inspection.lockfileHash = receipt.lockfileHash ∧
      inspection.sourcePortSha256 = receipt.sourcePortSha256 ∧
      inspection.startedAtUnixMs = receipt.startedAtUnixMs ∧ inspection.stoppedAtUnixMs = receipt.stoppedAtUnixMs := by
  simpa only [requireSameRecording, ite_error_eq_ok, not_or, not_not, and_true] using h

/-- **A proof is built only for a recording that it binds.** -/
theorem proofOfStop_ok {a : ActiveRecorder} {c : ActiveRecorderCustody} {request : RecorderCustodyStartRequest}
    (hrequest : request.recorder = a.request) (hcaptured : Captured host request c) {stoppedAt : UnixMs}
    {archive : RecorderArchive} {ports : List SerialPortInfo} {authority : CustodyDeploymentAuthority}
    {trustBundleFile authorizationFile : DiskFile} {probe : ProbeIo} {now : Except String UnixMs}
    {proof : RecorderCustodyProof}
    (h : proofOfStop host c (recordedReceipt host a.request a.manifest stoppedAt archive) archive ports authority
      trustBundleFile authorizationFile probe now = .ok proof) :
    ProofBinds host a c stoppedAt archive proof := by
  obtain ⟨telemetryStop, -, h⟩ := bind_eq_ok.mp h
  obtain ⟨identityStop, -, h⟩ := bind_eq_ok.mp h
  rw [ite_error_eq_ok] at h
  obtain ⟨hdescriptors, h⟩ := h
  obtain ⟨stop, hstop, h⟩ := bind_eq_ok.mp h
  rw [ite_error_eq_ok] at h
  obtain ⟨hauthority, h⟩ := h
  obtain ⟨-, h⟩ := check_eq_ok.mp h
  obtain ⟨postProbe, -, h⟩ := bind_eq_ok.mp h
  obtain ⟨-, h⟩ := check_eq_ok.mp h
  rw [ite_error_eq_ok] at h
  obtain ⟨hprobe, h⟩ := h
  obtain ⟨inspection, hinspection, h⟩ := bind_eq_ok.mp h
  obtain ⟨hsame, h⟩ := check_eq_ok.mp h
  obtain ⟨created, -, h⟩ := bind_eq_ok.mp h
  obtain rfl := Except.ok.inj h
  simp only [not_or, not_not] at hdescriptors hauthority hprobe
  obtain ⟨hartifact, hrig, hcontract, hlockfile, hsource, hstarted, hstopped⟩ := requireSameRecording_ok hsame
  exact {
    started := ⟨request, hrequest, hcaptured⟩
    verified := ⟨inspection, hinspection, hartifact, hcontract, hlockfile, hrig, hsource, hstarted, hstopped⟩
    authorized := ⟨authority, stop, loadAndVerifyAuthorization_ok hstop, hauthority.2.2, hauthority.2.1, hauthority.1⟩
    authorization := ⟨rfl, rfl, rfl⟩
    device := ⟨hprobe.1.symm, hprobe.2.1.symm, hcaptured.observed.identity, hcaptured.observed.deviceUid⟩
    descriptors := ⟨hdescriptors.1.symm, hdescriptors.2.symm⟩
    recording := ⟨rfl, rfl, rfl, rfl, rfl, rfl⟩ }

/-! ### What every event keeps -/

/-- The slot and the threads that were not joined go together, and the custody in the slot was captured by a start. -/
structure RuntimeKept (host : CustodyHost) (r : RecorderRuntime) : Prop where
  threads : r.threads.map RecorderThread.id = (r.active.map ActiveRecorder.join).toList
  captured : ∀ a ∈ r.active, ∀ c ∈ a.custody, ∃ request, request.recorder = a.request ∧ Captured host request c

theorem RuntimeKept.single {r : RecorderRuntime} (h : RuntimeKept host r) : r.threads.length ≤ 1 := by
  rw [← List.length_map RecorderThread.id, h.threads]
  cases r.active <;> simp

/-- Joining the thread in the slot leaves no thread. -/
theorem RuntimeKept.joined {r : RecorderRuntime} (h : RuntimeKept host r) {a : ActiveRecorder} (ha : r.active = some a)
    (now : ThreadEnd) (files : ProofFiles) : RuntimeKept host { (joinRecorder a now r).2 with files } := by
  have hids : ∀ thread ∈ r.threads, thread.id = a.join := by
    intro thread hthread
    have hmem : thread.id ∈ r.threads.map RecorderThread.id := List.mem_map_of_mem hthread
    rw [h.threads, ha] at hmem
    exact List.mem_singleton.mp hmem
  have hnone : r.threads.filter (fun thread => thread.id ≠ a.join) = [] :=
    List.filter_eq_nil_iff.mpr fun thread hthread => by simp [hids thread hthread]
  refine ⟨?_, fun b hb => absurd hb (Option.not_mem_none b)⟩
  change (r.threads.filter fun thread => thread.id ≠ a.join).map RecorderThread.id = []
  rw [hnone]
  rfl

/-- A recorder is started in an empty slot. -/
theorem RuntimeKept.started {r : RecorderRuntime} (h : RuntimeKept host r) (hnone : r.active = none)
    {request : RecorderRequest} {manifest : RecorderArchiveManifest} {custody : Option ActiveRecorderCustody}
    (hcustody : ∀ c ∈ custody, ∃ start, start.recorder = request ∧ Captured host start c) :
    RuntimeKept host { r with
      active := some { join := r.spawned, request, manifest, custody }
      threads := { id := r.spawned, ended := none } :: r.threads
      spawned := r.spawned + 1 } := by
  have hthreads := h.threads
  rw [hnone] at hthreads
  refine ⟨?_, ?_⟩
  · rw [List.map_cons, hthreads]
    rfl
  · intro a ha
    obtain rfl := Option.some.inj ha
    exact hcustody

theorem startBackgroundRecording_cases (hardwareEnabled : Bool) (ports : Except String (List SerialPortInfo))
    (request : RecorderRequest) (io : StartIo) (r : RecorderRuntime) :
    (∃ e, startBackgroundRecording host hardwareEnabled ports request io r = (.error e, r)) ∨
      startBackgroundRecording host hardwareEnabled ports request io r =
        startRecorderWithPortLocked host request true none io r := by
  unfold startBackgroundRecording
  dsimp only
  split
  · exact .inl ⟨_, rfl⟩
  · exact .inr rfl

theorem startCustodiedBackgroundRecording_cases (hardwareEnabled : Bool) (request : RecorderCustodyStartRequest)
    (outside : AuthorityIo) (probe : ProbeIo) (io : StartIo) (r : RecorderRuntime) :
    (∃ e, startCustodiedBackgroundRecording host hardwareEnabled request outside probe io r = (.error e, r)) ∨
      ∃ c, Captured host request c ∧ startCustodiedBackgroundRecording host hardwareEnabled request outside probe io r =
        startRecorderWithPortLocked host request.recorder true (some c) io r := by
  unfold startCustodiedBackgroundRecording
  dsimp only
  split
  · exact .inl ⟨_, rfl⟩
  · rename_i c h
    rw [ite_error_eq_ok] at h
    obtain ⟨-, h⟩ := check_eq_ok.mp h.2
    rw [ite_error_eq_ok] at h
    obtain ⟨ports, -, h⟩ := bind_eq_ok.mp h.2
    obtain ⟨authority, -, h⟩ := bind_eq_ok.mp h
    exact .inr ⟨c, custodyOfStart_ok h, rfl⟩

theorem stopRecorder_cases (host : CustodyHost) (now : ThreadEnd) (r : RecorderRuntime) :
    (∃ e, stopRecorder host now r = (.error e, r)) ∨
      ∃ a result, r.active = some a ∧ stopRecorder host now r = (result, (joinRecorder a now r).2) := by
  unfold stopRecorder
  cases ha : r.active with
  | none => exact .inl ⟨_, rfl⟩
  | some a =>
    dsimp only
    split_ifs
    · exact .inl ⟨_, rfl⟩
    · exact .inr ⟨a, _, rfl, rfl⟩

/-- What the end of a custodied recording does to the files. -/
theorem finishCustodyProof_cases {a : ActiveRecorder} {c : ActiveRecorderCustody} {request : RecorderCustodyStartRequest}
    (hrequest : request.recorder = a.request) (hcaptured : Captured host request c) (stoppedAt : UnixMs)
    (archive : RecorderArchive) (io : StopIo) (files : ProofFiles) :
    (∃ e, finishCustodyProof host c (recordedReceipt host a.request a.manifest stoppedAt archive) archive io files =
        (.error e, files)) ∨
      ∃ proof target, ProofBinds host a c stoppedAt archive proof ∧ Assoc.get target files = none ∧
        (finishCustodyProof host c (recordedReceipt host a.request a.manifest stoppedAt archive) archive io files =
            (.ok proof, Assoc.insert target (.proof proof) files) ∨
          io.proof.writeFault.isSome ∧ io.proof.removeFault.isSome ∧
            ∃ e, finishCustodyProof host c (recordedReceipt host a.request a.manifest stoppedAt archive) archive io
              files = (.error e, Assoc.insert target .torn files)) := by
  unfold finishCustodyProof
  rw [Call.bind_apply]
  generalize hproof : (do
    let ports ← io.outside.ports
    let authority ← io.outside.authority
    proofOfStop host c (recordedReceipt host a.request a.manifest stoppedAt archive) archive ports authority
      io.outside.trustBundleFile io.outside.authorizationFile io.probe io.now) = built
  cases built with
  | error e => exact .inl ⟨e, rfl⟩
  | ok proof =>
    obtain ⟨ports, -, h⟩ := bind_eq_ok.mp hproof
    obtain ⟨authority, -, h⟩ := bind_eq_ok.mp h
    have hbinds := proofOfStop_ok hrequest hcaptured h
    dsimp only [Call.ofExcept]
    rw [Call.bind_apply]
    obtain ⟨e, he⟩ | ⟨target, hnone, hok | ⟨hwrite, hremove, e, he⟩⟩ :=
      writeCustodyProof_cases io.proof c.proofPath proof files
    · rw [he]
      exact .inl ⟨e, rfl⟩
    · rw [hok]
      exact .inr ⟨proof, target, hbinds, hnone, .inl rfl⟩
    · rw [he]
      exact .inr ⟨proof, target, hbinds, hnone, .inr ⟨hwrite, hremove, e, rfl⟩⟩

/-- What the custodied stop does: nothing, or it takes the recorder out of the slot and its thread ends. -/
theorem stopCustodiedBackgroundRecording_cases {r : RecorderRuntime} (hkept : RuntimeKept host r)
    (request : RecorderCustodyStopRequest) (now : ThreadEnd) (io : StopIo) :
    (∃ e, stopCustodiedBackgroundRecording host request now io r = (.error e, r)) ∨
      ∃ a c, r.active = some a ∧ a.custody = some c ∧
        ((∃ e, stopCustodiedBackgroundRecording host request now io r = (.error e, (joinRecorder a now r).2)) ∨
          ∃ stoppedAt archive proof target, (joinRecorder a now r).1 = .returned (.ok (stoppedAt, archive)) ∧
            ProofBinds host a c stoppedAt archive proof ∧ Assoc.get target r.files = none ∧
            (stopCustodiedBackgroundRecording host request now io r =
                (.ok proof, { (joinRecorder a now r).2 with files := Assoc.insert target (.proof proof) r.files }) ∨
              io.proof.writeFault.isSome ∧ io.proof.removeFault.isSome ∧
                ∃ e, stopCustodiedBackgroundRecording host request now io r =
                  (.error e, { (joinRecorder a now r).2 with files := Assoc.insert target .torn r.files }))) := by
  unfold stopCustodiedBackgroundRecording
  cases ha : r.active with
  | none => exact .inl ⟨_, rfl⟩
  | some a =>
    dsimp only
    cases hc : a.custody with
    | none => exact .inl ⟨_, rfl⟩
    | some c =>
      dsimp only
      cases hrequest : validateCustodyStopRequest request c with
      | error e => exact .inl ⟨e, rfl⟩
      | ok u =>
        refine .inr ⟨a, c, rfl, hc, ?_⟩
        dsimp only
        cases hended : (joinRecorder a now r).1 with
        | panicked => exact .inl ⟨_, rfl⟩
        | returned recorded =>
          cases recorded with
          | error e => exact .inl ⟨_, rfl⟩
          | ok p =>
            obtain ⟨stoppedAt, archive⟩ := p
            obtain ⟨start, hstart, hcaptured⟩ := hkept.captured a ha c hc
            have hfiles : (joinRecorder a now r).2.files = r.files := rfl
            dsimp only [ThreadEnd.recorded]
            rw [hfiles]
            obtain ⟨e, he⟩ | ⟨proof, target, hbinds, hnone, hok | ⟨hwrite, hremove, e, he⟩⟩ :=
              finishCustodyProof_cases hstart hcaptured stoppedAt archive io r.files
            · rw [he]
              exact .inl ⟨_, rfl⟩
            · rw [hok]
              exact .inr ⟨stoppedAt, archive, proof, target, rfl, hbinds, hnone, .inl rfl⟩
            · rw [he]
              exact .inr ⟨stoppedAt, archive, proof, target, rfl, hbinds, hnone, .inr ⟨hwrite, hremove, _, rfl⟩⟩

theorem RuntimeKept.endThread {r : RecorderRuntime} (h : RuntimeKept host r) (id : ℕ) (ended : ThreadEnd) :
    RuntimeKept host (endThread id ended r) := by
  refine ⟨?_, h.captured⟩
  refine Eq.trans ?_ h.threads
  change (r.threads.map _).map RecorderThread.id = _
  rw [List.map_map]
  refine List.map_congr_left fun thread _ => ?_
  simp only [Function.comp_apply]
  split_ifs <;> rfl

/-- **Every event keeps the runtime in order.** -/
theorem RuntimeKept.step {r : RecorderRuntime} (h : RuntimeKept host r) (event : RecorderEvent) :
    RuntimeKept host (recorderStep host event r).2 := by
  cases event with
  | start hardwareEnabled ports request io =>
    simp only [recorderStep]
    obtain ⟨e, he⟩ | hlocked := startBackgroundRecording_cases hardwareEnabled ports request io r
    · rw [he]
      exact h
    · rw [hlocked]
      obtain ⟨e, he⟩ | ⟨hnone, manifest, hok⟩ :=
        startRecorderWithPortLocked_cases request true none io r
      · rw [he]
        exact h
      · rw [hok]
        exact h.started hnone fun c hc => absurd hc (Option.not_mem_none c)
  | startCustodied hardwareEnabled request outside probe io =>
    simp only [recorderStep]
    obtain ⟨e, he⟩ | ⟨c, hcaptured, hlocked⟩ :=
      startCustodiedBackgroundRecording_cases hardwareEnabled request outside probe io r
    · rw [he]
      exact h
    · rw [hlocked]
      obtain ⟨e, he⟩ | ⟨hnone, manifest, hok⟩ :=
        startRecorderWithPortLocked_cases request.recorder true (some c) io r
      · rw [he]
        exact h
      · rw [hok]
        refine h.started hnone fun c' hc' => ?_
        obtain rfl := Option.some.inj hc'
        exact ⟨request, rfl, hcaptured⟩
  | stop now =>
    simp only [recorderStep]
    obtain ⟨e, he⟩ | ⟨a, result, ha, hstop⟩ := stopRecorder_cases host now r
    · rw [he]
      exact h
    · rw [hstop]
      exact h.joined ha now r.files
  | stopCustodied request now io =>
    simp only [recorderStep]
    obtain ⟨e, he⟩ | ⟨a, c, ha, -, ⟨e, he⟩ | ⟨stoppedAt, archive, proof, target, -, -, -, hok | ⟨-, -, e, he⟩⟩⟩ :=
      stopCustodiedBackgroundRecording_cases h request now io
    · rw [he]
      exact h
    · rw [he]
      exact h.joined ha now r.files
    · rw [hok]
      exact h.joined ha now _
    · rw [he]
      exact h.joined ha now _
  | threadEnds id ended => exact h.endThread id ended

theorem runtimeKept_of_reachable {files : ProofFiles} {r : RecorderRuntime}
    (h : (recorderSystem host files).Reachable r) : RuntimeKept host r := by
  refine h.invariant ⟨rfl, fun a ha => absurd ha (Option.not_mem_none a)⟩ ?_
  rintro s event s' hs - rfl
  exact hs.step event

/-! ### Custody -/

/-- **What an event does to recorders and proofs.** -/
structure CustodyKept (host : CustodyHost) (r : RecorderRuntime) (event : RecorderEvent) : Prop where
  /-- At most one recorder thread is there. -/
  single : (recorderStep host event r).2.threads.length ≤ 1
  /-- A proof that was not there before stands for the recording that the event has stopped. -/
  written : ∀ path proof, Assoc.get path (recorderStep host event r).2.files = some (.proof proof) →
    Assoc.get path r.files = some (.proof proof) ∨
      (recorderStep host event r).1 = .ok () ∧ ∃ request now io a c stoppedAt archive,
        event = .stopCustodied request now io ∧ r.active = some a ∧ a.custody = some c ∧
        (joinRecorder a now r).1 = .returned (.ok (stoppedAt, archive)) ∧ ProofBinds host a c stoppedAt archive proof
  /-- A failure leaves the files as they are, unless a proof can neither be written nor removed again. -/
  failed : ∀ e, (recorderStep host event r).1 = .error e →
    (recorderStep host event r).2.files = r.files ∨
      ∃ request now io, event = .stopCustodied request now io ∧ io.proof.writeFault.isSome ∧ io.proof.removeFault.isSome
  /-- A failure leaves the slot as it is, or empty. -/
  released : ∀ e, (recorderStep host event r).1 = .error e →
    (recorderStep host event r).2.active = r.active ∨ (recorderStep host event r).2.active = none

/-- An event that leaves the files as they are, and the slot unless it succeeds or empties it. -/
theorem custodyKept_of_files {r : RecorderRuntime} {event : RecorderEvent} (h : RuntimeKept host r)
    (hfiles : (recorderStep host event r).2.files = r.files)
    (hslot : ∀ e, (recorderStep host event r).1 = .error e →
      (recorderStep host event r).2.active = r.active ∨ (recorderStep host event r).2.active = none) :
    CustodyKept host r event where
  single := (h.step event).single
  written path proof hget := .inl (by rw [← hfiles]; exact hget)
  failed _ _ := .inl hfiles
  released := hslot

/-- A command that fails without a trace. -/
theorem custodyKept_of_error {r : RecorderRuntime} {event : RecorderEvent} (h : RuntimeKept host r) {e : String}
    (he : recorderStep host event r = (.error e, r)) : CustodyKept host r event :=
  custodyKept_of_files h (by rw [he]) fun _ _ => .inl (by rw [he])

/-- A command that starts a recorder or fails. -/
theorem custodyKept_of_locked {r : RecorderRuntime} {event : RecorderEvent} (h : RuntimeKept host r)
    {request : RecorderRequest} {custody : Option ActiveRecorderCustody} {io : StartIo}
    (hlocked : recorderStep host event r = startRecorderWithPortLocked host request true custody io r) :
    CustodyKept host r event := by
  obtain ⟨e, he⟩ | ⟨-, manifest, hok⟩ := startRecorderWithPortLocked_cases request true custody io r
  · exact custodyKept_of_error h (hlocked.trans he)
  · rw [hok] at hlocked
    refine custodyKept_of_files h (by rw [hlocked]) fun e he => ?_
    rw [hlocked] at he
    cases he

/-- The custodied stop after its thread was joined. -/
theorem custodyKept_stopCustodied {r : RecorderRuntime} (h : RuntimeKept host r) (request : RecorderCustodyStopRequest)
    (now : ThreadEnd) (io : StopIo) : CustodyKept host r (.stopCustodied request now io) := by
  have hsingle := (h.step (.stopCustodied request now io)).single
  obtain ⟨e, he⟩ | ⟨a, c, ha, hc, ⟨e, he⟩ |
      ⟨stoppedAt, archive, proof, target, hended, hbinds, hnone, hok | ⟨hwrite, hremove, e, he⟩⟩⟩ :=
    stopCustodiedBackgroundRecording_cases h request now io
  · exact custodyKept_of_error h (by simp only [recorderStep, he]; rfl)
  · have hstep : recorderStep host (.stopCustodied request now io) r = (.error e, (joinRecorder a now r).2) := by
      simp only [recorderStep, he]
      rfl
    exact custodyKept_of_files h (by rw [hstep]; rfl) fun _ _ => .inr (by rw [hstep]; rfl)
  · have hstep : recorderStep host (.stopCustodied request now io) r =
        (.ok (), { (joinRecorder a now r).2 with files := Assoc.insert target (.proof proof) r.files }) := by
      simp only [recorderStep, hok]
      rfl
    refine ⟨hsingle, ?_, ?_, ?_⟩ <;> rw [hstep]
    · intro path proof' hget
      rw [Assoc.get_insert] at hget
      split_ifs at hget with hpath
      · obtain rfl : proof = proof' := by simpa using hget
        exact .inr ⟨rfl, request, now, io, a, c, stoppedAt, archive, rfl, ha, hc, hended, hbinds⟩
      · exact .inl hget
    · exact fun _ h' => by cases h'
    · exact fun _ h' => by cases h'
  · have hstep : recorderStep host (.stopCustodied request now io) r =
        (.error e, { (joinRecorder a now r).2 with files := Assoc.insert target .torn r.files }) := by
      simp only [recorderStep, he]
      rfl
    refine ⟨hsingle, ?_, ?_, ?_⟩ <;> rw [hstep]
    · intro path proof' hget
      rw [Assoc.get_insert] at hget
      split_ifs at hget with hpath
      · cases hget
      · exact .inl hget
    · exact fun _ _ => .inr ⟨request, now, io, rfl, hwrite, hremove⟩
    · exact fun _ _ => .inr rfl

theorem RuntimeKept.custodyKept {r : RecorderRuntime} (h : RuntimeKept host r) (event : RecorderEvent) :
    CustodyKept host r event := by
  cases event with
  | start hardwareEnabled ports request io =>
    obtain ⟨e, he⟩ | hlocked := startBackgroundRecording_cases hardwareEnabled ports request io r
    · exact custodyKept_of_error h he
    · exact custodyKept_of_locked h hlocked
  | startCustodied hardwareEnabled request outside probe io =>
    obtain ⟨e, he⟩ | ⟨c, -, hlocked⟩ :=
      startCustodiedBackgroundRecording_cases hardwareEnabled request outside probe io r
    · exact custodyKept_of_error h he
    · exact custodyKept_of_locked h hlocked
  | stop now =>
    obtain ⟨e, he⟩ | ⟨a, result, ha, hstop⟩ := stopRecorder_cases host now r
    · exact custodyKept_of_error h (by simp only [recorderStep, he]; rfl)
    · have hstep : (recorderStep host (.stop now) r).2 = (joinRecorder a now r).2 := by simp only [recorderStep, hstop]
      exact custodyKept_of_files h (by rw [hstep]; rfl) fun _ _ => .inr (by rw [hstep]; rfl)
  | stopCustodied request now io => exact custodyKept_stopCustodied h request now io
  | threadEnds id ended => exact custodyKept_of_files h rfl fun _ he => by cases he

/-! ### A later recording -/

/-- A valid request starts a recorder in an empty slot, if nothing outside fails. -/
theorem start_of_inactive {r : RecorderRuntime} (hnone : r.active = none) {ports : List SerialPortInfo}
    {request : RecorderRequest} {rigId : String} {now : UnixMs} {io : StartIo}
    (hport : requireEnumeratedSerialPort request.port ports = .ok ())
    (hrequest : validateRecorderRequest host.spell request true = .ok rigId) (htelemetry : io.telemetryPort = .ok ())
    (htimeout : io.setTimeout = .ok ()) (harchive : io.archive = .ok now) (hspawn : io.spawn = .ok ()) :
    (recorderStep host (.start true (.ok ports) request io) r).1 = .ok () := by
  simp [recorderStep, startBackgroundRecording, startRecorderWithPortLocked, hnone, hport, hrequest, htelemetry,
    htimeout, harchive, hspawn, bind, Except.bind]

/-- The stop that a recorder is stopped with: its own command, with its own authorization. -/
def ownStop (a : ActiveRecorder) (now : ThreadEnd) (io : StopIo) : RecorderEvent :=
  match a.custody with
  | none => .stop now
  | some c => .stopCustodied
      { authorizationId := c.verified.authorization.binding.authorizationId
        physicalConfirmation := recorderAdapterProbeConfirmation } now io

/-- The stop of a recorder empties the slot, whether it succeeds or not. -/
theorem RuntimeKept.ownStop_active {r : RecorderRuntime} (h : RuntimeKept host r) {a : ActiveRecorder}
    (ha : r.active = some a) (now : ThreadEnd) (io : StopIo) :
    (recorderStep host (ownStop a now io) r).2.active = none := by
  unfold ownStop
  cases hc : a.custody with
  | none =>
    simp only [recorderStep, stopRecorder, ha, hc]
    rfl
  | some c =>
    obtain ⟨start, -, hcaptured⟩ := h.captured a ha c hc
    obtain ⟨authority, hauthorized⟩ := hcaptured.authorized
    have hrequest : validateCustodyStopRequest
        { authorizationId := c.verified.authorization.binding.authorizationId
          physicalConfirmation := recorderAdapterProbeConfirmation } c = .ok () := by
      simp [validateCustodyStopRequest, hauthorized.tokens]
    simp only [recorderStep, stopCustodiedBackgroundRecording, ha, hc, hrequest]
    split <;> rfl

/-- Every valid request starts a recorder, when nothing outside fails. -/
def CanStart (host : CustodyHost) (r : RecorderRuntime) : Prop :=
  ∀ ports request rigId now io, requireEnumeratedSerialPort request.port ports = .ok () →
    validateRecorderRequest host.spell request true = .ok rigId → io.telemetryPort = .ok () → io.setTimeout = .ok () →
    io.archive = .ok now → io.spawn = .ok () → (recorderStep host (.start true (.ok ports) request io) r).1 = .ok ()

theorem canStart_of_inactive {r : RecorderRuntime} (hnone : r.active = none) : CanStart host r :=
  fun _ _ _ _ _ => start_of_inactive hnone

/-- **A later recording can start**, at once or after the stop of the recorder in the slot, however that ends. -/
structure Restartable (host : CustodyHost) (r : RecorderRuntime) : Prop where
  inactive : r.active = none → CanStart host r
  stopped : ∀ a, r.active = some a → ∀ now io, (recorderStep host (ownStop a now io) r).2.active = none ∧
    CanStart host (recorderStep host (ownStop a now io) r).2

theorem RuntimeKept.restartable {r : RecorderRuntime} (h : RuntimeKept host r) : Restartable host r where
  inactive := canStart_of_inactive
  stopped _ ha now io :=
    have hnone := h.ownStop_active ha now io
    ⟨hnone, canStart_of_inactive hnone⟩

/-- **Custody of recordings**: in every state that commands and thread ends lead to, every event does what `CustodyKept`
says, and a later recording can start. -/
theorem custody_kept (host : CustodyHost) (files : ProofFiles) (r : RecorderRuntime)
    (h : (recorderSystem host files).Reachable r) :
    (∀ event, CustodyKept host r event) ∧ Restartable host r :=
  have hkept := runtimeKept_of_reachable h
  ⟨hkept.custodyKept, hkept.restartable⟩

/-! ### A disk that fails twice -/

def benchKey : RecorderCustodyTrustKey where
  keyId := "acceptance-1"
  algorithm := "Ed25519"
  publicKeyHex := String.ofList (List.replicate 64 'c')
  notBeforeUnixMs := 1759000000000
  notAfterUnixMs := 1761000000000
  revokedAtUnixMs := none

def benchBundle : RecorderCustodyTrustBundle where
  schemaVersion := "forge-recorder-custody-trust-bundle/1.0.0"
  bundleId := "lab-1"
  purpose := "controlled-lab-recorder-custody"
  keys := [benchKey]

def benchDigest (c : Char) : String := String.ofList (List.replicate 64 c)

def benchBinding : RecorderCustodyAuthorizationBinding where
  authorizationId := "capture-7"
  purpose := "controlled-lab-recorder-custody"
  protectedRevision := String.ofList (List.replicate 40 'd')
  evidencePackSchemaVersion := "forge.external-acceptance.v1"
  evidencePackSha256 := benchDigest '1'
  requiredSignoffSetSha256 := benchDigest '2'
  referenceRigId := "ref_quad_kakute-h7-source-one-5in"
  artifactId := "hover-7"
  modelId := "quad"
  contractHash := benchDigest 'a'
  lockfileHash := benchDigest 'b'
  telemetrySourcePortSha256 := benchDigest '3'
  telemetryOsDescriptorSha256 := benchDigest '4'
  identitySourcePortSha256 := benchDigest '5'
  identityOsDescriptorSha256 := benchDigest '6'
  recorderAdapterProbeSchemaVersion := "forge-recorder-adapter-probe/1.0.0"
  recorderAdapterSchemaVersion := "forge-betaflight-msp-adapter/1.0.0"
  expectedIdentitySha256 := benchDigest '7'
  expectedDeviceUidSha256 := benchDigest '8'
  issuedAtUnixMs := 1759990000000
  notBeforeUnixMs := 1759990000000
  expiresAtUnixMs := 1760010000000
  captureConsentConfirmed := true
  noAutoArm := true
  cryptographicDeviceAttestation := false
  recordedDeviceAttested := false
  fieldSessionVerified := false
  sharingAuthorized := false
  trainingReuseAuthorized := false

def benchAuthorization : RecorderCustodyAuthorization where
  schemaVersion := "forge-recorder-custody-authorization/1.0.0"
  keyId := "acceptance-1"
  algorithm := "Ed25519"
  signatureHex := String.ofList (List.replicate 128 'e')
  binding := benchBinding

/-- The libraries, on the files, ports and archive of this capture. -/
def benchCustodyHost : CustodyHost where
  spell := benchHost.spell
  sha256Hex := benchHost.sha256Hex
  sha256 _ := benchDigest '9'
  sourcePortSha256 port := if port = "/dev/ttyACM0" then benchDigest '3' else benchDigest '5'
  transcriptSha256 _ := benchDigest 'f'
  parseTrustBundle _ := .ok benchBundle
  parseAuthorization _ := .ok benchAuthorization
  verifySignature _ _ := .ok ()
  verifyArchive _ := .ok
    { artifactId := "hover-7"
      referenceRigId := "ref_quad_kakute-h7-source-one-5in"
      contractHash := benchDigest 'a'
      lockfileHash := benchDigest 'b'
      sourcePortSha256 := benchManifest.sourcePortSha256
      startedAtUnixMs := 1760000000000
      stoppedAtUnixMs := 1760000001000 }

def benchStartRequest : RecorderCustodyStartRequest where
  recorder := benchRequest
  modelId := "quad"
  identityPort := "/dev/ttyUSB0"
  identityBaud := 115200
  identityPhysicalConfirmation := recorderAdapterProbeConfirmation
  authorizationPath := "/srv/custody/authorization.json"
  custodyProofPath := "/srv/custody/hover-7.json"

def benchAuthority : AuthorityIo where
  ports := .ok [⟨"/dev/ttyACM0", .ok (benchDigest '4')⟩, ⟨"/dev/ttyUSB0", .ok (benchDigest '6')⟩]
  authority := .ok
    { trustBundlePath := "/srv/custody/trust.json"
      trustBundleSha256 := benchDigest '9'
      protectedRevision := String.ofList (List.replicate 40 'd')
      nowUnixMs := 1760000000000 }
  trustBundleFile := .regular [0x7b, 0x7d]
  authorizationFile := .regular [0x7b, 0x7d]

def benchObservation : MspIdentityObservation where
  firmwareVersion := "4.5.1"
  flightControllerVariant := "BTFL"
  boardIdentifier := "KTH7"
  targetName := "KAKUTEH7"
  boardName := "Kakute H7"
  manufacturerId := "HBRO"
  deviceUidSha256 := benchDigest '8'
  identitySha256 := benchDigest '7'
  responseSha256 := benchDigest '0'
  packets := []

def benchProbe : ProbeIo where
  port := .ok ()
  pre := .ok benchObservation
  post := .ok benchObservation
  now := .ok 1760000000500

def benchStartIo : StartIo where
  telemetryPort := .ok ()
  setTimeout := .ok ()
  archive := .ok 1760000000000
  spawn := .ok ()

/-- The runtime while the capture runs. -/
def benchRunning : RecorderRuntime :=
  (recorderStep benchCustodyHost (.startCustodied true benchStartRequest benchAuthority benchProbe benchStartIo)
    (recorderSystem benchCustodyHost []).init).2

/-- A stop at which everything is in order, but for the disk of the proof. -/
def benchStop (writeFault removeFault : Option String) (archive : RecorderArchive) : RecorderEvent :=
  .stopCustodied { authorizationId := "capture-7", physicalConfirmation := recorderAdapterProbeConfirmation }
    (.returned (.ok (1760000001000, archive)))
    { outside := benchAuthority
      probe := benchProbe
      now := .ok 1760000002000
      proof := ⟨.ok "/srv/custody", .ok "/srv/captures/hover-7", none, writeFault, removeFault⟩ }

/-- The runtime after an event is reached. -/
theorem recorderStep_reachable {files : ProofFiles} {r after : RecorderRuntime}
    (h : (recorderSystem host files).Reachable r) (event : RecorderEvent) (hafter : after = (recorderStep host event r).2) :
    (recorderSystem host files).Reachable after :=
  .tail (l := event) h trivial hafter

/-- The runtime of the bench after an event. -/
def benchAfter (event : RecorderEvent) : RecorderRuntime :=
  (recorderStep benchCustodyHost event (recorderSystem benchCustodyHost []).init).2

theorem benchAfter_eq (event : RecorderEvent) :
    benchAfter event = (recorderStep benchCustodyHost event (recorderSystem benchCustodyHost []).init).2 := rfl

theorem benchRunning_eq_after : benchRunning =
    benchAfter (.startCustodied true benchStartRequest benchAuthority benchProbe benchStartIo) := rfl

theorem benchRunning_reachable : (recorderSystem benchCustodyHost []).Reachable benchRunning := by
  rw [benchRunning_eq_after]
  exact recorderStep_reachable .refl _ (benchAfter_eq _)

theorem utf8Length_replicate {c : Char} (hc : c.utf8Size = 1) (n : ℕ) : utf8Length (List.replicate n c) = n := by
  simp [utf8Length, hc]

/-- A letter of hexadecimal, however often. -/
theorem isLowerHex_replicate {c : Char} (hsize : c.utf8Size = 1)
    (hc : (('0' ≤ c && c ≤ '9') || ('a' ≤ c && c ≤ 'f')) = true) (n : ℕ) :
    isLowerHex (String.ofList (List.replicate n c)) n = true := by
  rw [isLowerHex, String.toList_ofList, utf8Length_replicate hsize]
  simp only [decide_true, Bool.true_and, List.all_eq_true]
  intro d hd
  rwa [List.eq_of_mem_replicate hd]

theorem requireHash_bench {c : Char} (hsize : c.utf8Size = 1)
    (hc : (('0' ≤ c && c ≤ '9') || ('a' ≤ c && c ≤ 'f')) = true) (name : String) :
    requireHash (name, benchDigest c) = .ok () := by
  rw [requireHash, benchDigest, isLowerHex_replicate hsize hc, if_neg (by decide)]

theorem hashes_bench : benchBinding.hashes.forM requireHash = .ok () := by
  refine forM_eq_ok.mpr fun field hfield => ?_
  have hdigest : ∃ name c, c ∈ ['1', '2', '3', '4', '5', '6', '7', '8', 'a', 'b'] ∧ field = (name, benchDigest c) := by
    simp only [RecorderCustodyAuthorizationBinding.hashes, List.mem_cons, List.not_mem_nil, or_false] at hfield
    rcases hfield with rfl | rfl | rfl | rfl | rfl | rfl | rfl | rfl | rfl | rfl
    all_goals exact ⟨_, _, by decide, rfl⟩
  obtain ⟨name, c, hc, rfl⟩ := hdigest
  have hhex : ∀ c ∈ ['1', '2', '3', '4', '5', '6', '7', '8', 'a', 'b'], c.utf8Size = 1 ∧
      (('0' ≤ c && c ≤ '9') || ('a' ≤ c && c ≤ 'f')) = true := by
    intro c hc
    simp only [List.mem_cons, List.not_mem_nil, or_false] at hc
    rcases hc with rfl | rfl | rfl | rfl | rfl | rfl | rfl | rfl | rfl | rfl <;> exact ⟨rfl, rfl⟩
  exact requireHash_bench (hhex c hc).1 (hhex c hc).2 name

theorem validateAuthorizationBinding_bench :
    validateAuthorizationBinding benchAuthorization benchBinding.inputs 1760000000000 = .ok () := by
  have hsignature : isLowerHex benchAuthorization.signatureHex 128 = true := isLowerHex_replicate (by decide) (by decide) _
  have hrevision : isLowerHex benchAuthorization.binding.protectedRevision 40 = true :=
    isLowerHex_replicate (by decide) (by decide) _
  have hhashes : benchAuthorization.binding.hashes.forM requireHash = .ok () := hashes_bench
  unfold validateAuthorizationBinding
  dsimp only
  rw [hsignature, hrevision, hhashes]
  decide +kernel

/-- What the authorization of the bench is verified as. -/
def benchVerified : VerifiedCustodyAuthorization where
  trustBundle := benchBundle
  trustBundleSha256 := benchDigest '9'
  authorizationSha256 := benchDigest '9'
  authorization := benchAuthorization

/-- The authority of the bench. -/
def benchDeployment : CustodyDeploymentAuthority where
  trustBundlePath := "/srv/custody/trust.json"
  trustBundleSha256 := benchDigest '9'
  protectedRevision := String.ofList (List.replicate 40 'd')
  nowUnixMs := 1760000000000

def benchPorts : List SerialPortInfo := [⟨"/dev/ttyACM0", .ok (benchDigest '4')⟩, ⟨"/dev/ttyUSB0", .ok (benchDigest '6')⟩]

/-- What the checks say of the bench. -/
structure BenchChecks : Prop where
  startRequest : validateCustodyStartRequest benchCustodyHost.spell benchStartRequest = .ok ()
  recorder : validateRecorderRequest benchCustodyHost.spell benchStartRequest.recorder true =
    .ok "ref_quad_kakute-h7-source-one-5in"
  telemetryPort : enumeratedPortDescriptorSha256 benchPorts "/dev/ttyACM0" "telemetry" = .ok (benchDigest '4')
  identityPort : enumeratedPortDescriptorSha256 benchPorts "/dev/ttyUSB0" "identity" = .ok (benchDigest '6')
  trust : readRegularBounded benchDeployment.trustBundlePath (64 * 1024) "custody trust bundle" (.regular [0x7b, 0x7d]) =
    .ok [0x7b, 0x7d]
  authorization : readRegularBounded "/srv/custody/authorization.json" (128 * 1024) "custody authorization"
    (.regular [0x7b, 0x7d]) = .ok [0x7b, 0x7d]
  bundle : validateTrustBundle benchBundle = .ok ()
  key : benchBundle.keys.find? (fun key => key.keyId = benchAuthorization.keyId) = some benchKey
  now : validateKeyAt benchKey benchDeployment.nowUnixMs = .ok ()
  probe : ((probeRecorderAdapterWithPort benchCustodyHost (custodyProbeRequest "/dev/ttyUSB0" 115200) true
    (benchDigest '6') benchProbe).toOption.map fun probe => (validateCustodyProbe probe benchAuthorization "start",
      validateCustodyProbe probe benchAuthorization "stop")) = some (.ok (), .ok ())
  stopToken : validCustodyToken "capture-7" = true
  absolute : isAbsolute "/srv/custody/hover-7.json" = true
  joined : joinFileName "/srv/custody" "/srv/custody/hover-7.json" = .ok "/srv/custody/hover-7.json"
  outside : startsWith "/srv/custody/hover-7.json" "/srv/captures/hover-7" = false

theorem benchChecks : BenchChecks where
  startRequest := by decide +kernel
  recorder := by decide +kernel
  telemetryPort := by decide +kernel
  identityPort := by decide +kernel
  trust := by decide +kernel
  authorization := by decide +kernel
  bundle := by decide +kernel
  key := by decide +kernel
  now := by decide +kernel
  probe := by decide +kernel
  stopToken := by decide +kernel
  absolute := by decide +kernel
  joined := by decide +kernel
  outside := by decide +kernel

theorem loadAndVerify_bench : loadAndVerifyAuthorization benchCustodyHost benchDeployment
    "/srv/custody/authorization.json" (.regular [0x7b, 0x7d]) (.regular [0x7b, 0x7d]) benchBinding.inputs =
      .ok benchVerified := by
  have hpin : isLowerHex benchDeployment.trustBundleSha256 64 = true := isLowerHex_replicate (by decide) (by decide) _
  obtain ⟨-, -, -, -, htrust, hauthorization, hbundle, hkey, hnow, -⟩ := benchChecks
  rw [loadAndVerifyAuthorization, hpin, if_neg (by decide)]
  refine bind_eq_ok.mpr ⟨_, htrust, ?_⟩
  have hhash : benchCustodyHost.sha256 [0x7b, 0x7d] = benchDeployment.trustBundleSha256 := rfl
  rw [if_neg (not_not.mpr hhash)]
  refine bind_eq_ok.mpr ⟨benchBundle, rfl, ?_⟩
  refine check_eq_ok.mpr ⟨hbundle, bind_eq_ok.mpr ⟨_, hauthorization, bind_eq_ok.mpr ⟨benchAuthorization, rfl, ?_⟩⟩⟩
  refine check_eq_ok.mpr ⟨validateAuthorizationBinding_bench, ?_⟩
  rw [hkey]
  exact check_eq_ok.mpr ⟨hnow, rfl⟩

/-- The probe of the bench gives the same record at the start and at the stop, and both accept it. -/
theorem probe_bench : ∃ probe, probeRecorderAdapterWithPort benchCustodyHost (custodyProbeRequest "/dev/ttyUSB0" 115200)
    true (benchDigest '6') benchProbe = .ok probe ∧
      validateCustodyProbe probe benchAuthorization "start" = .ok () ∧
      validateCustodyProbe probe benchAuthorization "stop" = .ok () := by
  obtain ⟨probe, hprobe, hvalid⟩ := Option.map_eq_some_iff.mp benchChecks.probe
  exact ⟨probe, toOption_eq_some_iff.mp hprobe, congrArg Prod.fst hvalid, congrArg Prod.snd hvalid⟩

/-- The custody of the recording of the bench, with the probe at its start. -/
def benchCustody (preProbe : RecorderAdapterProbe) : ActiveRecorderCustody where
  verified := benchVerified
  authorizationPath := "/srv/custody/authorization.json"
  archivePath := "/srv/captures/hover-7"
  proofPath := "/srv/custody/hover-7.json"
  modelId := "quad"
  telemetryPort := "/dev/ttyACM0"
  identityPort := "/dev/ttyUSB0"
  identityBaud := 115200
  telemetryStartOsDescriptorSha256 := benchDigest '4'
  identityStartOsDescriptorSha256 := benchDigest '6'
  preProbe := preProbe

theorem inputs_bench : custodyBindingInputs benchCustodyHost benchDeployment "hover-7" "quad"
    (String.ofList (List.replicate 64 'a')) (String.ofList (List.replicate 64 'b')) "/dev/ttyACM0" "/dev/ttyUSB0"
    (benchDigest '4') (benchDigest '6') = benchBinding.inputs := by
  have hport (port : String) : benchCustodyHost.sourcePortSha256 port =
    if port = "/dev/ttyACM0" then benchDigest '3' else benchDigest '5' := rfl
  have htelemetry : benchCustodyHost.sourcePortSha256 "/dev/ttyACM0" = benchDigest '3' := by rw [hport, if_pos rfl]
  have hidentity : benchCustodyHost.sourcePortSha256 "/dev/ttyUSB0" = benchDigest '5' := by
    rw [hport, if_neg (by decide)]
  rw [custodyBindingInputs, htelemetry, hidentity]
  rfl

theorem custodyOfStart_bench {probe : RecorderAdapterProbe}
    (hprobe : probeRecorderAdapterWithPort benchCustodyHost (custodyProbeRequest "/dev/ttyUSB0" 115200)
      true (benchDigest '6') benchProbe = .ok probe)
    (hvalid : validateCustodyProbe probe benchAuthorization "start" = .ok ()) :
    custodyOfStart benchCustodyHost benchStartRequest benchPorts benchDeployment (.regular [0x7b, 0x7d])
      (.regular [0x7b, 0x7d]) benchProbe (.ok ()) = .ok (benchCustody probe) := by
  refine check_eq_ok.mpr ⟨benchChecks.startRequest, bind_eq_ok.mpr ⟨_, benchChecks.telemetryPort, ?_⟩⟩
  refine bind_eq_ok.mpr ⟨_, benchChecks.identityPort, ?_⟩
  refine bind_eq_ok.mpr ⟨benchVerified, ?_, ?_⟩
  · exact (congrArg (loadAndVerifyAuthorization _ _ _ _ _) inputs_bench).trans loadAndVerify_bench
  · exact check_eq_ok.mpr ⟨rfl, bind_eq_ok.mpr ⟨probe, hprobe, check_eq_ok.mpr ⟨hvalid, rfl⟩⟩⟩

/-- The manifest of the recording of the bench. -/
def benchStarted : RecorderArchiveManifest :=
  createRecorderArchive ⟨benchCustodyHost.spell, benchCustodyHost.sha256Hex, fun _ => .error ""⟩ benchRequest
    "ref_quad_kakute-h7-source-one-5in" 1760000000000

theorem startRecorder_bench (custody : ActiveRecorderCustody) :
    startRecorderWithPortLocked benchCustodyHost benchStartRequest.recorder true (some custody) benchStartIo
      ⟨none, [], 0, []⟩ = (.ok (), ⟨some ⟨0, benchRequest, benchStarted, some custody⟩, [⟨0, none⟩], 1, []⟩) := by
  rw [startRecorderWithPortLocked, benchChecks.recorder]
  rfl

/-- A start whose checks pass starts the recorder. -/
theorem startCustodied_of_checks {host : CustodyHost} {request : RecorderCustodyStartRequest} {outside : AuthorityIo}
    {probe : ProbeIo} {io : StartIo} {runtime : RecorderRuntime} {ports : List SerialPortInfo}
    {authority : CustodyDeploymentAuthority} {custody : ActiveRecorderCustody}
    (hrequest : validateCustodyStartRequest host.spell request = .ok ()) (hnone : runtime.active = none)
    (hports : outside.ports = .ok ports) (hauthority : outside.authority = .ok authority)
    (hcustody : custodyOfStart host request ports authority outside.trustBundleFile outside.authorizationFile probe
      io.telemetryPort = .ok custody) :
    startCustodiedBackgroundRecording host true request outside probe io runtime =
      startRecorderWithPortLocked host request.recorder true (some custody) io runtime := by
  simp [startCustodiedBackgroundRecording, hrequest, hnone, hports, hauthority, hcustody, bind, Except.bind]

theorem benchRunning_eq {probe : RecorderAdapterProbe}
    (hprobe : probeRecorderAdapterWithPort benchCustodyHost (custodyProbeRequest "/dev/ttyUSB0" 115200)
      true (benchDigest '6') benchProbe = .ok probe)
    (hvalid : validateCustodyProbe probe benchAuthorization "start" = .ok ()) :
    benchRunning =
      { active := some ⟨0, benchRequest, benchStarted, some (benchCustody probe)⟩, threads := [⟨0, none⟩], spawned := 1
        files := [] } := by
  have hrequest := benchChecks.startRequest
  have hcustody : custodyOfStart benchCustodyHost benchStartRequest benchPorts benchDeployment
    benchAuthority.trustBundleFile benchAuthority.authorizationFile benchProbe benchStartIo.telemetryPort =
      .ok (benchCustody probe) := custodyOfStart_bench hprobe hvalid
  have hinit : (recorderSystem benchCustodyHost []).init = ⟨none, [], 0, []⟩ := rfl
  have hstart : recorderStep benchCustodyHost (.startCustodied true benchStartRequest benchAuthority benchProbe benchStartIo)
      ⟨none, [], 0, []⟩ =
        (.ok (), ⟨some ⟨0, benchRequest, benchStarted, some (benchCustody probe)⟩, [⟨0, none⟩], 1, []⟩) := by
    rw [recorderStep, @startCustodied_of_checks benchCustodyHost benchStartRequest benchAuthority benchProbe benchStartIo
      ⟨none, [], 0, []⟩ benchPorts benchDeployment _ hrequest rfl rfl rfl hcustody, startRecorder_bench]
  rw [benchRunning_eq_after, benchAfter_eq, hinit, hstart]

/-- A proof that can neither be written nor removed again is torn. -/
theorem writeCustodyProof_torn {io : ProofIo} {path target write remove : String} {proof : RecorderCustodyProof}
    (htarget : proofTarget io path proof = .ok target) (hopen : io.openFault = none) (hwrite : io.writeFault = some write)
    (hremove : io.removeFault = some remove) :
    ∃ e, writeCustodyProof io path proof [] = (.error e, [(target, .torn)]) := by
  have hcreate : ∃ e, createProofFile io target proof [] = (.error e, [(target, .torn)]) := by
    rw [createProofFile, hopen, hwrite, hremove]
    exact ⟨_, rfl⟩
  obtain ⟨e, he⟩ := hcreate
  exact ⟨e, Call.bind_eq_error.mpr (.inr ⟨target, [], by rw [htarget]; rfl, he⟩)⟩

/-- A custodied stop whose proof can neither be written nor removed again. -/
theorem stopCustodied_torn {host : CustodyHost} {request : RecorderCustodyStopRequest} {io : StopIo}
    {runtime : RecorderRuntime} {active : ActiveRecorder} {custody : ActiveRecorderCustody}
    {ports : List SerialPortInfo} {authority : CustodyDeploymentAuthority} {proof : RecorderCustodyProof}
    {now : UnixMs} {archive : RecorderArchive} {write remove target : String}
    (hactive : runtime.active = some active) (hcustody : active.custody = some custody)
    (hrequest : validateCustodyStopRequest request custody = .ok ())
    (hjoined : (joinRecorder active (.returned (.ok (now, archive))) runtime).1 = .returned (.ok (now, archive)))
    (hports : io.outside.ports = .ok ports) (hauthority : io.outside.authority = .ok authority)
    (hproof : proofOfStop host custody (recordedReceipt host active.request active.manifest now archive) archive ports
      authority io.outside.trustBundleFile io.outside.authorizationFile io.probe io.now = .ok proof)
    (htarget : proofTarget io.proof custody.proofPath proof = .ok target) (hfiles : runtime.files = [])
    (hopen : io.proof.openFault = none) (hwrite : io.proof.writeFault = some write)
    (hremove : io.proof.removeFault = some remove) :
    ∃ e after, stopCustodiedBackgroundRecording host request (.returned (.ok (now, archive))) io runtime =
      (.error e, after) ∧ Assoc.get target after.files = some .torn := by
  obtain ⟨e, he⟩ := writeCustodyProof_torn htarget hopen hwrite hremove
  have hkept : (joinRecorder active (.returned (.ok (now, archive))) runtime).2.files = [] := hfiles
  have hfinished : finishCustodyProof host custody (recordedReceipt host active.request active.manifest now archive)
      archive io [] = (.error e, [(target, .torn)]) := by
    refine Call.bind_eq_error.mpr (.inr ⟨proof, [], ?_, Call.bind_eq_error.mpr (.inl he)⟩)
    rw [hports, hauthority]
    exact congrArg (·, []) hproof
  rw [stopCustodiedBackgroundRecording, hactive]
  dsimp only
  rw [hcustody]
  dsimp only
  rw [hrequest]
  dsimp only
  rw [hjoined]
  dsimp only [ThreadEnd.recorded]
  rw [hkept, hfinished]
  exact ⟨_, _, rfl, if_pos rfl⟩

theorem proofOfStop_bench {probe : RecorderAdapterProbe}
    (hprobe : probeRecorderAdapterWithPort benchCustodyHost (custodyProbeRequest "/dev/ttyUSB0" 115200)
      true (benchDigest '6') benchProbe = .ok probe)
    (hvalid : validateCustodyProbe probe benchAuthorization "stop" = .ok ()) (archive : RecorderArchive) :
    proofOfStop benchCustodyHost (benchCustody probe)
      (recordedReceipt benchCustodyHost benchRequest benchStarted 1760000001000 archive) archive benchPorts benchDeployment
      (.regular [0x7b, 0x7d]) (.regular [0x7b, 0x7d]) benchProbe (.ok 1760000002000) =
        .ok (custodyProof benchCustodyHost (benchCustody probe)
          (recordedReceipt benchCustodyHost benchRequest benchStarted 1760000001000 archive) archive (benchDigest '4')
          (benchDigest '6') probe 1760000002000) := by
  have hsame : requireSameRecording
      { artifactId := "hover-7", referenceRigId := "ref_quad_kakute-h7-source-one-5in", contractHash := benchDigest 'a'
        lockfileHash := benchDigest 'b', sourcePortSha256 := benchManifest.sourcePortSha256
        startedAtUnixMs := 1760000000000, stoppedAtUnixMs := 1760000001000 }
      (recordedReceipt benchCustodyHost benchRequest benchStarted 1760000001000 archive) = .ok () := by
    have hport : benchManifest.sourcePortSha256 = benchStarted.sourcePortSha256 := rfl
    rw [requireSameRecording, hport, if_neg]
    rintro (h | h | h | h | h | h | h)
    all_goals exact h rfl
  refine bind_eq_ok.mpr ⟨_, benchChecks.telemetryPort, bind_eq_ok.mpr ⟨_, benchChecks.identityPort, ?_⟩⟩
  rw [if_neg (by simp [benchCustody])]
  refine bind_eq_ok.mpr ⟨benchVerified, ?_, ?_⟩
  · exact (congrArg (loadAndVerifyAuthorization _ _ _ _ _) inputs_bench).trans loadAndVerify_bench
  rw [if_neg (by simp [benchCustody])]
  refine check_eq_ok.mpr ⟨rfl, bind_eq_ok.mpr ⟨probe, hprobe, check_eq_ok.mpr ⟨hvalid, ?_⟩⟩⟩
  rw [if_neg (by simp [benchCustody])]
  exact bind_eq_ok.mpr ⟨_, rfl, check_eq_ok.mpr ⟨hsame, rfl⟩⟩

/-- **A stop of the bench on a full disk** fails and leaves a torn file, whatever was recorded. -/
theorem benchStop_torn (archive : RecorderArchive) :
    ∃ e after, recorderStep benchCustodyHost
      (benchStop (some "No space left on device") (some "Read-only file system") archive) benchRunning = (.error e, after) ∧
        Assoc.get "/srv/custody/hover-7.json" after.files = some .torn := by
  obtain ⟨probe, hprobe, hstart, hstop⟩ := probe_bench
  have hrequest : validateCustodyStopRequest
      { authorizationId := "capture-7", physicalConfirmation := recorderAdapterProbeConfirmation } (benchCustody probe) =
        .ok () := by
    simp [validateCustodyStopRequest, benchChecks.stopToken, benchCustody, benchVerified, benchAuthorization, benchBinding]
  have htarget (proof : RecorderCustodyProof) (hschema : proof.schemaVersion = "forge-recorder-custody-proof/1.0.0")
      (htrust : proof.trustBundleSchemaVersion = "forge-recorder-custody-trust-bundle/1.0.0")
      (hauthorization : proof.authorizationSchemaVersion = "forge-recorder-custody-authorization/1.0.0") :
      proofTarget ⟨.ok "/srv/custody", .ok "/srv/captures/hover-7", none, some "No space left on device",
        some "Read-only file system"⟩ "/srv/custody/hover-7.json" proof = .ok "/srv/custody/hover-7.json" := by
    rw [proofTarget, benchChecks.absolute, if_neg (by decide)]
    refine bind_eq_ok.mpr ⟨_, rfl, bind_eq_ok.mpr ⟨_, rfl, bind_eq_ok.mpr ⟨_, benchChecks.joined, ?_⟩⟩⟩
    rw [benchChecks.outside, if_neg (by decide), hschema, htrust, hauthorization, if_neg (by simp)]
  have hstopped := @stopCustodied_torn benchCustodyHost
    { authorizationId := "capture-7", physicalConfirmation := recorderAdapterProbeConfirmation }
    { outside := benchAuthority
      probe := benchProbe
      now := .ok 1760000002000
      proof := ⟨.ok "/srv/custody", .ok "/srv/captures/hover-7", none, some "No space left on device",
        some "Read-only file system"⟩ }
    ⟨some ⟨0, benchRequest, benchStarted, some (benchCustody probe)⟩, [⟨0, none⟩], 1, []⟩
    ⟨0, benchRequest, benchStarted, some (benchCustody probe)⟩ (benchCustody probe) benchPorts benchDeployment _
    1760000001000 archive _ _ _ rfl rfl hrequest rfl rfl rfl (proofOfStop_bench hprobe hstop archive)
    (htarget _ rfl rfl rfl) rfl rfl rfl rfl
  obtain ⟨e, after, hfailed, hfile⟩ := hstopped
  rw [benchRunning_eq hprobe hstart, benchStop, recorderStep, hfailed]
  exact ⟨e, after, rfl, hfile⟩

/-- The start of a custodied capture writes no file. -/
theorem startCustodied_files (hardwareEnabled : Bool) (request : RecorderCustodyStartRequest) (outside : AuthorityIo)
    (probe : ProbeIo) (io : StartIo) (r : RecorderRuntime) :
    (startCustodiedBackgroundRecording host hardwareEnabled request outside probe io r).2.files = r.files := by
  obtain ⟨e, he⟩ | ⟨c, -, hlocked⟩ := @startCustodiedBackgroundRecording_cases host hardwareEnabled request outside
    probe io r
  · rw [he]
  · rw [hlocked]
    obtain ⟨e, he⟩ | ⟨-, manifest, hok⟩ := @startRecorderWithPortLocked_cases host request.recorder true
      (some c) io r
    · rw [he]
    · rw [hok]

/-- The bench has no file when its capture runs. -/
theorem benchRunning_files : benchRunning.files = [] := by
  rw [benchRunning_eq_after, benchAfter_eq, recorderStep, startCustodied_files]
  rfl

theorem custody_kept_bench :
    (∀ event, CustodyKept benchCustodyHost benchRunning event) ∧ Restartable benchCustodyHost benchRunning :=
  custody_kept benchCustodyHost [] benchRunning benchRunning_reachable

/-- **The exception**: the recording completes, its proof can neither be written nor removed again, and the stop fails
with a file where there was none. -/
theorem torn_proof_left : (recorderSystem benchCustodyHost []).Reachable benchRunning ∧ benchRunning.files = [] ∧
    ∃ archive, recordSerialStream benchHost benchRequest benchManifest 1760000001000 benchTurns = some (.ok archive) ∧
      ∃ event e after, recorderStep benchCustodyHost event benchRunning = (.error e, after) ∧
        Assoc.get "/srv/custody/hover-7.json" after.files = some .torn := by
  obtain ⟨archive, hr⟩ := benchStream_ok
  exact ⟨benchRunning_reachable, benchRunning_files, archive, hr,
    benchStop (some "No space left on device") (some "Read-only file system") archive, benchStop_torn archive⟩

end Forge.Desktop
