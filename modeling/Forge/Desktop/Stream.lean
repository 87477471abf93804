import Forge.Desktop.Recorder

/-!
# Recording a serial stream

The loop that reads the port until it is told to stop, and the files of the archive that it
completes (`record_serial_stream`, `finalize_replay_file`). A line is cut where a newline byte
stands, whatever the reads of the port were: **`record_chunking`** says that how the operating
system cuts the bytes into reads, and how often it has none, does not show in the archive.
-/

namespace Forge.Desktop

/-! ### Reading -/

/-- What a read of the port returns. -/
inductive PortRead where
  /-- Bytes, or no byte at all. -/
  | data (chunk : List UInt8)
  /-- The kinds of error after which the loop goes on. -/
  | timeout
  | failed (message : String)
deriving DecidableEq

/-- The bytes that a read brings. -/
def PortRead.bytes : PortRead → List UInt8
  | .data chunk => chunk
  | _ => []

/-- The line that is being read, and the recording so far. -/
structure StreamState where
  pending : List UInt8 := []
  recording : Recording := {}

/-- `(request.sample_rate_hz / 4).max(1)` -/
def indexStride (request : RecorderRequest) : ℕ := max (request.sampleRateHz.toNat / 4) 1

/-- The line without the carriage return before the newline. -/
def chomp (pending : List UInt8) : List UInt8 :=
  if pending.getLast? = some 0x0D then pending.dropLast else pending

/-- The turn of the loop over the bytes of a chunk. -/
def readByte (host : Host) (request : RecorderRequest) (s : StreamState) (byte : UInt8) : Except String StreamState :=
  if byte = 0x0A then do
    let recording ← appendRecorderFrame host request (indexStride request) s.recording (chomp s.pending)
    return { pending := [], recording }
  else if maxRecorderFrameBytes < s.pending.length + 1 then
    .error s!"recorder telemetry frame exceeds {maxRecorderFrameBytes} bytes"
  else .ok { s with pending := s.pending ++ [byte] }

/-- The loop of `record_serial_stream`. Every turn looks for the stop signal, if it has not come, and
then reads; without a further turn the loop is still running. -/
def serialLoop (host : Host) (request : RecorderRequest) :
    Bool → StreamState → List (Bool × PortRead) → Option (Except String StreamState)
  | _, _, [] => none
  | stopping, s, (signal, read) :: turns =>
    let stopping := stopping || signal
    match read with
    | .data [] => if stopping then some (.ok s) else serialLoop host request stopping s turns
    | .data chunk =>
      match chunk.foldlM (readByte host request) s with
      | .error e => some (.error e)
      | .ok s => serialLoop host request stopping s turns
    | .timeout => if stopping then some (.ok s) else serialLoop host request stopping s turns
    | .failed message => some (.error s!"read recorder serial stream: {message}")

/-! ### Completing an archive -/

/-- `BufRead::lines` -/
def lines (file : List Char) : List (List Char) :=
  let parts := file.splitOn '\n'
  let parts := if parts.getLast? = some [] then parts.dropLast else parts
  parts.map fun line => if line.getLast? = some '\r' then line.dropLast else line

/-- The member `recorder` of the header of a replay. `json!` builds ordered maps. -/
def replayRecorder (request : RecorderRequest) (manifest : RecorderArchiveManifest) : Tree (List Char) (List Char) :=
  recordTree [("archiveSchemaVersion", text "forge-recorder-archive/1.0.0"), ("artifactId", text request.artifactId),
    ("captureConsentConfirmed", flag true), ("captureMaturity", text "local-serial-integration"),
    ("noAutoArm", flag true), ("recordedDeviceAttested", flag false), ("referenceRigId", text manifest.referenceRigId),
    ("sourceKind", text "serial-jsonl"), ("sourcePortSha256", text manifest.sourcePortSha256)]

/-- The header of a replay. -/
def replayHeader (spell : Spelling) (request : RecorderRequest) (manifest : RecorderArchiveManifest) :
    Tree (List Char) (List Char) :=
  recordTree [("contractHash", text request.contractHash), ("env", request.environment.tokens spell),
    ("lockfileHash", text request.lockfileHash), ("recorder", replayRecorder request manifest),
    ("seed", natural request.seed.toNat)]

/-- `recorder_replay_prefix` -/
def recorderReplayPrefix (spell : Spelling) (request : RecorderRequest) (manifest : RecorderArchiveManifest) :
    List Char :=
  "\x7b\"schemaVersion\":".toList ++ stringToken "1.0.0" ++ ",\"header\":".toList ++
    (replayHeader spell request manifest).render ++ ",\"frames\":[".toList

/-- `finalize_replay_file` -/
def finalizeReplayFile (spell : Spelling) (request : RecorderRequest) (manifest : RecorderArchiveManifest)
    (frames : List Char) : List Char :=
  recorderReplayPrefix spell request manifest ++ [','].intercalate (lines frames) ++ "]\x7d\n".toList

/-- The five files of an archive, with what the receipt says of the capture. -/
structure RecorderArchive where
  manifest : List Char
  frames : List Char
  index : List Char
  replay : List Char
  receipt : List Char
  frameCount : ℕ
  durationS : Float

/-- The last index entry, if it is not in the index yet. -/
def finalIndexEntry (spell : Spelling) (progress : RecorderProgress) : List Char :=
  match progress.lastIndex with
  | some last =>
    if progress.lastIndexedSequence ≠ some last.sequence then recordLine (last.tree spell) else []
  | none => []

/-- The receipt of an archive with these files. -/
def stopReceipt (host : Host) (request : RecorderRequest) (manifest : RecorderArchiveManifest) (now : UnixMs)
    (progress : RecorderProgress) (frames index replay : List Char) : RecorderStopReceipt where
  artifactId := request.artifactId
  referenceRigId := manifest.referenceRigId
  contractHash := request.contractHash
  lockfileHash := request.lockfileHash
  startedAtUnixMs := manifest.startedAtUnixMs
  stoppedAtUnixMs := now
  frameCount := progress.frameCount
  durationS := progress.lastT.getD 0.0 - progress.firstT.getD 0.0
  frameFileSha256 := host.sha256Hex frames
  indexFileSha256 := host.sha256Hex index
  replayFileSha256 := host.sha256Hex replay
  sourcePortSha256 := manifest.sourcePortSha256

/-- What `record_serial_stream` does after its loop. -/
def completeRecording (host : Host) (request : RecorderRequest) (manifest : RecorderArchiveManifest) (now : UnixMs)
    (s : StreamState) : Except String RecorderArchive :=
  let progress := s.recording.progress
  if s.pending ≠ [] then .error "recorder stopped with an incomplete telemetry frame"
  else if progress.frameCount = 0 then .error "recorder cannot complete an empty telemetry archive"
  else do
    let entry := finalIndexEntry host.spell progress
    let _ ← checked (progress.indexBytes + utf8Length entry) "recorder index byte count overflow"
    let frames := s.recording.frames
    let index := s.recording.index ++ entry
    let replay := finalizeReplayFile host.spell request manifest frames
    let receipt := stopReceipt host request manifest now progress frames index replay
    return {
      manifest := newJson (manifest.tree host.spell)
      frames
      index
      replay
      receipt := newJson (receipt.tree host.spell)
      frameCount := receipt.frameCount
      durationS := receipt.durationS }

/-- `record_serial_stream`, with the turns of its loop and the time at its end. -/
def recordSerialStream (host : Host) (request : RecorderRequest) (manifest : RecorderArchiveManifest) (now : UnixMs)
    (turns : List (Bool × PortRead)) : Option (Except String RecorderArchive) :=
  (serialLoop host request false {} turns).map fun r => r.bind (completeRecording host request manifest now)

/-! ### Chunks -/

/-- The turns bring the bytes in reads of at most 4096, with timeouts and empty reads between them; the
signal to stop comes when there are no more. -/
structure Delivers (bytes : List UInt8) (turns : List (Bool × PortRead)) : Prop where
  split : ∃ (before : List PortRead) (after : List (Bool × PortRead)) (last : PortRead),
    turns = before.map (Prod.mk false) ++ (true, last) :: after ∧
    before.flatMap PortRead.bytes = bytes ∧ (last = .data [] ∨ last = .timeout) ∧
      ∀ r ∈ before, r = .timeout ∨ ∃ chunk, r = .data chunk ∧ chunk.length ≤ 4096

variable {host : Host} {request : RecorderRequest}

/-- **A read is a run of the loop over its bytes**, until the signal to stop. -/
theorem serialLoop_reads {before : List PortRead} {rest : List (Bool × PortRead)}
    (h : ∀ r ∈ before, r = .timeout ∨ ∃ chunk, r = .data chunk ∧ chunk.length ≤ 4096) (s : StreamState) :
    serialLoop host request false s (before.map (Prod.mk false) ++ rest) =
      match (before.flatMap PortRead.bytes).foldlM (readByte host request) s with
      | .error e => some (.error e)
      | .ok s => serialLoop host request false s rest := by
  induction before generalizing s with
  | nil => rfl
  | cons r before ih =>
    obtain ⟨hr, hbefore⟩ := List.forall_mem_cons.mp h
    rw [List.flatMap_cons, List.foldlM_append]
    rcases hr with rfl | ⟨chunk, rfl, -⟩
    · exact ih hbefore s
    · cases chunk with
      | nil => exact ih hbefore s
      | cons byte chunk =>
        rw [List.map_cons, List.cons_append, serialLoop]
        · simp only [Bool.or_false, PortRead.bytes]
          cases List.foldlM (readByte host request) s (byte :: chunk) with
          | error e => rfl
          | ok s => exact ih hbefore s
        · exact fun h => by cases h

/-- What is recorded when the signal to stop follows the last byte. -/
theorem recordSerialStream_delivers {bytes : List UInt8} {turns : List (Bool × PortRead)} (h : Delivers bytes turns)
    (manifest : RecorderArchiveManifest) (now : UnixMs) : recordSerialStream host request manifest now turns =
      some ((bytes.foldlM (readByte host request) {}).bind (completeRecording host request manifest now)) := by
  obtain ⟨before, after, last, rfl, rfl, hlast, hbefore⟩ := h.split
  rw [recordSerialStream, serialLoop_reads hbefore]
  cases (before.flatMap PortRead.bytes).foldlM (readByte host request) {} with
  | error e => rfl
  | ok s => rcases hlast with rfl | rfl <;> rfl

/-- The two archives differ at most in the time at which they were completed. -/
structure SameCapture (a b : RecorderArchive) : Prop where
  frames : a.frames = b.frames
  index : a.index = b.index
  replay : a.replay = b.replay
  frameCount : a.frameCount = b.frameCount
  durationS : a.durationS = b.durationS

/-- The time of completion does not decide whether an archive is completed, nor what it holds. -/
theorem completeRecording_agrees (manifest : RecorderArchiveManifest) (now now' : UnixMs) (s : StreamState) :
    (∃ e, completeRecording host request manifest now s = .error e ∧
        completeRecording host request manifest now' s = .error e) ∨
      ∃ a b, completeRecording host request manifest now s = .ok a ∧
        completeRecording host request manifest now' s = .ok b ∧ SameCapture a b := by
  unfold completeRecording
  dsimp only
  split_ifs with hpending hcount
  · exact .inl ⟨_, rfl, rfl⟩
  · exact .inl ⟨_, rfl, rfl⟩
  · cases checked (s.recording.progress.indexBytes + utf8Length (finalIndexEntry host.spell s.recording.progress))
      "recorder index byte count overflow" with
    | error e => exact .inl ⟨e, rfl, rfl⟩
    | ok n => exact .inr ⟨_, _, rfl, rfl, rfl, rfl, rfl, rfl, rfl⟩

/-- **Key result**: two ways of cutting the same bytes into reads end alike. -/
theorem record_chunking (host : Host) (request : RecorderRequest) (manifest : RecorderArchiveManifest)
    (now now' : UnixMs) (bytes : List UInt8) (turns turns' : List (Bool × PortRead)) (h : Delivers bytes turns)
    (h' : Delivers bytes turns') :
    (∃ e, recordSerialStream host request manifest now turns = some (.error e) ∧
        recordSerialStream host request manifest now' turns' = some (.error e)) ∨
      ∃ a b, recordSerialStream host request manifest now turns = some (.ok a) ∧
        recordSerialStream host request manifest now' turns' = some (.ok b) ∧ SameCapture a b := by
  rw [recordSerialStream_delivers h, recordSerialStream_delivers h']
  cases bytes.foldlM (readByte host request) {} with
  | error e => exact .inl ⟨e, rfl, rfl⟩
  | ok s =>
    rcases completeRecording_agrees manifest now now' s with ⟨e, he, he'⟩ | ⟨a, b, ha, hb, hab⟩
    · exact .inl ⟨e, congrArg some he, congrArg some he'⟩
    · exact .inr ⟨a, b, congrArg some ha, congrArg some hb, hab⟩

/-! ### A capture of one frame -/

def benchFrame : RecorderTelemetryFrame where
  schemaVersion := "forge-telemetry-frame/1.0.0"
  artifactId := "hover-7"
  sequence := 0
  t := 0.5
  state := .object []

/-- The bytes of a text of ASCII. -/
def asciiBytes (s : String) : List UInt8 := s.toList.map fun c => UInt8.ofNat c.toNat

def benchLine : List UInt8 :=
  asciiBytes ("\x7b\"schemaVersion\":\"forge-telemetry-frame/1.0.0\",\"artifactId\":\"hover-7\"," ++
    "\"sequence\":0,\"t\":0.5,\"state\":\x7b\x7d\x7d")

/-- The libraries, on what a capture of this frame hands to them. -/
def benchHost : Host where
  spell x := if x == 0.5 then "0.5".toList else "0.0".toList
  sha256Hex file :=
    if file = "/dev/ttyACM0".toList then "0b57b8d7de6a8da284adb6e995887ed1a8f50aad5c80bfc3869a43f6a50ff9f9"
    else if file = "\x7b\"t\":0.5,\"state\":\x7b\x7d\x7d\n".toList then
      "8d24f1efa78eef08ab347bd44e3eeaa7e8e6fca4a470b4a069cc14c30da8da1d"
    else if file = "\x7b\"sequence\":0,\"t\":0.5,\"byteOffset\":0\x7d\n".toList then
      "7e788cfb02066785858d0c3c05c8cfe113a0276d329a015269ce14b3ef8f6000"
    else "82aeadbeb3ce388c9b8112a351ffc8c1589f9b68c01e4f2e79e1754a9b3deda4"
  fromSlice line :=
    if line = benchLine then .ok benchFrame else .error "EOF while parsing a value at line 1 column 0"

def benchRequest : RecorderRequest where
  artifactId := "hover-7"
  outputDir := "/srv/captures/hover-7"
  sampleRateHz := 50
  referenceRigId := some "ref_quad_kakute-h7-source-one-5in"
  physicalConfirmation := "I consent to record this telemetry log"
  port := "/dev/ttyACM0"
  baud := 115200
  contractHash := String.ofList (List.replicate 64 'a')
  lockfileHash := String.ofList (List.replicate 64 'b')
  environment := .object []
  seed := 7

def benchManifest : RecorderArchiveManifest :=
  createRecorderArchive benchHost benchRequest "ref_quad_kakute-h7-source-one-5in" 1760000000000

/-- One read of the line, and then none. -/
def benchTurns : List (Bool × PortRead) :=
  [(false, .data (benchLine ++ [0x0D, 0x0A])), (false, .timeout), (true, .timeout)]

/-- The recording of the bench completes. -/
theorem benchStream_ok :
    ∃ a, recordSerialStream benchHost benchRequest benchManifest 1760000001000 benchTurns = some (.ok a) := by
  refine exists_eq_some_ok ?_
  simp only [benchTurns, benchHost, benchLine, asciiBytes, Text.toList_eq_asciiChars]
  decide +kernel

/-- The same bytes, cut between the carriage return and the newline. -/
def benchTurnsCut : List (Bool × PortRead) :=
  [(false, .data []), (false, .data (benchLine ++ [0x0D])), (false, .timeout), (false, .data [0x0A]), (true, .data [])]

theorem length_benchLine : benchLine.length = 102 := by
  simp only [benchLine, asciiBytes, Text.toList_eq_asciiChars]
  decide +kernel

theorem record_chunking_bench :
    (∃ e, recordSerialStream benchHost benchRequest benchManifest 1760000001000 benchTurns = some (.error e) ∧
        recordSerialStream benchHost benchRequest benchManifest 1760000002000 benchTurnsCut = some (.error e)) ∨
      ∃ a b, recordSerialStream benchHost benchRequest benchManifest 1760000001000 benchTurns = some (.ok a) ∧
        recordSerialStream benchHost benchRequest benchManifest 1760000002000 benchTurnsCut = some (.ok b) ∧
          SameCapture a b := by
  have hwhole : Delivers (benchLine ++ [0x0D, 0x0A]) benchTurns :=
    ⟨[.data (benchLine ++ [0x0D, 0x0A]), .timeout], [], .timeout, rfl, by simp [PortRead.bytes], .inr rfl, by
      simp only [List.forall_mem_cons]
      exact ⟨.inr ⟨_, rfl, by simp [length_benchLine]⟩, .inl trivial, fun _ h => absurd h List.not_mem_nil⟩⟩
  have hcut : Delivers (benchLine ++ [0x0D, 0x0A]) benchTurnsCut :=
    ⟨[.data [], .data (benchLine ++ [0x0D]), .timeout, .data [0x0A]], [], .data [], rfl, by simp [PortRead.bytes],
      .inl rfl, by
        simp only [List.forall_mem_cons]
        exact ⟨.inr ⟨_, rfl, by simp⟩, .inr ⟨_, rfl, by simp [length_benchLine]⟩, .inl trivial, .inr ⟨_, rfl, by simp⟩,
          fun _ h => absurd h List.not_mem_nil⟩⟩
  exact record_chunking benchHost benchRequest benchManifest 1760000001000 1760000002000 _ benchTurns benchTurnsCut
    hwhole hcut

end Forge.Desktop
