import Forge.Validate.RecordedArchive

/-!
# What the recorder verifier is good for

Two results on `verify_archive`, for readers of archives and for the recorder that writes them.

**`verified_archive_sound`**: the files of an archive that is accepted are in every byte those of a sequence of frames,
when no two replays have one digest. The index is told here by the numbers of the frames (`indexed`).

**`record_verify_agree_iff`**: the archive of a capture (`Captured`) is accepted just when the lines of its frame file
are short and its duration does not overflow. The recorder bounds the line that it reads, the verifier the line that is
written for it, which may be longer; and the recorder asks for finite times, not for a finite difference.
-/

namespace Forge.Validate.Recorder

open Desktop Lines

/-! ### The index by numbers -/

/-- The index entry of a frame with its number. Its offset is the length of the lines before it. -/
def entryAt (lib : Libraries) (frames : List ReplayFrame) (e : ReplayFrame × ℕ) : RecorderIndexEntry where
  sequence := .ofNat e.2
  t := e.1.t
  byteOffset := ((frames.take e.2).flatMap lib.frames.line).length

/-- The frames with an entry in the index: those on the stride, and the last one. -/
def indexed (stride : ℕ) (frames : List ReplayFrame) : List (ReplayFrame × ℕ) :=
  frames.zipIdx.filter fun e => e.2 % stride = 0 ∨ e.2 + 1 = frames.length

section

variable {lib : Libraries}

theorem entries_eq (frames : List ReplayFrame) : entries lib frames = frames.zipIdx.map (entryAt lib frames) := by
  induction frames using List.reverseRecOn with
  | nil => rfl
  | append_singleton fs f ih =>
    rw [entries_append, ih, List.zipIdx_append, List.map_append]
    congr 1
    · refine List.map_congr_left fun e he => ?_
      have hlt : e.2 < fs.length := by simpa using (List.mem_zipIdx he).2.1
      rw [entryAt, entryAt, List.take_append_of_le_length hlt.le]
    · simp [entryAt]

/-- **The index entries**, by the numbers of their frames. -/
theorem indexEntries_eq {stride : ℕ} {frames : List ReplayFrame} (h : frames.length ≤ 2 ^ 64) :
    indexEntries lib stride frames = (indexed stride frames).map (entryAt lib frames) := by
  rcases List.eq_nil_or_concat frames with rfl | ⟨fs, f, rfl⟩
  · rfl
  rw [List.concat_eq_append] at h ⊢
  rw [List.length_append, List.length_singleton] at h
  have hfirst : (entries lib (fs ++ [f])).filter (onStride stride) =
      ((fs ++ [f]).zipIdx.filter fun e => e.2 % stride = 0).map (entryAt lib (fs ++ [f])) := by
    rw [entries_eq, List.filter_map]
    congr 1
    refine List.filter_congr fun e he => onStride_ofNat ?_ stride _ _
    have hlt : e.2 < (fs ++ [f]).length := by simpa using (List.mem_zipIdx he).2.1
    rw [List.length_append, List.length_singleton] at hlt
    omega
  have hbefore : (fs.zipIdx.filter fun e => e.2 % stride = 0 ∨ e.2 + 1 = fs.length + 1) =
      fs.zipIdx.filter fun e => e.2 % stride = 0 := by
    refine List.filter_congr fun e he => ?_
    have hlt : e.2 < fs.length := by simpa using (List.mem_zipIdx he).2.1
    simp [hlt.ne]
  have hlast : entryAt lib (fs ++ [f]) (f, fs.length) =
      { sequence := .ofNat fs.length, t := f.t, byteOffset := (fs.flatMap lib.frames.line).length } := by
    simp [entryAt]
  rw [indexEntries, hfirst, lastEntry_append (by omega), ← hlast, indexed, List.zipIdx_append, List.filter_append,
    List.filter_append, List.length_append, List.length_singleton, hbefore]
  by_cases hstride : fs.length % stride = 0 <;> simp [hstride]

end

/-- Two files with one digest are the same. -/
def NoCollision (digest : List UInt8 → String) (file file' : List UInt8) : Prop := digest file = digest file' → file = file'

/-! ### Captures -/

/-- **A capture**: a validated request is recorded into an archive, by the libraries that read it again, and the clock
does not go backwards. -/
structure Captured (lib : Libraries) (host : Host) (request : RecorderRequest) (rigId : String) (started now : UnixMs)
    (turns : List (Bool × PortRead)) (a : RecorderArchive) : Prop where
  agrees : lib.Agrees host
  bounded : host.Bounded
  oneLine : ∀ x, '\n' ∉ host.spell x
  valid : ∃ portIsEnumerated, validateRecorderRequest host.spell request portIsEnumerated = .ok rigId
  clock : started ≤ now
  recorded : recordSerialStream host request (createRecorderArchive host request rigId started) now turns = some (.ok a)
  reads : ReadsBack lib (manifestOf (createRecorderArchive host request rigId started))
    (receiptOf (archiveReceipt host request (createRecorderArchive host request rigId started) now a))
    (framesOf host turns)

/-- What the report says is what the recorder wrote. -/
structure Reports (host : Host) (request : RecorderRequest) (a : RecorderArchive) (report : RecorderVerificationReport) :
    Prop where
  artifactId : report.artifactId = request.artifactId
  contractHash : report.contractHash = request.contractHash
  lockfileHash : report.lockfileHash = request.lockfileHash
  frameCount : report.frameCount = a.frameCount
  durationS : report.durationS = a.durationS
  size : report.aggregateByteSize = a.byteSize
  frameFileSha256 : report.frameFileSha256 = host.sha256Hex a.frames
  indexFileSha256 : report.indexFileSha256 = host.sha256Hex a.index
  replayFileSha256 : report.replayFileSha256 = host.sha256Hex a.replay

namespace Captured

variable {lib : Libraries} {host : Host} {request : RecorderRequest} {rigId : String} {started now : UnixMs}
  {turns : List (Bool × PortRead)} {a : RecorderArchive}

theorem spell_oneLine (h : Captured lib host request rigId started now turns a) : ∀ x, '\n' ∉ lib.spell x :=
  h.agrees.spell ▸ h.oneLine

theorem completed (h : Captured lib host request rigId started now turns a) :
    Completed lib host request (createRecorderArchive host request rigId started) now (framesOf host turns) a :=
  completed_of_record h.agrees.spell h.spell_oneLine h.recorded

theorem byteSize_le (h : Captured lib host request rigId started now turns a) :
    a.byteSize ≤ maxRecorderArchiveBytes := by
  obtain ⟨_, hvalid⟩ := h.valid
  obtain ⟨r, hr, hcomplete⟩ := Option.map_eq_some_iff.mp h.recorded
  obtain ⟨s, rfl, hs⟩ := bind_eq_ok.mp hcomplete
  exact byteSize_le_of_counted h.bounded (validateRecorderRequest_ok hvalid)
    (Recording.Counted.serialLoop (Recording.Counted.initial host.spell) hr) hs

/-- The lines of an archive that is accepted are short, and its duration is finite. -/
theorem of_verified (h : Captured lib host request rigId started now turns a) {report : RecorderVerificationReport}
    (hverify : verifyArchive lib (directoryOf a) = .ok report) :
    (∀ f ∈ framesOf host turns, (lib.frames.line f).length ≤ maxRecorderFrameBytes + 1) ∧
      (duration (framesOf host turns)).isFinite = true := by
  obtain ⟨files, hholds, -, m, r, frames, hcontent, -⟩ := verifyArchive_accepts hverify
  obtain rfl := (holds_directoryOf a).unique hholds
  have hframes : (framesOf host turns).flatMap lib.frames.line = frames.flatMap lib.frames.line :=
    (utf8_frames h.completed).symm.trans hcontent.framesFile
  obtain rfl := frames_unique h.spell_oneLine h.reads.frames hcontent.framesRead hframes
  refine ⟨fun f hf => (hcontent.framesRead f hf).short, ?_⟩
  rw [← hcontent.durationS]
  exact isFinite_of_validateReceipt hcontent.receiptValid

/-- An archive with short lines and a finite duration is accepted. -/
theorem verified (h : Captured lib host request rigId started now turns a)
    (hshort : ∀ f ∈ framesOf host turns, (lib.frames.line f).length ≤ maxRecorderFrameBytes + 1)
    (hfinite : (duration (framesOf host turns)).isFinite = true) :
    ∃ report, verifyArchive lib (directoryOf a) = .ok report ∧ Reports host request a report := by
  obtain ⟨_, hvalid⟩ := h.valid
  have hcompleted := h.completed
  rw [← hcompleted.durationS] at hfinite
  have hcontent := content_of_completed h.agrees h.bounded h.spell_oneLine hvalid h.clock hcompleted h.byteSize_le h.reads
    hshort hfinite
  refine ⟨_, verifyArchive_of_content (holds_directoryOf a) ((size_archiveFiles a).trans_le h.byteSize_le) hcontent, ?_⟩
  have hfinal : lib.sha256Hex ((indexEntries lib (Desktop.indexStride request) (framesOf host turns)).flatMap
      lib.index.line) = host.sha256Hex a.index := by
    rw [← h.agrees.sha256Hex]
    exact congrArg lib.sha256Hex hcontent.indexFile.symm
  refine ⟨rfl, rfl, rfl, hcompleted.frameCount.symm, hcompleted.durationS.symm, size_archiveFiles a, ?_, hfinal,
    h.agrees.sha256Hex _⟩
  rw [← h.agrees.sha256Hex]
  exact congrArg lib.sha256Hex hcontent.framesFile.symm

end Captured

/-! ### Two captures -/

theorem captured_line {host : Host} {line : List UInt8} (h : newline ∉ line) (pending rest : List UInt8) :
    captured host pending (line ++ newline :: rest) =
      frameOfLine host (chomp (pending ++ line)) ++ captured host [] rest := by
  induction line generalizing pending with
  | nil => simp [captured]
  | cons byte line ih =>
    rw [List.mem_cons, not_or] at h
    rw [List.cons_append, captured, if_neg (Ne.symm h.1), ih h.2, List.append_assoc, List.singleton_append]

/-- Every line in a read of its own, and then the signal to stop. -/
def lineTurns (lines : List (List UInt8)) : List (Bool × PortRead) :=
  lines.map (fun line => (false, .data (line ++ [0x0D, 0x0A]))) ++ [(true, .timeout)]

theorem framesOf_lineTurns {host : Host} {lines : List (List UInt8)} (h : ∀ line ∈ lines, newline ∉ line) :
    framesOf host (lineTurns lines) = lines.flatMap (frameOfLine host) := by
  unfold framesOf lineTurns
  induction lines with
  | nil => rfl
  | cons line lines ih =>
    obtain ⟨hline, hlines⟩ := List.forall_mem_cons.mp h
    have hbytes : bytesRead false (((line :: lines).map fun line => (false, .data (line ++ [0x0D, 0x0A]))) ++
        [(true, .timeout)]) = (line ++ [0x0D]) ++ newline :: bytesRead false
          ((lines.map fun line => (false, .data (line ++ [0x0D, 0x0A]))) ++ [(true, .timeout)]) := by
      rw [List.map_cons, List.cons_append, bytesRead]
      · simp
      · simp
    have hreturn : newline ∉ line ++ [0x0D] := by simp [hline, newline]
    rw [hbytes, captured_line hreturn, ih hlines, List.flatMap_cons]
    simp [chomp]

/-- `serde_json`, on what the captures hand to it. -/
def captureSpell : Spelling := fun x =>
  if x == 0.5 then "0.5".toList
  else if x == -1.7e308 then "-1.7e308".toList
  else if x == 1.7e308 then "1.7e308".toList
  else "0.0".toList

/-- The replay of these frames. -/
def captureReplay (frames : List ReplayFrame) : List UInt8 :=
  utf8 (recorderReplayPrefix captureSpell benchRequest benchManifest ++
    [','].intercalate (frames.map fun f => (replayFrameTree captureSpell f.t f.state).render) ++ "]\x7d\n".toList)

def emptyFrame (t : Float) : ReplayFrame := { t, state := .object [] }

/-- SHA-256, on the files of the captures. -/
def captureSha256Hex (file : List UInt8) : String :=
  if file = utf8 benchRequest.port.toList then "0b57b8d7de6a8da284adb6e995887ed1a8f50aad5c80bfc3869a43f6a50ff9f9"
  else if file = utf8 "\x7b\"t\":0.5,\"state\":\x7b\x7d\x7d\n".toList then
    "8d24f1efa78eef08ab347bd44e3eeaa7e8e6fca4a470b4a069cc14c30da8da1d"
  else if file = utf8 "\x7b\"sequence\":0,\"t\":0.5,\"byteOffset\":0\x7d\n".toList then
    "7e788cfb02066785858d0c3c05c8cfe113a0276d329a015269ce14b3ef8f6000"
  else if file = captureReplay [emptyFrame 0.5] then "82aeadbeb3ce388c9b8112a351ffc8c1589f9b68c01e4f2e79e1754a9b3deda4"
  else if file = utf8 ("\x7b\"t\":-1.7e308,\"state\":\x7b\x7d\x7d\n" ++
      "\x7b\"t\":1.7e308,\"state\":\x7b\x7d\x7d\n").toList then
    "4192198297e93f0fb194103509469dd265be99bd9c0041773f0f8bf75e7fca96"
  else if file = utf8 ("\x7b\"sequence\":0,\"t\":-1.7e308,\"byteOffset\":0\x7d\n" ++
      "\x7b\"sequence\":1,\"t\":1.7e308,\"byteOffset\":26\x7d\n").toList then
    "183ab483cd6e8bdaa23f7524c5bff5a14fb9b287d1f6b46cac4f6d3af80e40a4"
  else if file = captureReplay [emptyFrame (-1.7e308), emptyFrame 1.7e308] then
    "52a5a7f9ad878c7d8603def800be31bbcf1c125a006f72f4bc3bd81e610d70a6"
  else "e3b0c44298fc1c149afbf4c8996fb92427ae41e4649b934ca495991b7852b855"

/-- The line of a frame without a state. -/
def captureLine (sequence t : String) : List UInt8 :=
  ("\x7b\"schemaVersion\":\"forge-telemetry-frame/1.0.0\",\"artifactId\":\"hover-7\",\"sequence\":" ++ sequence ++
    ",\"t\":" ++ t ++ ",\"state\":\x7b\x7d\x7d").toByteArray.data.toList

def captureInput (sequence : UInt64) (t : Float) : RecorderTelemetryFrame := { benchFrame with sequence, t }

def captureHost : Host where
  spell := captureSpell
  sha256Hex file := captureSha256Hex (utf8 file)
  fromSlice line :=
    if line = captureLine "0" "0.5" then .ok (captureInput 0 0.5)
    else if line = captureLine "0" "-1.7e308" then .ok (captureInput 0 (-1.7e308))
    else if line = captureLine "1" "1.7e308" then .ok (captureInput 1 1.7e308)
    else .error "EOF while parsing a value at line 1 column 0"

/-- The manifest of both captures. -/
def captureManifest : Desktop.RecorderArchiveManifest :=
  createRecorderArchive captureHost benchRequest "ref_quad_kakute-h7-source-one-5in" 1760000000000

/-- A reader of these records, each of which it knows from its spelling. -/
def readBack {α : Type} (write : α → List UInt8) (known : List α) (bytes : List UInt8) : Except String α :=
  match Table.find write bytes known with
  | some a => .ok a
  | none => .error "expected value at line 1 column 1"

theorem readBack_write {α : Type} {write : α → List UInt8} {known : List α} (h : (known.map write).Nodup) {a : α}
    (ha : a ∈ known) : readBack write known (write a) = .ok a := by
  rw [readBack, (Table.find_eq_some_iff h).mpr ⟨ha, rfl⟩]

theorem readBack_single {α : Type} (write : α → List UInt8) (a : α) : readBack write [a] (write a) = .ok a :=
  readBack_write (by simp) (List.mem_singleton_self a)

/-- The libraries of the verifier, on an archive with these frames and index entries. -/
def captureLibraries (frames : List ReplayFrame) (index : List RecorderIndexEntry) (a : RecorderArchive) :
    Libraries where
  spell := captureSpell
  sha256Hex := captureSha256Hex
  manifest := readBack (fun m => utf8 (newJson (m.tree captureSpell))) [manifestOf captureManifest]
  receipt bytes :=
    if a.durationS.isFinite then
      readBack (fun r => utf8 (newJson (r.tree captureSpell)))
        [receiptOf (archiveReceipt captureHost benchRequest captureManifest 1760000001000 a)] bytes
    else .error "invalid type: null, expected f64"
  frame := readBack (fun f => utf8 (replayFrameTree captureSpell f.t f.state).render) frames
  indexEntry := readBack (fun e => utf8 (e.tree captureSpell).render) index

theorem captureHost_bounded : captureHost.Bounded where
  spell x := by
    unfold captureHost captureSpell
    dsimp only
    split_ifs <;> decide
  sha256Hex file := by
    unfold captureHost
    dsimp only
    generalize utf8 file = file
    unfold captureSha256Hex
    split_ifs <;> decide

theorem captureHost_oneLine (x : Float) : '\n' ∉ captureHost.spell x := by
  unfold captureHost captureSpell
  dsimp only
  split_ifs <;> decide

/-- Lines that are recorded, with the frames and index entries that are made of them. -/
structure Capture where
  lines : List (List UInt8)
  frames : List ReplayFrame
  index : List RecorderIndexEntry
  newline_not_mem : ∀ line ∈ lines, newline ∉ line
  frames_eq : lines.flatMap (frameOfLine captureHost) = frames
  index_eq : ∀ a, entries (captureLibraries frames index a) frames = index
  /-- The spelling of a frame tells it apart from the others. -/
  framesNodup : (frames.map fun f => utf8 (replayFrameTree captureSpell f.t f.state).render).Nodup
  indexNodup : (index.map fun e => utf8 (e.tree captureSpell).render).Nodup
  recorded : ((recordSerialStream captureHost benchRequest captureManifest 1760000001000 (lineTurns lines)).bind
    Except.toOption).isSome = true

namespace Capture

def libraries (c : Capture) (a : RecorderArchive) : Libraries := captureLibraries c.frames c.index a

theorem framesOf_eq (c : Capture) : framesOf captureHost (lineTurns c.lines) = c.frames := by
  rw [framesOf_lineTurns c.newline_not_mem, c.frames_eq]

theorem exists_captured (c : Capture) : ∃ a, Captured (c.libraries a) captureHost benchRequest
    "ref_quad_kakute-h7-source-one-5in" 1760000000000 1760000001000 (lineTurns c.lines) a := by
  obtain ⟨a, hr⟩ := exists_eq_some_ok c.recorded
  refine ⟨a, ⟨rfl, fun _ => rfl⟩, captureHost_bounded, captureHost_oneLine, ⟨true, by decide +kernel⟩, by decide, hr, ?_⟩
  have hmanifest : createRecorderArchive captureHost benchRequest "ref_quad_kakute-h7-source-one-5in" 1760000000000 =
      captureManifest := rfl
  rw [c.framesOf_eq, hmanifest]
  refine ⟨?_, fun hfinite => ?_, fun f hf => ?_, fun e he => ?_⟩
  · have hread := readBack_single (fun m => utf8 (newJson (RecorderArchiveManifest.tree captureSpell m)))
      (manifestOf captureManifest)
    dsimp only [libraries, captureLibraries]
    exact hread
  · have hread := readBack_single (fun r => utf8 (newJson (RecorderStopReceipt.tree captureSpell r)))
      (receiptOf (archiveReceipt captureHost benchRequest captureManifest 1760000001000 a))
    exact (if_pos hfinite).trans hread
  · exact readBack_write c.framesNodup hf
  · exact readBack_write c.indexNodup (c.index_eq a ▸ he)

end Capture

theorem frames_steady : [captureLine "0" "0.5"].flatMap (frameOfLine captureHost) = [emptyFrame 0.5] := by
  have hfirst : captureHost.fromSlice (captureLine "0" "0.5") = .ok (captureInput 0 0.5) := by
    simp only [captureHost, if_true]
  rw [List.flatMap_singleton, frameOfLine, hfirst]
  rfl

/-- One frame at half a second. -/
def steady : Capture where
  lines := [captureLine "0" "0.5"]
  frames := [emptyFrame 0.5]
  index := [{ sequence := 0, t := 0.5, byteOffset := 0 }]
  newline_not_mem := by decide +kernel
  frames_eq := frames_steady
  index_eq _ := rfl
  framesNodup := List.nodup_singleton _
  indexNodup := List.nodup_singleton _
  recorded := by decide +kernel

theorem captureManifest_eq : captureManifest = benchManifest := by
  have hport : captureHost.sha256Hex benchRequest.port.toList = benchHost.sha256Hex benchRequest.port.toList := by
    decide +kernel
  rw [captureManifest, benchManifest, createRecorderArchive, createRecorderArchive, hport]

/-- No other file has the digest of the replay. -/
theorem noCollision_steady (file : List UInt8) : NoCollision captureSha256Hex (captureReplay steady.frames) file := by
  have hreplay : captureSha256Hex (captureReplay steady.frames) =
      "82aeadbeb3ce388c9b8112a351ffc8c1589f9b68c01e4f2e79e1754a9b3deda4" := by decide +kernel
  intro h
  rw [hreplay] at h
  unfold captureSha256Hex at h
  split_ifs at h with hport hframes hindex hfile
  · exact absurd h (by decide)
  · exact absurd h (by decide)
  · exact absurd h (by decide)
  · exact hfile.symm
  all_goals exact absurd h (by decide)

/-- The line of the frame is short, and it lasts no time. -/
theorem steady_verifiable (a : RecorderArchive) :
    (∀ f ∈ framesOf captureHost (lineTurns steady.lines),
        ((steady.libraries a).frames.line f).length ≤ maxRecorderFrameBytes + 1) ∧
      (duration (framesOf captureHost (lineTurns steady.lines))).isFinite = true := by
  have hshort : (utf8 (replayFrameTree captureSpell 0.5 (.object [])).render ++ [newline]).length ≤
      maxRecorderFrameBytes + 1 := by decide +kernel
  rw [steady.framesOf_eq]
  exact ⟨fun f hf => List.mem_singleton.mp hf ▸ hshort, by decide +kernel⟩

theorem frames_overflow : [captureLine "0" "-1.7e308", captureLine "1" "1.7e308"].flatMap (frameOfLine captureHost) =
    [emptyFrame (-1.7e308), emptyFrame 1.7e308] := by
  have hapart : captureLine "0" "-1.7e308" ≠ captureLine "0" "0.5" ∧ captureLine "1" "1.7e308" ≠ captureLine "0" "0.5" ∧
      captureLine "1" "1.7e308" ≠ captureLine "0" "-1.7e308" := by decide +kernel
  have hlow : captureHost.fromSlice (captureLine "0" "-1.7e308") = .ok (captureInput 0 (-1.7e308)) := by
    simp only [captureHost, if_neg hapart.1, if_true]
  have hhigh : captureHost.fromSlice (captureLine "1" "1.7e308") = .ok (captureInput 1 1.7e308) := by
    simp only [captureHost, if_neg hapart.2.1, if_neg hapart.2.2, if_true]
  rw [List.flatMap_cons, List.flatMap_singleton, frameOfLine, frameOfLine, hlow, hhigh]
  rfl

/-- The second frame starts after the 26 bytes of the first. -/
def overflowIndex : List RecorderIndexEntry :=
  [{ sequence := 0, t := -1.7e308, byteOffset := 0 }, { sequence := 1, t := 1.7e308, byteOffset := 26 }]

theorem index_overflow (a : RecorderArchive) :
    entries (captureLibraries [emptyFrame (-1.7e308), emptyFrame 1.7e308] overflowIndex a)
      [emptyFrame (-1.7e308), emptyFrame 1.7e308] = overflowIndex := by
  have hlength : (utf8 (replayFrameTree captureSpell (-1.7e308) (.object [])).render ++ [newline]).length = 26 := by
    decide +kernel
  have hline : ((captureLibraries [emptyFrame (-1.7e308), emptyFrame 1.7e308] overflowIndex a).frames.line
      (emptyFrame (-1.7e308))).length = 26 := hlength
  rw [entries, entriesFrom, entriesFrom, entriesFrom, hline]
  rfl

/-- One frame at each end of the doubles. -/
def overflow : Capture where
  lines := [captureLine "0" "-1.7e308", captureLine "1" "1.7e308"]
  frames := [emptyFrame (-1.7e308), emptyFrame 1.7e308]
  index := overflowIndex
  newline_not_mem := by decide +kernel
  frames_eq := frames_overflow
  index_eq := index_overflow
  framesNodup := by decide +kernel
  indexNodup := by decide +kernel
  recorded := by decide +kernel

/-! ### The verifier is sound -/

/-- **What the files of an archive are**: the spelling of a manifest, a receipt and frames in every byte. -/
structure Describes (lib : Libraries) (files : ArchiveFiles) (m : RecorderArchiveManifest) (r : RecorderStopReceipt)
    (frames : List ReplayFrame) : Prop where
  manifest : ReadsPretty lib.manifest (RecorderArchiveManifest.tree lib.spell) m files.manifest
  receipt : ReadsPretty lib.receipt (RecorderStopReceipt.tree lib.spell) r files.receipt
  nonempty : frames ≠ []
  finite : ∀ f ∈ frames, f.t.isFinite = true
  increasing : frames.Pairwise fun f g => f.t < g.t
  object : ∀ f ∈ frames, isObject f.state = true
  framesFile : files.frames = frames.flatMap lib.frames.line
  indexFile : files.index = ((indexed (indexStride m) frames).map (entryAt lib frames)).flatMap lib.index.line
  replayFile : files.replay = replayFile lib m frames
  frameCount : r.frameCount = frames.length
  durationS : r.durationS = duration frames

/-- Times that increase from one frame to the next increase. -/
theorem Sound.pairwise {frames : List ReplayFrame} (h : Sound frames) : frames.Pairwise fun f g => f.t < g.t := by
  have hchain : frames.IsChain fun f g => floatValue f.t < floatValue g.t := by
    have hincreasing := List.isChain_map ReplayFrame.t |>.mp h.increasing
    rw [List.isChain_iff_getElem] at hincreasing ⊢
    intro i hi
    exact (float_lt_iff_value (h.finite _ (List.getElem_mem _)) (h.finite _ (List.getElem_mem _))).mp (hincreasing i hi)
  have htrans : IsTrans ReplayFrame fun f g => floatValue f.t < floatValue g.t := ⟨fun _ _ _ => lt_trans⟩
  refine (List.isChain_iff_pairwise.mp hchain).imp_of_mem fun hf hg hlt => ?_
  exact (float_lt_iff_value (h.finite _ hf) (h.finite _ hg)).mpr hlt

/-- **Key result**: an archive that is accepted is in every byte the spelling of frames, of their index and of their
replay, unless its replay has the digest of another file. -/
theorem verified_archive_sound (lib : Libraries) (directory : Directory) (report : RecorderVerificationReport)
    (h : verifyArchive lib directory = .ok report)
    (hcollision : ∀ files m frames, directory.Holds files →
      NoCollision lib.sha256Hex files.replay (replayFile lib m frames)) :
    ∃ files m r frames, directory.Holds files ∧ Describes lib files m r frames := by
  obtain ⟨files, hholds, -, m, r, frames, hcontent, -⟩ := verifyArchive_accepts h
  obtain ⟨hsome, hcount⟩ := frameCount_of_validateReceipt hcontent.receiptValid
  rw [hcontent.frameCount] at hsome hcount
  have hmax : maxRecorderFrames ≤ 2 ^ 64 := by decide
  refine ⟨files, m, r, frames, hholds, hcontent.manifest, hcontent.receipt, ?_,
    hcontent.framesSound.finite, hcontent.framesSound.pairwise, hcontent.framesSound.object, hcontent.framesFile, ?_, ?_,
    hcontent.frameCount, hcontent.durationS⟩
  · exact List.length_pos_iff.mp hsome
  · rw [hcontent.indexFile, indexEntries_eq (hcount.trans hmax)]
  · exact hcollision files m frames hholds hcontent.replayFile

theorem verified_archive_sound_steady : ∃ a, ∃ report,
    verifyArchive (steady.libraries a) (directoryOf a) = .ok report ∧
      ∃ files m r frames, (directoryOf a).Holds files ∧
        Describes (steady.libraries a) files m r frames := by
  obtain ⟨a, h⟩ := steady.exists_captured
  obtain ⟨hshort, hfinite⟩ := steady_verifiable a
  obtain ⟨report, hverify, -⟩ := h.verified hshort hfinite
  have hreplay : (archiveFiles a).replay = captureReplay steady.frames := by
    have hcompleted := h.completed.replayFile
    rw [steady.framesOf_eq] at hcompleted
    rw [captureReplay, ← captureManifest_eq]
    exact congrArg utf8 hcompleted
  refine ⟨a, report, hverify, verified_archive_sound _ _ report hverify fun files m frames hholds => ?_⟩
  obtain rfl := (holds_directoryOf a).unique hholds
  rw [hreplay]
  exact noCollision_steady _

/-! ### The verifier agrees with the recorder -/

/-- **Key result**: an archive of the recorder is verified, with the values that the recorder wrote, just when no line
of its frame file is longer than the verifier reads and the time from the first frame to the last does not overflow. -/
theorem record_verify_agree_iff (lib : Libraries) (host : Host) (request : RecorderRequest) (rigId : String)
    (started now : UnixMs) (turns : List (Bool × PortRead)) (a : RecorderArchive)
    (h : Captured lib host request rigId started now turns a) :
    (∃ report, verifyArchive lib (directoryOf a) = .ok report ∧ Reports host request a report) ↔
      (∀ f ∈ framesOf host turns, (lib.frames.line f).length ≤ maxRecorderFrameBytes + 1) ∧
        (duration (framesOf host turns)).isFinite = true :=
  ⟨fun ⟨_, hverify, _⟩ => h.of_verified hverify, fun ⟨hshort, hfinite⟩ => h.verified hshort hfinite⟩

theorem record_verify_agree_steady : ∃ a, ∃ report,
    recordSerialStream captureHost benchRequest captureManifest 1760000001000 (lineTurns steady.lines) = some (.ok a) ∧
      verifyArchive (steady.libraries a) (directoryOf a) = .ok report ∧
      Reports captureHost benchRequest a report := by
  obtain ⟨a, h⟩ := steady.exists_captured
  obtain ⟨report, hverify, hreports⟩ := (record_verify_agree_iff _ _ _ _ _ _ _ _ h).mpr (steady_verifiable a)
  exact ⟨a, report, h.recorded, hverify, hreports⟩

/-- The recorder completes an archive whose duration overflows; the verifier refuses it. -/
theorem overflow_refused : ∃ a, Captured (overflow.libraries a) captureHost benchRequest
      "ref_quad_kakute-h7-source-one-5in" 1760000000000 1760000001000 (lineTurns overflow.lines) a ∧
    ∀ report, verifyArchive (overflow.libraries a) (directoryOf a) ≠ .ok report := by
  obtain ⟨a, h⟩ := overflow.exists_captured
  refine ⟨a, h, fun report hverify => ?_⟩
  have hfinite := (h.of_verified hverify).2
  have hinfinite : (duration overflow.frames).isFinite = false := by decide +kernel
  rw [overflow.framesOf_eq, hinfinite] at hfinite
  cases hfinite

end Forge.Validate.Recorder
