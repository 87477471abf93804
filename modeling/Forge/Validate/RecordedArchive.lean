import Forge.Data.FloatDifference
import Forge.Validate.RecorderContent

/-!
# Archives of the recorder

The desktop writes an archive while it reads a serial stream; the validator reads it again. This module says what the
recorder leaves, in the verifier's terms: the frames of a stream (`framesOf`), what a recording of them holds after every
byte (`Recorded.foldlM`), and what its archive holds (`completed_of_record`). **`content_of_completed`**: this is a
content that the verifier accepts, when no line of it is too long and its duration is finite.

The hypotheses are on the libraries: doubles are spelled in at most 24 characters and without line breaks, and what was
written is read back.
-/

namespace Forge.Validate.Recorder

open Desktop Lines

/-! ### Texts without line breaks -/

/-- The text is on one line. -/
def OneLine (t : Tree (List Char) (List Char)) : Prop := '\n' ∉ t.render

theorem not_mem_restText {c close : Char} (hclose : c ≠ close) (hcomma : c ≠ ',') {ts : List (List Char)}
    (h : ∀ t ∈ ts, c ∉ t) : c ∉ Tree.restText close ts := by
  induction ts with
  | nil => simpa [Tree.restText] using hclose
  | cons t ts ih =>
    obtain ⟨ht, hts⟩ := List.forall_mem_cons.mp h
    simp [Tree.restText, hcomma, ht, ih hts]

theorem not_mem_itemsText {c close : Char} (hclose : c ≠ close) (hcomma : c ≠ ',') {ts : List (List Char)}
    (h : ∀ t ∈ ts, c ∉ t) : c ∉ Tree.itemsText close ts := by
  cases ts with
  | nil => simpa [Tree.itemsText] using hclose
  | cons t ts =>
    obtain ⟨ht, hts⟩ := List.forall_mem_cons.mp h
    simp [Tree.itemsText, ht, not_mem_restText hclose hcomma hts]

theorem oneLine_leaf {token : List Char} : OneLine (.leaf token) ↔ '\n' ∉ token := by
  rw [OneLine, Tree.render_leaf]

theorem oneLine_array {ts : List (Tree (List Char) (List Char))} (h : ∀ t ∈ ts, OneLine t) : OneLine (.array ts) := by
  rw [OneLine, Tree.render_array, List.mem_cons, not_or]
  refine ⟨by decide, not_mem_itemsText (by decide) (by decide) fun t ht => ?_⟩
  obtain ⟨u, hu, rfl⟩ := List.mem_map.mp ht
  exact h u hu

theorem oneLine_object {ms : List (List Char × Tree (List Char) (List Char))}
    (h : ∀ e ∈ ms, '\n' ∉ e.1 ∧ OneLine e.2) : OneLine (.object ms) := by
  rw [OneLine, Tree.render_object, List.mem_cons, not_or]
  refine ⟨by decide, not_mem_itemsText (by decide) (by decide) fun t ht => ?_⟩
  obtain ⟨e, he, rfl⟩ := List.mem_map.mp ht
  obtain ⟨hname, hvalue⟩ := h e he
  have hvalue : '\n' ∉ e.2.render := hvalue
  simp [Tree.memberText, hname, hvalue]

theorem newline_not_mem_escapeChar (c : Char) : '\n' ∉ escapeChar c := by
  have hdigit {n : ℕ} (h : n < 16) : Nat.digitChar n ≠ '\n' := by
    have hall : ∀ n < 16, Nat.digitChar n ≠ '\n' := by decide
    exact hall n h
  unfold escapeChar
  split_ifs with h₁ h₂ h₃ h₄ h₅ h₆ h₇ hcontrol
  all_goals first | decide | skip
  · have hhigh : c.toNat / 16 < 16 := by omega
    have hlow : c.toNat % 16 < 16 := by omega
    simp [(hdigit hhigh).symm, (hdigit hlow).symm]
  · simpa using Ne.symm h₅

theorem newline_not_mem_stringToken (s : String) : '\n' ∉ stringToken s := by
  simp [stringToken, newline_not_mem_escapeChar]

theorem oneLine_tokens {spell : Spelling} (hspell : ∀ x, '\n' ∉ spell x) (j : Json) : OneLine (j.tokens spell) := by
  induction j with
  | null => exact oneLine_leaf.mpr (by decide)
  | bool b => cases b <;> exact oneLine_leaf.mpr (by decide)
  | number n =>
    cases n with
    | int i h =>
      refine oneLine_leaf.mpr ?_
      have hdigits : '\n' ∉ Nat.toDigits 10 i.natAbs := Text.not_mem_toDigits (by decide) _
      unfold decimal
      split_ifs <;> simp [hdigits]
    | float x h => exact oneLine_leaf.mpr (hspell x)
  | string s => exact oneLine_leaf.mpr (newline_not_mem_stringToken s)
  | array xs ih =>
    rw [Json.tokens, Json.tokensList_eq]
    exact oneLine_array (List.forall_mem_map.mpr ih)
  | object ms ih =>
    rw [Json.tokens, Json.tokensMembers_eq]
    exact oneLine_object (List.forall_mem_map.mpr fun e he => ⟨newline_not_mem_stringToken _, ih e he⟩)

theorem oneLine_double {spell : Spelling} (hspell : ∀ x, '\n' ∉ spell x) (x : Float) : OneLine (double spell x) := by
  refine oneLine_leaf.mpr ?_
  split
  · exact hspell x
  · decide

theorem oneLine_natural (n : ℕ) : OneLine (natural n) := oneLine_leaf.mpr (Text.not_mem_toDigits (by decide) n)

theorem oneLine_frame {spell : Spelling} (hspell : ∀ x, '\n' ∉ spell x) (f : ReplayFrame) :
    OneLine (replayFrameTree spell f.t f.state) := by
  refine oneLine_object (List.forall_mem_map.mpr ?_)
  simp only [List.forall_mem_cons]
  exact ⟨⟨newline_not_mem_stringToken _, oneLine_double hspell _⟩,
    ⟨newline_not_mem_stringToken _, oneLine_tokens hspell _⟩, fun _ h => absurd h List.not_mem_nil⟩

theorem oneLine_entry {spell : Spelling} (hspell : ∀ x, '\n' ∉ spell x) (e : RecorderIndexEntry) :
    OneLine (e.tree spell) := by
  refine oneLine_object (List.forall_mem_map.mpr ?_)
  simp only [List.forall_mem_cons]
  exact ⟨⟨newline_not_mem_stringToken _, oneLine_natural _⟩, ⟨newline_not_mem_stringToken _, oneLine_double hspell _⟩,
    ⟨newline_not_mem_stringToken _, oneLine_natural _⟩, fun _ h => absurd h List.not_mem_nil⟩

/-! ### Texts and bytes -/

theorem length_utf8 (cs : List Char) : (utf8 cs).length = utf8Length cs := by
  simp [utf8, utf8Length, List.length_flatMap]

theorem utf8_flatMap {α : Type} (f : α → List Char) (as : List α) : utf8 (as.flatMap f) = as.flatMap fun a => utf8 (f a) := by
  induction as with
  | nil => rfl
  | cons a as ih => rw [List.flatMap_cons, utf8_append, ih, List.flatMap_cons]

theorem utf8_intercalate (separator : List Char) (ls : List (List Char)) :
    utf8 (separator.intercalate ls) = (utf8 separator).intercalate (ls.map utf8) := by
  induction ls with
  | nil => rfl
  | cons l ls ih =>
    cases ls with
    | nil => simp
    | cons l' ls =>
      rw [List.intercalate_cons_cons, utf8_append, utf8_append, ih]
      simp only [List.map_cons, List.intercalate_cons_cons]

theorem utf8_recordLine (t : Tree (List Char) (List Char)) : utf8 (recordLine t) = utf8 t.render ++ [newline] := by
  rw [recordLine, utf8_append]
  rfl

/-- The lines of a file of texts that are on one line each and end with a brace. -/
theorem lines_flatMap {α : Type} {f : α → Tree (List Char) (List Char)} {as : List α} (h : ∀ a ∈ as, OneLine (f a))
    (hlast : ∀ a ∈ as, (f a).render.getLast? ≠ some '\r') :
    lines (as.flatMap fun a => recordLine (f a)) = as.map fun a => (f a).render := by
  have hsplit : (as.flatMap fun a => recordLine (f a)).splitOn '\n' = (as.map fun a => (f a).render) ++ [[]] := by
    clear hlast
    induction as with
    | nil => simp
    | cons a as ih =>
      obtain ⟨ha, has⟩ := List.forall_mem_cons.mp h
      have hcons : (a :: as).flatMap (fun a => recordLine (f a)) =
          (f a).render ++ '\n' :: as.flatMap fun a => recordLine (f a) := by
        simp [recordLine]
      rw [hcons, List.splitOn_append_cons_self_of_not_mem ha, ih has]
      rfl
  unfold lines
  rw [hsplit]
  simp only [List.getLast?_concat, if_true, List.dropLast_concat, List.map_map]
  refine List.map_congr_left fun a ha => ?_
  exact if_neg (hlast a ha)

theorem getLast?_restText (close : Char) (ts : List (List Char)) : (Tree.restText close ts).getLast? = some close := by
  induction ts with
  | nil => rfl
  | cons t ts ih => simp [Tree.restText, List.getLast?_append, List.getLast?_cons, ih]

theorem getLast?_recordTree (fields : List (String × Tree (List Char) (List Char))) :
    (recordTree fields).render.getLast? = some '}' := by
  rw [recordTree, Tree.render_object]
  cases fields with
  | nil => rfl
  | cons f fields => simp [Tree.itemsText, List.getLast?_append, List.getLast?_cons, getLast?_restText]

/-! ### What was captured -/

/-- The bytes that the loop reads before it ends. -/
def bytesRead : Bool → List (Bool × PortRead) → List UInt8
  | _, [] => []
  | stopping, (signal, read) :: turns =>
    match read with
    | .data [] | .timeout => if stopping || signal then [] else bytesRead (stopping || signal) turns
    | .data chunk => chunk ++ bytesRead (stopping || signal) turns
    | .failed _ => []

/-- The frame of a line. -/
def frameOfLine (host : Host) (line : List UInt8) : List ReplayFrame :=
  match host.fromSlice line with
  | .ok input => [{ t := input.t, state := input.state }]
  | .error _ => []

/-- The frames of the lines that the bytes complete, after the pending ones. -/
def captured (host : Host) : List UInt8 → List UInt8 → List ReplayFrame
  | _, [] => []
  | pending, byte :: bytes =>
    if byte = newline then frameOfLine host (chomp pending) ++ captured host [] bytes
    else captured host (pending ++ [byte]) bytes

/-- The frames of a recording. -/
def framesOf (host : Host) (turns : List (Bool × PortRead)) : List ReplayFrame := captured host [] (bytesRead false turns)

section

variable {host : Host} {request : RecorderRequest}

/-- The loop is a run over the bytes that it reads. -/
theorem foldlM_of_serialLoop {turns : List (Bool × PortRead)} {stopping : Bool} {s s' : StreamState}
    (h : serialLoop host request stopping s turns = some (.ok s')) :
    (bytesRead stopping turns).foldlM (readByte host request) s = .ok s' := by
  induction turns generalizing stopping s with
  | nil => cases h
  | cons turn turns ih =>
    obtain ⟨signal, read⟩ := turn
    have hquiet {x : Option (Except String StreamState)} (hx : x = some (.ok s'))
        (hturn : x = if stopping || signal then some (.ok s) else serialLoop host request (stopping || signal) s turns) :
        (if stopping || signal then [] else bytesRead (stopping || signal) turns).foldlM (readByte host request) s =
          .ok s' := by
      subst hturn
      by_cases hstop : (stopping || signal) = true
      · rw [if_pos hstop] at hx ⊢
        exact Option.some.inj hx
      · rw [if_neg hstop] at hx ⊢
        exact ih hx
    cases read with
    | timeout => exact hquiet h rfl
    | failed message => cases h
    | data chunk =>
      cases chunk with
      | nil => exact hquiet h rfl
      | cons byte chunk =>
        have hbytes : bytesRead stopping ((signal, .data (byte :: chunk)) :: turns) =
            (byte :: chunk) ++ bytesRead (stopping || signal) turns := by
          rw [bytesRead]
          exact fun h => by cases h
        rw [hbytes, List.foldlM_append]
        rw [serialLoop] at h
        · cases hread : List.foldlM (readByte host request) s (byte :: chunk) with
          | error e =>
            simp only [hread] at h
            cases h
          | ok s'' =>
            simp only [hread] at h
            exact ih h
        · exact fun h => by cases h

end

/-! ### The files of a recording -/

/-- The verifier spells doubles, and hashes texts, as the recorder does. -/
structure Libraries.Agrees (lib : Libraries) (host : Host) : Prop where
  spell : lib.spell = host.spell
  sha256Hex : ∀ file, lib.sha256Hex (utf8 file) = host.sha256Hex file

/-- The text of a frame. -/
def frameText (lib : Libraries) (f : ReplayFrame) : List Char := recordLine (replayFrameTree lib.spell f.t f.state)

/-- The text of an index entry. -/
def entryText (lib : Libraries) (e : RecorderIndexEntry) : List Char := recordLine (e.tree lib.spell)

theorem utf8_frameText (lib : Libraries) (f : ReplayFrame) : utf8 (frameText lib f) = lib.frames.line f := utf8_recordLine _

theorem utf8_entryText (lib : Libraries) (e : RecorderIndexEntry) : utf8 (entryText lib e) = lib.index.line e :=
  utf8_recordLine _

/-- **The recording of frames**: what its files hold, and what its progress says of them. -/
structure Recorded (lib : Libraries) (stride : ℕ) (fs : List ReplayFrame) (r : Recording) : Prop where
  frames : r.frames = fs.flatMap (frameText lib)
  index : r.index = ((entries lib fs).filter (onStride stride)).flatMap (entryText lib)
  frameCount : r.progress.frameCount = fs.length
  frameBytes : r.progress.frameBytes = (fs.flatMap lib.frames.line).length
  firstT : r.progress.firstT = fs.head?.map ReplayFrame.t
  lastT : r.progress.lastT = fs.getLast?.map ReplayFrame.t
  lastIndex : r.progress.lastIndex = (entries lib fs).getLast?
  indexed : ∀ e ∈ (entries lib fs).getLast?, r.progress.lastIndexedSequence = some e.sequence ↔ onStride stride e = true
  earlier : ∀ s ∈ r.progress.lastIndexedSequence, s.toNat < fs.length
  sound : Sound fs
  short : fs.length ≤ maxRecorderFrames

theorem recorded_initial (lib : Libraries) (stride : ℕ) : Recorded lib stride [] {} where
  frames := rfl
  index := rfl
  frameCount := rfl
  frameBytes := rfl
  firstT := rfl
  lastT := rfl
  lastIndex := rfl
  indexed _ he := by cases he
  earlier _ hs := by cases hs
  sound := ⟨by simp, by simp, by simp, by simp⟩
  short := Nat.zero_le _

variable {lib : Libraries} {host : Host} {request : RecorderRequest} {stride : ℕ}

theorem checkFrame_eq_ok {progress : RecorderProgress} {input : RecorderTelemetryFrame}
    (h : checkFrame request progress input = .ok ()) : input.sequence.toNat = progress.frameCount ∧
      input.t.isFinite = true ∧ (∀ last ∈ progress.lastT, ¬input.t ≤ last) ∧ isObject input.state = true ∧
      ∃ nodes, boundedJsonNodes input.state 0 0 = .ok nodes := by
  unfold checkFrame at h
  simp only [ite_error_eq_ok, bind_eq_ok, not_not, Bool.not_eq_true', Bool.not_eq_false] at h
  obtain ⟨-, -, hsequence, hfinite, hlater, hobject, nodes, hnodes, -⟩ := h
  refine ⟨hsequence, hfinite, fun last hlast hle => hlater ?_, hobject, nodes, hnodes⟩
  rw [Option.mem_def.mp hlast]
  simpa using hle

/-- **A frame that is appended** is recorded. -/
theorem Recorded.append (hspell : lib.spell = host.spell) {fs : List ReplayFrame} {r r' : Recording}
    (hr : Recorded lib stride fs r) {line : List UInt8} (h : appendRecorderFrame host request stride r line = .ok r') :
    Recorded lib stride (fs ++ frameOfLine host line) r' := by
  unfold appendRecorderFrame at h
  simp only [ite_error_eq_ok, not_le] at h
  obtain ⟨-, -, hcount, h⟩ := h
  obtain ⟨input, hinput, h⟩ := bind_eq_ok.mp h
  rw [mapError_eq_ok] at hinput
  obtain ⟨hchecked, h⟩ := check_eq_ok.mp h
  simp only [bind_eq_ok, checked_eq_ok] at h
  obtain ⟨_, ⟨-, rfl⟩, _, ⟨-, rfl⟩, _, ⟨-, rfl⟩, h⟩ := h
  obtain ⟨-, h⟩ := ite_error_eq_ok.mp h
  obtain rfl := Except.ok.inj h
  obtain ⟨hsequence, hfinite, hlater, hobject, hnodes⟩ := checkFrame_eq_ok hchecked
  rw [hr.frameCount] at hcount hsequence
  have hmax : maxRecorderFrames < 2 ^ 64 := by decide
  have hentry : input.sequence = .ofNat fs.length := by rw [← hsequence, UInt64.ofNat_toNat]
  have hline : frameOfLine host line = [{ t := input.t, state := input.state }] := by
    rw [frameOfLine, hinput]
  have hstride (offset : ℕ) : onStride stride { sequence := input.sequence, t := input.t, byteOffset := offset } =
      decide (input.sequence.toNat % stride = 0) := rfl
  rw [hline, ← hspell, hr.frameBytes]
  refine ⟨?_, ?_, ?_, ?_, ?_, ?_, ?_, ?_, ?_, ?_, ?_⟩
  · rw [hr.frames, List.flatMap_append, List.flatMap_singleton]
    rfl
  · rw [hr.index, filter_entries_append, List.flatMap_append, due, ← hentry]
    dsimp only
    rw [List.filter_singleton, hstride]
    by_cases hzero : input.sequence.toNat % stride = 0 <;> simp [hzero, entryText]
  · simp [hr.frameCount]
  · rw [List.flatMap_append, List.length_append, List.flatMap_singleton, ← utf8_frameText, length_utf8]
    rfl
  · rw [hr.firstT]
    cases fs <;> simp
  · simp
  · rw [entries_append, List.getLast?_concat, ← hentry]
  · rw [entries_append, List.getLast?_concat, ← hentry]
    intro e he
    obtain rfl := Option.some.inj he
    dsimp only
    rw [hstride]
    by_cases hzero : input.sequence.toNat % stride = 0
    · simp [hzero]
    · simp only [hzero, decide_false, Bool.false_eq_true, if_false, iff_false]
      intro hsame
      have hlt := hr.earlier _ hsame
      omega
  · intro s hs
    dsimp only at hs
    rw [List.length_append, List.length_singleton]
    split_ifs at hs
    · obtain rfl := Option.some.inj hs
      omega
    · have hlt := hr.earlier s hs
      omega
  · refine sound_append.mpr ⟨hr.sound, hfinite, fun g hg => hlater _ ?_, hobject, hnodes⟩
    rw [hr.lastT, Option.mem_def.mp hg]
    rfl
  · rw [List.length_append, List.length_singleton]
    exact hcount

/-- **Whatever is read**, its frames are recorded. -/
theorem Recorded.foldlM (hspell : lib.spell = host.spell) {bytes : List UInt8} {fs : List ReplayFrame} {s s' : StreamState}
    (hs : Recorded lib (Desktop.indexStride request) fs s.recording)
    (h : bytes.foldlM (readByte host request) s = .ok s') :
    Recorded lib (Desktop.indexStride request) (fs ++ captured host s.pending bytes) s'.recording := by
  induction bytes generalizing s fs with
  | nil =>
    obtain rfl := Except.ok.inj h
    rw [captured, List.append_nil]
    exact hs
  | cons byte bytes ih =>
    rw [List.foldlM_cons] at h
    obtain ⟨s₁, hbyte, h⟩ := bind_eq_ok.mp h
    unfold readByte at hbyte
    rw [captured]
    split_ifs at hbyte with hnewline
    · obtain ⟨r, hr, hbyte⟩ := bind_eq_ok.mp hbyte
      obtain rfl := Except.ok.inj hbyte
      rw [if_pos hnewline, ← List.append_assoc]
      exact ih (hs.append hspell hr) h
    · obtain rfl := Except.ok.inj hbyte
      rw [if_neg hnewline]
      exact ih (s := { s with pending := s.pending ++ [byte] }) hs h

/-! ### The records of an archive -/

/-- The manifest that the recorder writes, as the verifier reads it. -/
def manifestOf (m : Desktop.RecorderArchiveManifest) : RecorderArchiveManifest where
  schemaVersion := "forge-recorder-archive/1.0.0"
  replaySchemaVersion := "1.0.0"
  frameSchemaVersion := "forge-telemetry-frame/1.0.0"
  receiptSchemaVersion := "forge-recorder-receipt/1.0.0"
  artifactId := m.artifactId
  referenceRigId := m.referenceRigId
  sampleRateHz := m.sampleRateHz
  startedAtUnixMs := m.startedAtUnixMs
  contractHash := m.contractHash
  lockfileHash := m.lockfileHash
  environment := m.environment
  seed := m.seed
  sourceKind := "serial-jsonl"
  sourcePortSha256 := m.sourcePortSha256
  sourceBaud := m.sourceBaud
  captureMaturity := "local-serial-integration"
  recordedDeviceAttested := false
  frameFile := recorderFrameFile
  indexFile := recorderIndexFile
  replayFile := recorderReplayFile
  receiptFile := recorderReceiptFile
  captureConsentConfirmed := true
  userOwned := true
  sharingAuthorized := false
  trainingReuseAuthorized := false
  noAutoArm := true

/-- The receipt that the recorder writes, as the verifier reads it. -/
def receiptOf (r : Desktop.RecorderStopReceipt) : RecorderStopReceipt where
  schemaVersion := "forge-recorder-receipt/1.0.0"
  archiveSchemaVersion := "forge-recorder-archive/1.0.0"
  replaySchemaVersion := "1.0.0"
  frameSchemaVersion := "forge-telemetry-frame/1.0.0"
  artifactId := r.artifactId
  referenceRigId := r.referenceRigId
  contractHash := r.contractHash
  lockfileHash := r.lockfileHash
  startedAtUnixMs := r.startedAtUnixMs
  stoppedAtUnixMs := r.stoppedAtUnixMs
  frameCount := r.frameCount
  durationS := r.durationS
  frameFileSha256 := r.frameFileSha256
  indexFileSha256 := r.indexFileSha256
  replayFileSha256 := r.replayFileSha256
  sourcePortSha256 := r.sourcePortSha256
  captureComplete := true
  captureMaturity := "local-serial-integration"
  captureConsentConfirmed := true
  recordedDeviceAttested := false
  userOwned := true
  sharingAuthorized := false
  trainingReuseAuthorized := false
  noAutoArm := true

/-- Both are spelled alike. -/
theorem tree_manifestOf (spell : Spelling) (m : Desktop.RecorderArchiveManifest) :
    (manifestOf m).tree spell = m.tree spell := rfl

theorem tree_receiptOf (spell : Spelling) (r : Desktop.RecorderStopReceipt) : (receiptOf r).tree spell = r.tree spell := rfl

/-- The receipt of an archive. -/
def archiveReceipt (host : Host) (request : RecorderRequest) (m : Desktop.RecorderArchiveManifest) (now : UnixMs)
    (a : RecorderArchive) : Desktop.RecorderStopReceipt where
  artifactId := request.artifactId
  referenceRigId := m.referenceRigId
  contractHash := request.contractHash
  lockfileHash := request.lockfileHash
  startedAtUnixMs := m.startedAtUnixMs
  stoppedAtUnixMs := now
  frameCount := a.frameCount
  durationS := a.durationS
  frameFileSha256 := host.sha256Hex a.frames
  indexFileSha256 := host.sha256Hex a.index
  replayFileSha256 := host.sha256Hex a.replay
  sourcePortSha256 := m.sourcePortSha256

/-- The files of an archive. -/
def archiveFiles (a : RecorderArchive) : ArchiveFiles where
  manifest := utf8 a.manifest
  frames := utf8 a.frames
  index := utf8 a.index
  replay := utf8 a.replay
  receipt := utf8 a.receipt

/-- The directory that the recorder leaves. -/
def directoryOf (a : RecorderArchive) : Directory where
  real := true
  entries := (archiveFiles a).entries

theorem finalIndexEntry_eq {fs : List ReplayFrame} {r : Recording} (hr : Recorded lib stride fs r) :
    finalIndexEntry lib.spell r.progress = (lastEntry lib stride fs).flatMap (entryText lib) := by
  unfold finalIndexEntry lastEntry
  rw [hr.lastIndex]
  cases hlast : (entries lib fs).getLast? with
  | none => rfl
  | some e =>
    have hindexed := hr.indexed e hlast
    dsimp only
    cases hstride : onStride stride e with
    | true => simp [hindexed.mpr hstride, hstride]
    | false =>
      have hne : r.progress.lastIndexedSequence ≠ some e.sequence := fun h => by simp [hindexed.mp h] at hstride
      rw [if_pos hne, Option.filter_some, if_pos (by simp [hstride])]
      simp [entryText]

/-- **What a completed recording holds.** -/
structure Completed (lib : Libraries) (host : Host) (request : RecorderRequest) (m : Desktop.RecorderArchiveManifest)
    (now : UnixMs) (frames : List ReplayFrame) (a : RecorderArchive) : Prop where
  manifest : a.manifest = newJson (m.tree lib.spell)
  receipt : a.receipt = newJson ((archiveReceipt host request m now a).tree lib.spell)
  framesFile : a.frames = frames.flatMap (frameText lib)
  indexFile : a.index = (indexEntries lib (Desktop.indexStride request) frames).flatMap (entryText lib)
  replayFile : a.replay = recorderReplayPrefix lib.spell request m ++
    [','].intercalate (frames.map fun f => (replayFrameTree lib.spell f.t f.state).render) ++ "]\x7d\n".toList
  frameCount : a.frameCount = frames.length
  durationS : a.durationS = duration frames
  sound : Sound frames
  nonempty : frames ≠ []
  short : frames.length ≤ maxRecorderFrames

theorem completed_of_recorded {m : Desktop.RecorderArchiveManifest} {now : UnixMs} {frames : List ReplayFrame}
    {s : StreamState} {a : RecorderArchive} (hspell : lib.spell = host.spell) (hline : ∀ x, '\n' ∉ lib.spell x)
    (hs : Recorded lib (Desktop.indexStride request) frames s.recording)
    (h : completeRecording host request m now s = .ok a) : Completed lib host request m now frames a := by
  unfold completeRecording at h
  dsimp only at h
  obtain ⟨-, h⟩ := ite_error_eq_ok.mp h
  obtain ⟨hcount, h⟩ := ite_error_eq_ok.mp h
  obtain ⟨_, -, h⟩ := bind_eq_ok.mp h
  obtain rfl := Except.ok.inj h
  rw [← hspell]
  have hlines : lines s.recording.frames = frames.map fun f => (replayFrameTree lib.spell f.t f.state).render := by
    rw [hs.frames]
    refine lines_flatMap (fun f _ => oneLine_frame hline f) fun f _ => ?_
    rw [replayFrameTree, getLast?_recordTree]
    decide
  refine ⟨rfl, rfl, hs.frames, ?_, ?_, hs.frameCount, ?_, hs.sound, ?_, hs.short⟩
  · dsimp only
    rw [hs.index, finalIndexEntry_eq hs, indexEntries, List.flatMap_append]
  · dsimp only
    rw [finalizeReplayFile, hlines]
  · show s.recording.progress.lastT.getD 0.0 - s.recording.progress.firstT.getD 0.0 = duration frames
    rw [hs.lastT, hs.firstT]
    rfl
  · rintro rfl
    exact hcount hs.frameCount

theorem completed_of_record {m : Desktop.RecorderArchiveManifest} {now : UnixMs} {turns : List (Bool × PortRead)}
    {a : RecorderArchive} (hspell : lib.spell = host.spell) (hline : ∀ x, '\n' ∉ lib.spell x)
    (h : recordSerialStream host request m now turns = some (.ok a)) :
    Completed lib host request m now (framesOf host turns) a := by
  obtain ⟨r, hr, hcomplete⟩ := Option.map_eq_some_iff.mp h
  obtain ⟨s, rfl, hs⟩ := bind_eq_ok.mp hcomplete
  exact completed_of_recorded hspell hline
    (Recorded.foldlM hspell (recorded_initial lib _) (foldlM_of_serialLoop hr)) hs

/-! ### The limits of the verifier -/

/-- Times that increase end no earlier than they begin. -/
theorem Sound.head_le_last {frames : List ReplayFrame} (h : Sound frames) :
    ∀ f ∈ frames.head?, ∀ g ∈ frames.getLast?, floatValue f.t ≤ floatValue g.t := by
  induction frames using List.reverseRecOn with
  | nil => exact fun f hf => by cases hf
  | append_singleton fs g ih =>
    obtain ⟨hfs, hg⟩ := sound_append.mp h
    intro f hf g' hg'
    rw [List.getLast?_concat] at hg'
    obtain rfl := Option.some.inj hg'
    rcases List.eq_nil_or_concat fs with rfl | ⟨fs, last, rfl⟩
    · obtain rfl := Option.some.inj hf
      exact le_rfl
    · rw [List.concat_eq_append] at hfs hg hf ih
      have hlast : (fs ++ [last]).getLast? = some last := List.getLast?_concat
      have hf : f ∈ (fs ++ [last]).head? := by
        cases fs <;> simpa using hf
      have hlater := hg.later last hlast
      rw [float_le_iff_value hg.finite (hfs.finite last (by simp)), not_le] at hlater
      exact (ih hfs f hf last hlast).trans hlater.le

theorem Sound.duration_not_negative {frames : List ReplayFrame} (h : Sound frames) (hne : frames ≠ []) :
    ¬duration frames < 0.0 := by
  have hfirst := List.head?_eq_some_head hne
  have hlast := List.getLast?_eq_some_getLast hne
  have hf := h.finite _ (List.head_mem hne)
  have hl := h.finite _ (List.getLast_mem hne)
  rw [duration, hfirst, hlast]
  exact sub_not_negative hl hf ((float_le_iff_value hf hl).mpr (h.head_le_last _ hfirst _ hlast))

theorem byteOffset_le {frames : List ReplayFrame} {sequence offset : ℕ} {e : RecorderIndexEntry}
    (h : e ∈ entriesFrom lib sequence offset frames) : e.byteOffset ≤ offset + (frames.flatMap lib.frames.line).length := by
  induction frames generalizing sequence offset with
  | nil => cases h
  | cons f frames ih =>
    rw [List.flatMap_cons, List.length_append]
    rcases List.mem_cons.mp h with rfl | h
    · exact Nat.le_add_right _ _
    · have hle := ih h
      omega

theorem entry_size_le (hspell : ∀ x, utf8Length (lib.spell x) ≤ 24) {e : RecorderIndexEntry}
    (hoffset : e.byteOffset < 10 ^ 20) : (lib.index.line e).length ≤ 256 := by
  have hsequence : utf8Length (Nat.toDigits 10 e.sequence.toNat) ≤ 20 :=
    utf8Length_toDigits (by decide) (e.sequence.toNat_lt.trans (by decide))
  have hbyte : utf8Length (Nat.toDigits 10 e.byteOffset) ≤ 20 := utf8Length_toDigits (by decide) hoffset
  have ht : utf8Length (double lib.spell e.t).render ≤ 24 := by
    rw [double, Tree.render_leaf]
    split
    · exact hspell _
    · decide
  have hsize := recordTree_size_le [("sequence", natural e.sequence.toNat), ("t", double lib.spell e.t),
    ("byteOffset", natural e.byteOffset)]
  have hname₁ : utf8Length (stringToken "sequence") = 10 := by decide
  have hname₂ : utf8Length (stringToken "t") = 3 := by decide
  have hname₃ : utf8Length (stringToken "byteOffset") = 12 := by decide
  simp only [List.map_cons, List.map_nil, List.sum_cons, List.sum_nil, hname₁, hname₂, hname₃, natural,
    Tree.render_leaf] at hsize
  rw [Format.line, List.length_append, List.length_singleton, Libraries.index]
  dsimp only
  rw [length_utf8, RecorderIndexEntry.tree, natural, natural]
  omega

/-- **The manifest of a validated request** is valid. -/
theorem validateManifest_manifestOf {portIsEnumerated : Bool} {rigId : String} (hhost : host.Bounded)
    (h : validateRecorderRequest host.spell request portIsEnumerated = .ok rigId) (started : UnixMs) :
    validateManifest host.spell (manifestOf (createRecorderArchive host request rigId started)) = .ok () := by
  unfold validateRecorderRequest at h
  simp only [ite_error_eq_ok, bind_eq_ok] at h
  obtain ⟨-, hid, -, -, hrate, hport, -, hhash, hobject, hsize, nodes, hnodes, h⟩ := h
  have hbaud : request.baud = betaflightSerialBaud := not_not.mp (not_or.mp hport).2
  have hrig : rigId ∈ d12Rigs := by
    cases hrig : request.referenceRigId with
    | none => simp [hrig] at h
    | some rig =>
      simp only [hrig] at h
      obtain ⟨⟨⟩, hknown, h⟩ := bind_eq_ok.mp h
      obtain rfl := Except.ok.inj h
      exact mem_of_requireD12Rig hknown
  have hhash : isSha256Hex request.contractHash = true ∧ isSha256Hex request.lockfileHash = true := by
    simpa using hhash
  unfold validateManifest
  rw [ite_error_eq_ok, ite_error_eq_ok, ite_error_eq_ok, ite_error_eq_ok, ite_error_eq_ok, ite_error_eq_ok,
    ite_error_eq_ok, bind_eq_ok]
  refine ⟨by simp [manifestOf], hid, not_not.mpr hrig, hrate, ?_, hobject, hsize, nodes, hnodes, ?_⟩
  · simp [manifestOf, createRecorderArchive, hhash.1, hhash.2, hhost.sha256Hex]
  · rw [ite_error_eq_ok, ite_error_eq_ok, ite_error_eq_ok]
    exact ⟨by simp [manifestOf, createRecorderArchive, hbaud], by simp [manifestOf], by simp [manifestOf], rfl⟩

/-- **The receipt of a recording** is valid, unless the duration overflowed. -/
theorem validateReceipt_receiptOf {rigId : String} {started now : UnixMs} (hhost : host.Bounded) (hclock : started ≤ now)
    {frames : List ReplayFrame} {a : RecorderArchive}
    (h : Completed lib host request (createRecorderArchive host request rigId started) now frames a)
    (hfinite : a.durationS.isFinite = true) :
    validateReceipt (receiptOf (archiveReceipt host request (createRecorderArchive host request rigId started) now a))
      (manifestOf (createRecorderArchive host request rigId started)) = .ok () := by
  have hcount := List.length_pos_iff.mpr h.nonempty
  have hshort := h.short
  have hduration := h.sound.duration_not_negative h.nonempty
  rw [← h.durationS] at hduration
  unfold validateReceipt
  simp only [ite_error_eq_ok, receiptOf, archiveReceipt, manifestOf, createRecorderArchive, h.frameCount]
  refine ⟨by simp, by simp, ?_, by simp [hhost.sha256Hex], by simp, trivial⟩
  rw [not_or, not_or, not_or, not_or]
  exact ⟨not_lt.mpr hclock, not_lt.mpr hcount, not_lt.mpr hshort, by simp [hfinite], hduration⟩

/-! ### The archive is read again -/

/-- The libraries read back the records of an archive from the texts that are written for them. A receipt whose
duration overflowed has none that could be read. -/
structure ReadsBack (lib : Libraries) (m : RecorderArchiveManifest) (r : RecorderStopReceipt)
    (fs : List ReplayFrame) : Prop where
  manifest : lib.manifest (utf8 (newJson (m.tree lib.spell))) = .ok m
  receipt : r.durationS.isFinite = true → lib.receipt (utf8 (newJson (r.tree lib.spell))) = .ok r
  frames : ∀ f ∈ fs, lib.frame (lib.frames.write f) = .ok f
  index : ∀ e ∈ entries lib fs, lib.indexEntry (lib.index.write e) = .ok e

theorem mem_entries_of_mem_indexEntries {frames : List ReplayFrame} {e : RecorderIndexEntry}
    (h : e ∈ indexEntries lib stride frames) : e ∈ entries lib frames := by
  rcases List.mem_append.mp h with h | h
  · exact (List.mem_filter.mp h).1
  · rw [lastEntry, Option.mem_toList, Option.filter_eq_some_iff] at h
    exact List.mem_of_getLast? h.1

theorem newline_not_mem_write (hline : ∀ x, '\n' ∉ lib.spell x) (f : ReplayFrame) : newline ∉ lib.frames.write f :=
  fun h => oneLine_frame hline f (newline_mem_utf8.mp h)

theorem ReadsPretty.of_spelled {α : Type} {read : List UInt8 → Except String α}
    {tree : α → Tree (List Char) (List Char)} {a : α} {bytes : List UInt8} (hbytes : bytes = utf8 (newJson (tree a)))
    (hread : read (utf8 (newJson (tree a))) = .ok a)
    (hshort : utf8Length (newJson (tree a)) ≤ recorderArchiveMetadataReserveBytes) : ReadsPretty read tree a bytes := by
  subst hbytes
  exact ⟨rfl, hread, (length_utf8 _).trans_le hshort⟩

theorem utf8_frames {m : Desktop.RecorderArchiveManifest} {now : UnixMs} {frames : List ReplayFrame} {a : RecorderArchive}
    (h : Completed lib host request m now frames a) : utf8 a.frames = frames.flatMap lib.frames.line := by
  rw [h.framesFile, utf8_flatMap]
  exact List.flatMap_congr fun f _ => utf8_frameText lib f

/-- **The content of a recording.** -/
theorem content_of_completed {rigId : String} {started now : UnixMs} {frames : List ReplayFrame} {a : RecorderArchive}
    {portIsEnumerated : Bool} (hagrees : lib.Agrees host) (hhost : host.Bounded) (hline : ∀ x, '\n' ∉ lib.spell x)
    (hvalid : validateRecorderRequest host.spell request portIsEnumerated = .ok rigId) (hclock : started ≤ now)
    (h : Completed lib host request (createRecorderArchive host request rigId started) now frames a)
    (hsize : a.byteSize ≤ maxRecorderArchiveBytes)
    (hreads : ReadsBack lib (manifestOf (createRecorderArchive host request rigId started))
      (receiptOf (archiveReceipt host request (createRecorderArchive host request rigId started) now a)) frames)
    (hshort : ∀ f ∈ frames, (lib.frames.line f).length ≤ maxRecorderFrameBytes + 1)
    (hfinite : a.durationS.isFinite = true) :
    Content lib (archiveFiles a) (manifestOf (createRecorderArchive host request rigId started))
      (receiptOf (archiveReceipt host request (createRecorderArchive host request rigId started) now a)) frames := by
  have hadmitted := validateRecorderRequest_ok hvalid
  have hreserve : recorderArchiveMetadataReserveBytes = 1048576 := rfl
  have hmax : maxRecorderArchiveBytes < 10 ^ 20 := by decide
  have hbounded : ∀ x, utf8Length (lib.spell x) ≤ 24 := fun x => hagrees.spell ▸ hhost.spell x
  have hframes := utf8_frames h
  have htotal : (frames.flatMap lib.frames.line).length ≤ a.byteSize := by
    rw [← hframes, length_utf8, RecorderArchive.byteSize]
    omega
  refine ⟨.of_spelled (congrArg utf8 h.manifest) hreads.manifest ?_, ?_,
    .of_spelled (congrArg utf8 h.receipt) (hreads.receipt hfinite) ?_, validateReceipt_receiptOf hhost hclock h hfinite,
    hframes, fun f hf => ⟨hreads.frames f hf, newline_not_mem_write hline f, hshort f hf⟩, h.sound, ?_, fun e he => ?_,
    h.frameCount, h.durationS, (hagrees.sha256Hex _).symm, (hagrees.sha256Hex _).symm, (hagrees.sha256Hex _).symm, ?_⟩
  · rw [tree_manifestOf, hagrees.spell]
    exact (manifest_size_le hhost hadmitted started).trans (by omega)
  · rw [hagrees.spell]
    exact validateManifest_manifestOf hhost hvalid started
  · -- the receipt is that of a recording with as many frames, which began and ended when this one did
    let progress : RecorderProgress := {
      frameCount := frames.length
      firstT := frames.head?.map ReplayFrame.t
      lastT := frames.getLast?.map ReplayFrame.t }
    have hcount : progress.frameCount ≤ maxRecorderFrames := h.short
    have hreceipt := receipt_size_le hhost hadmitted started now hcount a.frames a.index a.replay
    have hsame : archiveReceipt host request (createRecorderArchive host request rigId started) now a =
        stopReceipt host request (createRecorderArchive host request rigId started) now progress a.frames a.index
          a.replay := by
      rw [archiveReceipt, h.frameCount, h.durationS]
      rfl
    rw [tree_receiptOf, hsame, hagrees.spell]
    exact hreceipt.trans (by omega)
  · show utf8 a.index = _
    rw [h.indexFile, utf8_flatMap]
    exact List.flatMap_congr fun e _ => utf8_entryText lib e
  · have he := mem_entries_of_mem_indexEntries he
    have hoffset := byteOffset_le he
    exact ⟨hreads.index e he, fun hmem => oneLine_entry hline e (newline_mem_utf8.mp hmem),
      entry_size_le hbounded (by omega)⟩
  · show lib.sha256Hex (utf8 a.replay) = _
    rw [h.replayFile, utf8_append, utf8_append, utf8_intercalate, List.map_map]
    rfl

theorem Directory.Holds.unique {directory : Directory} {files files' : ArchiveFiles} (h : directory.Holds files)
    (h' : directory.Holds files') : files = files' :=
  Except.ok.inj ((Directory.files_eq_ok.mpr h).2.symm.trans (Directory.files_eq_ok.mpr h').2)

theorem holds_directoryOf (a : RecorderArchive) : (directoryOf a).Holds (archiveFiles a) := ⟨rfl, .refl _⟩

theorem size_archiveFiles (a : RecorderArchive) : (archiveFiles a).size = a.byteSize := by
  simp only [ArchiveFiles.size, ArchiveFiles.entries, archiveFiles, RecorderArchive.byteSize, List.map_cons, List.map_nil,
    List.sum_cons, List.sum_nil, length_utf8]
  omega

/-- Frames that are read back from the same lines are the same. -/
theorem frames_unique {frames frames' : List ReplayFrame} {maxBytes : ℕ} (hline : ∀ x, '\n' ∉ lib.spell x)
    (hreads : ∀ f ∈ frames, lib.frame (lib.frames.write f) = .ok f)
    (hreads' : ∀ f ∈ frames', lib.frames.Reads maxBytes f)
    (h : frames.flatMap lib.frames.line = frames'.flatMap lib.frames.line) : frames = frames' := by
  have hwrite := Format.write_eq_of_lines_eq (fun f _ => newline_not_mem_write hline f)
    (fun f hf => (hreads' f hf).single) h
  have hok (fs : List ReplayFrame) (hfs : ∀ f ∈ fs, lib.frame (lib.frames.write f) = .ok f) :
      (fs.map lib.frames.write).map lib.frame = fs.map .ok := by
    rw [List.map_map]
    exact List.map_congr_left hfs
  have hframes := hok frames hreads
  rw [hwrite, hok frames' fun f hf => (hreads' f hf).read] at hframes
  exact (List.map_injective_iff.mpr (fun _ _ h => Except.ok.inj h) hframes).symm

end Forge.Validate.Recorder
